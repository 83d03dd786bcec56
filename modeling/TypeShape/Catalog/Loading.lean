import TypeShape.Catalog
import TypeShape.LoadFault

/-!
Catalogs from JSON texts.

The text holds an object whose member `types` is an object of declarations by
name, or a list of that object alone.  A declaration says what kind it is of, as
a member of an object or as the first item of a list; as the kind may come last,
a declaration is kept as a whole before it is taken apart.  Whatever has fields
may be written as an object or as a list in the order of the fields.
-/
namespace TypeShape

/-! ### Values that have been kept

Faults in these have no path of their own: they are faults of the
declaration. -/

namespace Json

def unexpected {α : Type} (value : Json) (expected : String) :
    Except Mismatch α :=
  .error (.wrongType value.found expected)

/-- The mismatch of a list with items after the last field. -/
def tooLong {α : Type} (items : List Json) (fields : Nat) : Except Mismatch α :=
  .error (.wrongLength items.length (toString fields ++
    (if fields = 1 then " element" else " elements") ++ " in sequence"))

def readString : Json → Except Mismatch String
  | string text => .ok text
  | other => other.unexpected "a string"

def readList {α : Type} (read : Json → Except Mismatch α) :
    Json → Except Mismatch (List α)
  | list items => items.mapM read
  | other => other.unexpected "a sequence"

def readStrings : Json → Except Mismatch (List String) :=
  readList readString

def required {α : Type} (name : String) : Option α → Except Mismatch α
  | some value => .ok value
  | none => .error (.missingField name)

end Json

/-! ### Fields and methods -/

namespace FieldDecl

def expected : String := "struct FieldSignature"

structure Draft where
  name : Option String := none
  type : Option String := none

def readMember (draft : Draft) (member : String × Json) :
    Except Mismatch Draft :=
  match member.1 with
  | "name" => do
    let name ← readOnce (.duplicateField "name") draft.name member.2.readString
    pure { draft with name }
  | "type" => do
    let type ← readOnce (.duplicateField "type") draft.type member.2.readString
    pure { draft with type }
  | _ => pure draft

def read : Json → Except Mismatch FieldDecl
  | .object members => do
    let draft ← members.foldlM readMember {}
    let name ← Json.required "name" draft.name
    let type ← Json.required "type" draft.type
    pure ⟨name, type⟩
  | .list [] => .error (.wrongLength 0 (expected ++ " with 2 elements"))
  | .list [name] => do
    let _ ← name.readString
    .error (.wrongLength 1 (expected ++ " with 2 elements"))
  | .list (name :: type :: rest) => do
    let items := name :: type :: rest
    let name ← name.readString
    let type ← type.readString
    if rest.isEmpty then pure ⟨name, type⟩ else Json.tooLong items 2
  | other => other.unexpected expected

end FieldDecl

namespace MethodDecl

def expected : String := "struct MethodSignature"

structure Draft where
  name : Option String := none
  params : Option (List String) := none
  returns : Option String := none

def readMember (draft : Draft) (member : String × Json) :
    Except Mismatch Draft :=
  match member.1 with
  | "name" => do
    let name ← readOnce (.duplicateField "name") draft.name member.2.readString
    pure { draft with name }
  | "parameters" => do
    let params ← readOnce (.duplicateField "parameters") draft.params
      member.2.readStrings
    pure { draft with params }
  | "returns" => do
    let returns ← readOnce (.duplicateField "returns") draft.returns
      member.2.readString
    pure { draft with returns }
  | _ => pure draft

/-- The method of a name; it takes nothing and returns nothing unless something
else is said. -/
def ofParts (name : String) (params : Option (List String))
    (returns : Option String) : MethodDecl where
  name
  params := params.getD []
  returns := returns.getD "void"

def read : Json → Except Mismatch MethodDecl
  | .object members => do
    let draft ← members.foldlM readMember {}
    let name ← Json.required "name" draft.name
    pure (ofParts name draft.params draft.returns)
  | .list [] => .error (.wrongLength 0 (expected ++ " with 3 elements"))
  | .list (name :: rest) => do
    let items := name :: rest
    let name ← name.readString
    let params ← rest[0]?.mapM Json.readStrings
    let returns ← rest[1]?.mapM Json.readString
    if 2 < rest.length then Json.tooLong items 3
      else pure (ofParts name params returns)
  | other => other.unexpected expected

end MethodDecl

/-! ### Records and enumerations -/

namespace RecordDecl

structure Draft where
  typeVars : Option (List String) := none
  fields : Option (List FieldDecl) := none
  methods : Option (List MethodDecl) := none

def Draft.decl (draft : Draft) : RecordDecl where
  typeVars := draft.typeVars.getD []
  fields := draft.fields.getD []
  methods := draft.methods.getD []

def readMember (draft : Draft) (member : String × Json) :
    Except Mismatch Draft :=
  match member.1 with
  | "type_variables" => do
    let typeVars ← readOnce (.duplicateField "type_variables") draft.typeVars
      member.2.readStrings
    pure { draft with typeVars }
  | "fields" => do
    let fields ← readOnce (.duplicateField "fields") draft.fields
      (member.2.readList FieldDecl.read)
    pure { draft with fields }
  | "methods" => do
    let methods ← readOnce (.duplicateField "methods") draft.methods
      (member.2.readList MethodDecl.read)
    pure { draft with methods }
  | _ => pure draft

def ofMembers (members : List (String × Json)) :
    Except Mismatch RecordDecl := do
  let draft ← members.foldlM readMember {}
  pure draft.decl

/-- A record declaration from the items of a list, which may break off. -/
def ofItems (items : List Json) : Except Mismatch RecordDecl := do
  let typeVars ← items[0]?.mapM Json.readStrings
  let fields ← items[1]?.mapM (Json.readList FieldDecl.read)
  let methods ← items[2]?.mapM (Json.readList MethodDecl.read)
  if 3 < items.length then Json.tooLong items 3
  else pure (Draft.decl { typeVars, fields, methods })

end RecordDecl

def readConstantsMember (draft : Option (List String))
    (member : String × Json) : Except Mismatch (Option (List String)) :=
  match member.1 with
  | "constants" =>
      readOnce (.duplicateField "constants") draft member.2.readStrings
  | _ => pure draft

def constantsOfMembers (members : List (String × Json)) :
    Except Mismatch (List String) := do
  let draft ← members.foldlM readConstantsMember none
  Json.required "constants" draft

def constantsOfItems : List Json → Except Mismatch (List String)
  | [] =>
    .error
      (.wrongLength 0 "struct variant CatalogEntry::Enumeration with 1 element")
  | constants :: rest => do
    let items := constants :: rest
    let constants ← constants.readStrings
    if rest.isEmpty then pure constants else Json.tooLong items 1

/-! ### Declarations -/

inductive DeclarationKind where
  | enumeration
  | collection
  | mapping
  | record
deriving DecidableEq

namespace DeclarationKind

def text : DeclarationKind → String
  | enumeration => "enumeration"
  | collection => "collection"
  | mapping => "map"
  | record => "complex"

def all : List DeclarationKind := [enumeration, collection, mapping, record]

def ofText? (text : String) : Option DeclarationKind :=
  all.find? (·.text = text)

end DeclarationKind

namespace Declaration

/-- A declaration of a kind from the other members of its object.  Those of a
collection or a mapping do not matter. -/
def ofMembers (kind : DeclarationKind) (members : List (String × Json)) :
    Except Mismatch Declaration :=
  match kind with
  | .enumeration => (constantsOfMembers members).map .enumeration
  | .collection => .ok .collection
  | .mapping => .ok .mapping
  | .record => (RecordDecl.ofMembers members).map .record

def ofItems (kind : DeclarationKind) (items : List Json) :
    Except Mismatch Declaration :=
  match kind with
  | .enumeration => (constantsOfItems items).map .enumeration
  | .collection =>
      if items.isEmpty then .ok .collection else Json.tooLong items 0
  | .mapping => if items.isEmpty then .ok .mapping else Json.tooLong items 0
  | .record => (RecordDecl.ofItems items).map .record

/-- The levels of containers that are left inside a declaration, which lies in
the object of types in the catalog. -/
def innerLevels : Nat := Document.maxNesting - 3

def readKind (path : List PathStep) :
    Document → Except LoadFault DeclarationKind :=
  Document.choice path DeclarationKind.ofText?
    (DeclarationKind.all.map DeclarationKind.text)

/-- A declaration that is being kept: its kind, if that has been met, and its
other members. -/
structure Draft where
  kind : Option DeclarationKind := none
  members : List (String × Json) := []

def readMember (path : List PathStep) (draft : Draft)
    (member : Option String × Document) : Except LoadFault Draft := do
  let name ← Document.keyText member.1
  if name = "kind" then
    let kind ← readOnce (.repeated path "kind") draft.kind
      (readKind (path ++ [.member "kind"]) member.2)
    pure { draft with kind }
  else
    let value ← member.2.keep innerLevels
    pure { draft with members := draft.members ++ [(name, value)] }

/-- A mismatch inside a declaration is one at its place. -/
def placed {α : Type} (path : List PathStep) (result : Except Mismatch α) :
    Except LoadFault α :=
  result.mapError (.mismatch path)

def ofDocument (path : List PathStep) : Document → Except LoadFault Declaration
  | .object members => do
    let draft ← members.foldlM (readMember path) {}
    let kind ← placed path (Json.required "kind" draft.kind)
    placed path (ofMembers kind draft.members)
  | .list [] => .error (.mismatch path (.missingField "kind"))
  | .list (kind :: items) => do
    let kind ← readKind (path ++ [.item 0]) kind
    let items ← items.mapM (Document.keep innerLevels)
    placed path (ofItems kind items)
  | other => other.unexpected path "internally tagged enum CatalogEntry"

end Declaration

/-! ### Catalogs -/

namespace Catalog

def readDeclaration (path : List PathStep) (types : Table Declaration)
    (member : Option String × Document) :
    Except LoadFault (Table Declaration) := do
  let name ← Document.keyText member.1
  let decl ← Declaration.ofDocument (path ++ [.member name]) member.2
  pure (types.put name decl)

/-- The declarations by name.  Of two with one name the later one counts, and
both have to be sound. -/
def readTypes (path : List PathStep) :
    Document → Except LoadFault (Table Declaration)
  | .object members => members.foldlM (readDeclaration path) .empty
  | other => other.unexpected path "a map"

def readMember (types : Option (Table Declaration))
    (member : Option String × Document) :
    Except LoadFault (Option (Table Declaration)) := do
  let name ← Document.keyText member.1
  if name = "types" then
    readOnce (.repeated [] name) types (readTypes [.member name] member.2)
  else
    member.2.skip
    pure types

def ofDocument : Document → Except LoadFault Catalog
  | .object members => do
    let types ← members.foldlM readMember none
    pure ⟨types.getD .empty⟩
  | .list [] => .ok .empty
  | .list (types :: rest) => do
    let types ← readTypes [.item 0] types
    if rest.isEmpty then pure ⟨types⟩ else .error .malformed
  | other => other.unexpected [] "struct Catalog"

def ofJson (text : String) : Except LoadFault Catalog :=
  ofDocument (Document.ofText text.toList)

inductive FileFault where
  /-- There is no such file, or its bytes are not a text. -/
  | unreadable
  | content (fault : LoadFault)
deriving DecidableEq

/-- The catalog that a file holds, given its bytes if there is such a file. -/
def ofFile (bytes : Option ByteArray) : Except FileFault Catalog :=
  match bytes.bind String.fromUTF8? with
  | none => .error .unreadable
  | some text => (ofJson text).mapError .content

end Catalog

end TypeShape
