import TypeShape.Text.Blank
import TypeShape.Text.Lowercase
import TypeShape.Provider
import TypeShape.Settings

/-!
Fields that accessor methods stand for.

A getter is called `get…` or `is…`, takes nothing and returns something; a
setter is called `set…`, takes one thing and returns nothing.  The field is
named by what follows, with its first character in lower case.  The getter of an
object's class is no field.
-/
namespace TypeShape

/-- Where a field of a record comes from: its name and the signature of its
type. -/
structure FieldSource where
  name : String
  type : String
deriving DecidableEq

def FieldDecl.source (decl : FieldDecl) : FieldSource :=
  ⟨decl.name, decl.type⟩

def afterWord? : (word name : List Char) → Option (List Char)
  | [], name => some name
  | _ :: _, [] => none
  | c :: word, d :: name => if c = d then afterWord? word name else none

/-- The name of the field that an accessor stands for, from what follows `get`,
`is` or `set` in its own name. -/
def accessorField? : List Char → Option String
  | [] => none
  | first :: rest => some (String.ofList (Text.lowercase first ++ rest))

def isVoidSignature (signature : String) : Bool :=
  (Scalar.ofTypeName? (String.ofList (Text.trim signature.toList))).any
    Scalar.isVoid

namespace MethodDecl

/-- The field that a method stands for as a getter. -/
def getterSource? (method : MethodDecl) : Option FieldSource :=
  if method.params = [] ∧ isVoidSignature method.returns = false ∧ method.name ≠
    "getClass" then
    let name := method.name.toList
    match afterWord? ['g', 'e', 't'] name <|> afterWord? ['i', 's'] name with
    | some rest => (accessorField? rest).map (⟨·, method.returns⟩)
    | none => none
  else none

def setterSource? (method : MethodDecl) : Option FieldSource :=
  match method.params with
  | [param] =>
    if isVoidSignature method.returns = true then
      match afterWord? ['s', 'e', 't'] method.name.toList with
      | some rest => (accessorField? rest).map (⟨·, param⟩)
      | none => none
    else none
  | _ => none

end MethodDecl

/-- The fields that methods stand for: those of getters in the order of the
methods, then those of setters. -/
def Extraction.sources (extraction : Extraction) (methods : List MethodDecl) :
    List FieldSource :=
  (if extraction.usesGetters then methods.filterMap MethodDecl.getterSource?
    else []) ++
    (if extraction.usesSetters then methods.filterMap MethodDecl.setterSource?
      else [])

end TypeShape
