import TypeShape.Table
import TypeShape.Provider

/-!
Catalogs: types that are described in advance.

A catalog maps type names to declarations and answers questions about them.  It
never fails: about a name that it does not hold it says that the name is not
known.
-/
namespace TypeShape

structure RecordDecl where
  typeVars : List String := []
  fields : List FieldDecl := []
  methods : List MethodDecl := []
deriving DecidableEq

inductive Declaration where
  | enumeration (constants : List String)
  | collection
  | mapping
  | record (decl : RecordDecl)
deriving DecidableEq

namespace Declaration

def category : Declaration → Category
  | enumeration constants => .enumeration constants
  | collection => .collection
  | mapping => .mapping
  | record _ => .record

/-- The declaration of a record; anything else declares no variables, fields or
methods. -/
def recordDecl : Declaration → RecordDecl
  | record decl => decl
  | _ => {}

end Declaration

/-- Declarations by type name, in the order in which the names were first
declared. -/
structure Catalog where
  types : Table Declaration := .empty

namespace Catalog

def empty : Catalog := {}

def get? (catalog : Catalog) (name : String) : Option Declaration :=
  catalog.types.get? name

def size (catalog : Catalog) : Nat :=
  catalog.types.size

def isEmpty (catalog : Catalog) : Bool :=
  catalog.types.isEmpty

/-- Declares a name, in place of the declaration it may have. -/
def declare (catalog : Catalog) (name : String) (decl : Declaration) :
    Catalog :=
  ⟨catalog.types.put name decl⟩

def declareAll (catalog : Catalog) (decls : List (String × Declaration)) :
    Catalog :=
  ⟨catalog.types.putAll decls⟩

/-- What is declared about the fields of a name, nothing if it is not a
record's. -/
def recordDecl (catalog : Catalog) (name : String) : RecordDecl :=
  match catalog.get? name with
  | some decl => decl.recordDecl
  | none => {}

def provider (catalog : Catalog) : Provider where
  category name := .ok ((catalog.get? name).map Declaration.category)
  typeVars name := .ok (catalog.recordDecl name).typeVars
  fields name := .ok (catalog.recordDecl name).fields
  methods name := .ok (catalog.recordDecl name).methods

theorem get?_declare (catalog : Catalog) (name other : String)
    (decl : Declaration) :
    (catalog.declare name decl).get? other =
      if other = name then some decl else catalog.get? other :=
  catalog.types.get?_put name other decl

def javaPackage : String := "java.util."

def javaCollections : List String :=
  ["Collection", "List", "ArrayList", "LinkedList", "Set", "HashSet",
   "LinkedHashSet", "TreeSet", "Queue", "Deque"]

def javaMaps : List String :=
  ["Map", "HashMap", "LinkedHashMap", "TreeMap", "SortedMap"]

/-- Declarations for types by their qualified and their short names. -/
def javaDeclarations (names : List String) (decl : Declaration) :
    List (String × Declaration) :=
  names.flatMap fun name => [(javaPackage ++ name, decl), (name, decl)]

def withJavaCollections (catalog : Catalog) : Catalog :=
  catalog.declareAll (javaDeclarations javaCollections .collection ++
    javaDeclarations javaMaps .mapping)

end Catalog

end TypeShape
