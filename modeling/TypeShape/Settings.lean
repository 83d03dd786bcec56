/-!
Settings of a resolver: which methods give fields, what becomes of unknown
names, how deep it goes.
-/
namespace TypeShape

/-- Which accessor methods give fields to a record besides those it declares. -/
inductive Extraction where
  | declaredOnly
  | getters
  | setters
  | both
deriving DecidableEq

namespace Extraction

def text : Extraction → String
  | declaredOnly => "none"
  | getters => "getters"
  | setters => "setters"
  | both => "both"

/-- The choices in the order in which messages list them. -/
def all : List Extraction := [declaredOnly, getters, setters, both]

def ofText? (text : String) : Option Extraction :=
  all.find? (·.text = text)

def usesGetters : Extraction → Bool
  | getters | both => true
  | _ => false

def usesSetters : Extraction → Bool
  | setters | both => true
  | _ => false

end Extraction

/-- What becomes of a name that the provider does not know: the whole resolution
fails, or the name becomes a custom leaf or a leaf of its own kind. -/
inductive UnknownPolicy where
  | reject
  | asCustom
  | asUnknown
deriving DecidableEq

namespace UnknownPolicy

def text : UnknownPolicy → String
  | reject => "throw_error"
  | asCustom => "treat_as_custom"
  | asUnknown => "distinct_token"

def all : List UnknownPolicy := [reject, asCustom, asUnknown]

def ofText? (text : String) : Option UnknownPolicy :=
  all.find? (·.text = text)

end UnknownPolicy

structure Settings where
  extraction : Extraction := .both
  unknown : UnknownPolicy := .reject
  /-- The number of levels that a resolution may go down. -/
  maxDepth : Nat := 64
deriving DecidableEq

end TypeShape
