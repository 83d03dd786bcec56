import TypeShape.Document
import TypeShape.Text.Quoted

/-!
JSON values that are kept.

Keeping a value asks more of it than passing over it: its strings must have a
text, its numbers must be in range, and its containers may be nested only so
deep.
-/
namespace TypeShape

/-- A JSON value.  The members of an object stand as they are written, repeated
names included. -/
inductive Json where
  | null
  | bool (value : Bool)
  | number (value : Number)
  | string (text : String)
  | list (items : List Json)
  | object (members : List (String × Json))

namespace Document

mutual

/-- The value that a document is, if it can be kept with so many more levels of
containers. -/
def keep? : (levels : Nat) → Document → Option Json
  | _, null => some .null
  | _, bool value => some (.bool value)
  | _, number numeral => numeral.number?.map .number
  | _, string text => text.map .string
  | 0, list _ => none
  | levels + 1, list items => (keepItems? levels items).map .list
  | 0, object _ => none
  | levels + 1, object members => (keepMembers? levels members).map .object
  | _, broken => none

def keepItems? : (levels : Nat) → List Document → Option (List Json)
  | _, [] => some []
  | levels, item :: rest => do
    let item ← keep? levels item
    let rest ← keepItems? levels rest
    pure (item :: rest)

def keepMembers? :
    (levels : Nat) → List (Option String × Document) →
    Option (List (String × Json))
  | _, [] => some []
  | levels, (some name, value) :: rest => do
    let value ← keep? levels value
    let rest ← keepMembers? levels rest
    pure ((name, value) :: rest)
  | _, _ :: _ => none

end

/-- The number of containers that may be nested in a text that is kept. -/
def maxNesting : Nat := 127

end Document

inductive Found where
  | null
  | bool (value : Bool)
  | number (value : Number)
  | string (text : String)
  | list
  | object
deriving DecidableEq

namespace Found

def text : Found → String
  | null => "null"
  | bool true => "boolean `true`"
  | bool false => "boolean `false`"
  | number (.real negative magnitude) =>
    "floating point `" ++ (Number.real negative magnitude).text ++ "`"
  | number value => "integer `" ++ value.text ++ "`"
  | string text => "string " ++ Text.quoted text
  | list => "sequence"
  | object => "map"

end Found

def Json.found : Json → Found
  | null => .null
  | bool value => .bool value
  | number value => .number value
  | string text => .string text
  | list _ => .list
  | object _ => .object

/-- What is found where a document stands: its first token decides.  There is
nothing to be found where the text is at fault. -/
def Document.found? : Document → Option Found
  | null => some .null
  | bool value => some (.bool value)
  | number numeral => numeral.number?.map .number
  | string text => text.map .string
  | list _ => some .list
  | object _ => some .object
  | broken => none

end TypeShape
