import TypeShape.Json

/-!
What can be wrong with a text that something is loaded from.

Either the text is not JSON as far as it has to be read, or a value in it is not
what is expected in its place.  In the second case the fault says where, as a
path from the top, and what.
-/
namespace TypeShape

inductive PathStep where
  | member (name : String)
  | item (index : Nat)
deriving DecidableEq

/-- The wording of a path: names with points between them, positions in square
brackets, and a lone point for the top. -/
def pathText (path : List PathStep) : String :=
  match path with
  | [] => "."
  | first :: rest => stepText first ++ String.join (rest.map nextText)
where
  stepText : PathStep → String
    | .member name => name
    | .item index => "[" ++ toString index ++ "]"
  nextText : PathStep → String
    | .member name => "." ++ name
    | .item index => "[" ++ toString index ++ "]"

inductive Mismatch where
  | wrongType (found : Found) (expected : String)
  | wrongValue (found : Found) (expected : String)
  | wrongLength (length : Nat) (expected : String)
  | missingField (name : String)
  | duplicateField (name : String)
  | unknownVariant (name : String) (known : List String)
deriving DecidableEq

def namesText (names : List String) : String :=
  String.intercalate ", " (names.map fun name => "`" ++ name ++ "`")

def Mismatch.message : Mismatch → String
  | wrongType found expected =>
      "invalid type: " ++ found.text ++ ", expected " ++ expected
  | wrongValue found expected =>
      "invalid value: " ++ found.text ++ ", expected " ++ expected
  | wrongLength length expected =>
    "invalid length " ++ toString length ++ ", expected " ++ expected
  | missingField name => "missing field `" ++ name ++ "`"
  | duplicateField name => "duplicate field `" ++ name ++ "`"
  | unknownVariant name known =>
    "unknown variant `" ++ name ++ "`, expected one of " ++ namesText known

inductive LoadFault where
  | malformed
  | mismatch (path : List PathStep) (mismatch : Mismatch)
deriving DecidableEq

def mismatchMessage (path : List PathStep) (mismatch : Mismatch) : String :=
  "at JSON path " ++ pathText path ++ " → " ++ mismatch.message

/-! ### Reading values in their places -/

namespace Document

def unexpected {α : Type} (path : List PathStep) (document : Document)
    (expected : String) : Except LoadFault α :=
  match document.found? with
  | none => .error .malformed
  | some found => .error (.mismatch path (.wrongType found expected))

/-- Passes over a document, which has to be without fault. -/
def skip (document : Document) : Except LoadFault Unit :=
  if document.sound then .ok () else .error .malformed

def keep (levels : Nat) (document : Document) : Except LoadFault Json :=
  match document.keep? levels with
  | none => .error .malformed
  | some value => .ok value

/-- The text of a key, which has to be there. -/
def keyText : Option String → Except LoadFault String
  | some name => .ok name
  | none => .error .malformed

/-- The choice that a name stands for, among choices with given names. -/
def choiceNamed {α : Type} (path : List PathStep) (ofText? : String → Option α)
    (known : List String) (name : String) : Except LoadFault α :=
  match ofText? name with
  | some value => .ok value
  | none => .error (.mismatch path (.unknownVariant name known))

def choice {α : Type} (path : List PathStep) (ofText? : String → Option α)
    (known : List String) (document : Document) : Except LoadFault α :=
  match document.found? with
  | some (.string name) => choiceNamed path ofText? known name
  | _ => document.unexpected path "variant identifier"

end Document

/-- Reads a field for the first time.  A second time is refused before its value
is looked at. -/
def readOnce {ε α : Type} (repeated : ε) (slot : Option α) (read : Except ε α) :
    Except ε (Option α) :=
  if slot.isSome then .error repeated else read.map some

/-- The fault of a field of the value at the top that is met a second time. -/
def LoadFault.repeated (path : List PathStep) (name : String) : LoadFault :=
  .mismatch path (.duplicateField name)

end TypeShape
