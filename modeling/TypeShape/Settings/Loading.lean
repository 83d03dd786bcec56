import TypeShape.LoadFault
import TypeShape.Settings

/-!
Settings from JSON texts.

The text holds an object whose members override the defaults that they name, or
a list of values in the order of the fields.  Other members are passed over,
whatever they hold.  Faults are met in the order of the text, and what follows
the first value of the text is not looked at.
-/
namespace TypeShape

/-- The settings that a text has named so far. -/
structure SettingsDraft where
  extraction : Option Extraction := none
  unknown : Option UnknownPolicy := none
  maxDepth : Option Nat := none

def SettingsDraft.settings (draft : SettingsDraft) : Settings where
  extraction := draft.extraction.getD ({} : Settings).extraction
  unknown := draft.unknown.getD ({} : Settings).unknown
  maxDepth := draft.maxDepth.getD ({} : Settings).maxDepth

namespace Settings

/-- A policy: its name, or an object whose only key is its name and whose value
is `null`. -/
def readPolicy {α : Type} (path : List PathStep) (ofText? : String → Option α)
    (known : List String) : Document → Except LoadFault α
  | .string (some name) => Document.choiceNamed path ofText? known name
  | .object ((key, value) :: rest) => do
    let name ← Document.keyText key
    let policy ← Document.choiceNamed path ofText? known name
    match value with
    | .null => pure ()
    | other => other.unexpected (path ++ [.member name]) "unit"
    match rest with
    | [] => pure policy
    | _ :: _ => .error .malformed
  | _ => .error .malformed

def readDepth (path : List PathStep) (document : Document) :
    Except LoadFault Nat :=
  match document.found? with
  | some (.number (.natural n)) => .ok n
  | some (.number (.belowZero n)) =>
    .error (.mismatch path (.wrongValue (.number (.belowZero n)) "usize"))
  | _ => document.unexpected path "usize"

def readExtraction (path : List PathStep) :
    Document → Except LoadFault Extraction :=
  readPolicy path Extraction.ofText? (Extraction.all.map Extraction.text)

def readUnknown (path : List PathStep) :
    Document → Except LoadFault UnknownPolicy :=
  readPolicy path UnknownPolicy.ofText?
    (UnknownPolicy.all.map UnknownPolicy.text)

def readMember (draft : SettingsDraft) (member : Option String × Document) :
    Except LoadFault SettingsDraft := do
  let name ← Document.keyText member.1
  let path := [PathStep.member name]
  match name with
  | "field_extraction" => do
    let slot ← readOnce (.repeated [] name) draft.extraction
      (readExtraction path member.2)
    pure { draft with extraction := slot }
  | "unknown_type_handling" => do
    let slot ← readOnce (.repeated [] name) draft.unknown
      (readUnknown path member.2)
    pure { draft with unknown := slot }
  | "max_depth" => do
    let slot ← readOnce (.repeated [] name) draft.maxDepth
      (readDepth path member.2)
    pure { draft with maxDepth := slot }
  | _ => do
    member.2.skip
    pure draft

def readItem? {α : Type} (index : Nat) (items : List Document)
    (read : List PathStep → Document → Except LoadFault α) :
    Except LoadFault (Option α) :=
  match items[index]? with
  | none => .ok none
  | some item => (read [.item index] item).map some

/-- Reads the items of the list, which may break off but not go on. -/
def readItems (items : List Document) : Except LoadFault SettingsDraft := do
  let extraction ← readItem? 0 items readExtraction
  let unknown ← readItem? 1 items readUnknown
  let maxDepth ← readItem? 2 items readDepth
  if 3 < items.length then .error .malformed
    else pure { extraction, unknown, maxDepth }

def ofDocument : Document → Except LoadFault Settings
  | .object members => do
    let draft ← members.foldlM readMember {}
    pure draft.settings
  | .list items => do
    let draft ← readItems items
    pure draft.settings
  | other => other.unexpected [] "struct GeneratorConfig"

/-- The settings that a text holds. -/
def ofJson (text : String) : Except LoadFault Settings :=
  ofDocument (Document.ofText text.toList)

end Settings

end TypeShape
