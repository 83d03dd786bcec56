import TypeShape.Shape.Walk

/-!
A visitor that records the calls made to it.

Its gates answer from a script as long as there is one, and after that they are
closed exactly if their label is in a given list.  It can be made to fail at a
label or at the call of a given number.  A call that fails has been recorded.
-/
namespace TypeShape

structure Recorder where
  /-- The labels of the gates that are closed once the script is used up. -/
  closed : List String := []
  failOn : Option String := none
  /-- The number of the call that fails, counted from zero. -/
  failAt : Option Nat := none

/-- What a recorder has noted, and the answers that its gates still have to
give. -/
structure Recording where
  calls : Array Call := #[]
  script : List Bool := []

namespace Recorder

def fails (recorder : Recorder) (index : Nat) (call : Call) : Bool :=
  recorder.failOn == some call.label || recorder.failAt == some index

def note (recorder : Recorder) (call : Call) : EStateM Call Recording Unit :=
  fun recording =>
    let noted := { recording with calls := recording.calls.push call }
      if recorder.fails recording.calls.size call then .error call noted
        else .ok () noted

/-- The answer of a gate: from the script, or else by the label. -/
def answer (recorder : Recorder) (call : Call) : EStateM Call Recording Bool :=
  fun recording => match recording.script with
  | [] => .ok (!recorder.closed.contains call.label) recording
  | next :: script => .ok next { recording with script := script }

def visitor (recorder : Recorder) : Visitor Call Recording where
  leaf leaf := recorder.note (.leaf leaf)
  before part := recorder.note (.before part)
  gate part := do
    recorder.note (.gate part)
    recorder.answer (.gate part)
  after part := recorder.note (.after part)

def leafVisitor (recorder : Recorder) : Visitor Call Recording where
  leaf leaf := recorder.note (.leaf leaf)

end Recorder

structure WalkRecord where
  calls : List Call
  failed : Option Call
deriving DecidableEq

def Shape.recordWalk (shape : Shape) (visitor : Visitor Call Recording)
    (script : List Bool) : WalkRecord :=
  match (shape.walk visitor).run { script } with
  | .ok _ recording => ⟨recording.calls.toList, none⟩
  | .error call recording => ⟨recording.calls.toList, some call⟩

end TypeShape
