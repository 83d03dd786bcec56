import TypeShape.Shape
import TypeShape.Shape.Json

/-!
Walks through shapes.

A shape drives the walk and calls a visitor.  A leaf makes one call.  Every
other part of a shape is a segment: a call before it, a gate that decides
whether it is entered, what it holds if the gate is open, and a call after it.
The key of a mapping is over before its value begins; the fields of a record are
a segment that holds one segment for each field.  A gate is a call like the
others and is made also when it turns out closed.  A call that fails ends the
walk there and then.
-/
namespace TypeShape

/-- The parts of shapes that a walk enters through a gate. -/
inductive Part where
  | element (kind : SequenceKind)
  | key
  | value
  | fields
  | field (name : String)
deriving DecidableEq

inductive Call where
  | leaf (leaf : Leaf)
  | before (part : Part)
  | gate (part : Part)
  | after (part : Part)
deriving DecidableEq

def Leaf.label : Leaf → String
  | .scalar kind => "visit_simple:" ++ kind.text
  | .enumeration constants =>
      "visit_enum:" ++ String.ofList (writtenStrings constants)
  | .custom type => "visit_custom:" ++ type.signature
  | .unknown type => "visit_unknown:" ++ type.signature

/-- The label of a call: what is called, and on what. -/
def Call.label : Call → String
  | .leaf content => content.label
  | .before (.element kind) => "visit_before_element:" ++ kind.text
  | .gate (.element kind) => "should_visit_element:" ++ kind.text
  | .after (.element kind) => "visit_after_element:" ++ kind.text
  | .before .key => "visit_before_key"
  | .gate .key => "should_visit_key"
  | .after .key => "visit_after_key"
  | .before .value => "visit_before_value"
  | .gate .value => "should_visit_value"
  | .after .value => "visit_after_value"
  | .before .fields => "visit_before_all_fields"
  | .gate .fields => "should_visit_fields"
  | .after .fields => "visit_after_all_fields"
  | .before (.field name) => "visit_before_field:" ++ name
  | .gate (.field name) => "should_visit_field_type:" ++ name
  | .after (.field name) => "visit_after_field:" ++ name

/-- What a walk calls, with a state of its own and errors of its own.  Only the
call for leaves has to be given; the others do nothing and leave every gate
open. -/
structure Visitor (ε σ : Type) where
  leaf : Leaf → EStateM ε σ Unit
  before : Part → EStateM ε σ Unit := fun _ => pure ()
  gate : Part → EStateM ε σ Bool := fun _ => pure true
  after : Part → EStateM ε σ Unit := fun _ => pure ()

/-- One segment of a walk: before, gate, what the part holds if the gate is
open, after. -/
def Visitor.segment {ε σ : Type} (visitor : Visitor ε σ) (part : Part)
    (body : EStateM ε σ Unit) : EStateM ε σ Unit := do
  visitor.before part
  if ← visitor.gate part then body
  visitor.after part

namespace Shape

variable {ε σ : Type}

mutual

def walk (visitor : Visitor ε σ) : Shape → EStateM ε σ Unit
  | leaf content => visitor.leaf content
  | sequence kind element =>
      visitor.segment (.element kind) (element.walk visitor)
  | mapping key value => do
    visitor.segment .key (key.walk visitor)
    visitor.segment .value (value.walk visitor)
  | record fields => visitor.segment .fields (walkFields visitor fields)

def walkFields (visitor : Visitor ε σ) :
    List (String × Shape) → EStateM ε σ Unit
  | [] => pure ()
  | (name, shape) :: rest => do
    visitor.segment (.field name) (shape.walk visitor)
    walkFields visitor rest

end

end Shape

end TypeShape
