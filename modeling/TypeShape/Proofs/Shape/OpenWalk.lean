import Mathlib.Data.List.Basic
import TypeShape.Proofs.Shape.Leaves
import TypeShape.Proofs.TypeExpr.UniqueReading
import TypeShape.Shape.Recorder

/-!
Walks with all gates open.  Such a walk makes the same calls to every visitor
that does not fail, and a call after a part tells where the part ends.  So the
calls tell the shape, and they tell it without a look at what follows.
-/
namespace TypeShape

/-! ### Noting calls -/

section Noting

variable {ε σ α β : Type}

/-- Does something for a call and notes the call, whether that fails or not. -/
def noted (call : Call) (act : EStateM ε σ α) : EStateM ε (σ × List Call) α :=
  fun (state, calls) =>
    match act state with
    | .ok a next => .ok a (next, calls ++ [call])
    | .error fault next => .error fault (next, calls ++ [call])

/-- The same visitor with a list of the calls made to it. -/
def Visitor.noting (visitor : Visitor ε σ) : Visitor ε (σ × List Call) where
  leaf content := noted (.leaf content) (visitor.leaf content)
  before part := noted (.before part) (visitor.before part)
  gate part := noted (.gate part) (visitor.gate part)
  after part := noted (.after part) (visitor.after part)

/-- The calls that a walk makes to a visitor in some state. -/
def Shape.callsOn (shape : Shape) (visitor : Visitor ε σ) (state : σ) :
    List Call :=
  match shape.walk visitor.noting (state, []) with
  | .ok _ (_, calls) => calls
  | .error _ (_, calls) => calls

/-- In some states a visitor fails at no call and opens every gate, and it stays
in such states. -/
structure Visitor.AllOpen (visitor : Visitor ε σ) (states : σ → Prop) :
    Prop where
  leaf : ∀ content state, states state →
    ∃ next, states next ∧ visitor.leaf content state = .ok () next
  before : ∀ part state, states state →
    ∃ next, states next ∧ visitor.before part state = .ok () next
  gate : ∀ part state, states state →
    ∃ next, states next ∧ visitor.gate part state = .ok true next
  after : ∀ part state, states state →
    ∃ next, states next ∧ visitor.after part state = .ok () next

/-- In some states an action notes these calls, has this value and ends in such
a state. -/
def Makes (states : σ → Prop) (calls : List Call) (a : α)
    (act : EStateM ε (σ × List Call) α) : Prop :=
  ∀ state before, states state →
    ∃ next, states next ∧ act (state, before) = .ok a (next, before ++ calls)

variable {states : σ → Prop} {calls calls' : List Call} {a : α} {b : β}

theorem Makes.pure :
    Makes states [] a (Pure.pure a : EStateM ε (σ × List Call) α) :=
  fun state before hstate => ⟨state, hstate, by rw [List.append_nil]; rfl⟩

theorem Makes.bind {act : EStateM ε (σ × List Call) α}
    {next : α → EStateM ε (σ × List Call) β} (h : Makes states calls a act)
    (hnext : Makes states calls' b (next a)) :
    Makes states (calls ++ calls') b (act >>= next) := by
  intro state before hstate
  obtain ⟨middle, hmiddle, hact⟩ := h state before hstate
  obtain ⟨last, hlast, hrest⟩ := hnext middle (before ++ calls) hmiddle
  refine ⟨last, hlast, ?_⟩
  rw [← List.append_assoc, ← hrest]
  simp only [Bind.bind, EStateM.bind, hact]

theorem makes_noted {act : EStateM ε σ α} (call : Call)
    (h : ∀ state, states state → ∃ next, states next ∧ act state = .ok a next) :
    Makes states [call] a (noted call act) := by
  intro state before hstate
  obtain ⟨next, hnext, hact⟩ := h state hstate
  exact ⟨next, hnext, by rw [noted, hact]⟩

end Noting

/-! ### The calls of an open walk -/

def segmentCalls (part : Part) (inside : List Call) : List Call :=
  .before part :: .gate part :: (inside ++ [.after part])

namespace Shape

mutual

/-- The calls of a walk through a shape with all gates open. -/
def calls : Shape → List Call
  | leaf content => [.leaf content]
  | sequence kind element => segmentCalls (.element kind) element.calls
  | mapping key value =>
      segmentCalls .key key.calls ++ segmentCalls .value value.calls
  | record fields => segmentCalls .fields (callsOfFields fields)

def callsOfFields : List (String × Shape) → List Call
  | [] => []
  | (name, shape) :: rest =>
      segmentCalls (.field name) shape.calls ++ callsOfFields rest

end

end Shape

section Open

variable {ε σ : Type} {visitor : Visitor ε σ} {states : σ → Prop}

theorem Makes.callsOn_eq {shape : Shape} {calls : List Call}
    (h : Makes states calls () (shape.walk visitor.noting)) {state : σ}
    (hstate : states state) : shape.callsOn visitor state = calls := by
  obtain ⟨next, -, hwalk⟩ := h state [] hstate
  rw [Shape.callsOn, hwalk]
  rfl

variable (hopen : visitor.AllOpen states)

include hopen

theorem makes_segment (part : Part) {inside : List Call}
    {body : EStateM ε (σ × List Call) Unit}
    (hbody : Makes states inside () body) :
    Makes states (segmentCalls part inside) ()
      (visitor.noting.segment part body) := by
  have hbefore := makes_noted (.before part) (hopen.before part)
  have hgate := makes_noted (.gate part) (hopen.gate part)
  have hafter := makes_noted (.after part) (hopen.after part)
  exact hbefore.bind (hgate.bind (hbody.bind hafter))

/-- An open walk makes the calls of the shape. -/
theorem makes_walk (shape : Shape) :
    Makes states shape.calls () (shape.walk visitor.noting) := by
  induction shape with
  | leaf content =>
      rw [Shape.walk, Shape.calls]
      exact makes_noted (.leaf content) (hopen.leaf content)
  | sequence kind element ih =>
      rw [Shape.walk, Shape.calls]
      exact makes_segment hopen (.element kind) ih
  | mapping key value ihkey ihvalue =>
      rw [Shape.walk, Shape.calls]
      exact (makes_segment hopen .key ihkey).bind
        (makes_segment hopen .value ihvalue)
  | record fields ih =>
      rw [Shape.walk, Shape.calls]
      apply makes_segment hopen .fields
      induction fields with
      | nil =>
          rw [Shape.walkFields, Shape.callsOfFields]
          exact Makes.pure
      | cons field rest ihrest =>
          obtain ⟨hfield, hrest⟩ := List.forall_mem_cons.1 ih
          rw [Shape.walkFields, Shape.callsOfFields]
          exact (makes_segment hopen (.field field.1) hfield).bind
            (ihrest hrest)

/-- Every visitor that opens all gates gets the same calls. -/
theorem callsOn_eq_calls {state : σ} (hstate : states state) (shape : Shape) :
    shape.callsOn visitor state = shape.calls :=
  (makes_walk hopen shape).callsOn_eq hstate

end Open

/-! ### Reading a shape off its calls -/

@[simp] theorem segmentCalls_append (part : Part) (inside tail : List Call) :
    segmentCalls part inside ++ tail =
      .before part :: .gate part :: (inside ++ .after part :: tail) := by
  simp [segmentCalls]

namespace Shape

/-- The shape and what follows it can be told from the calls. -/
def ReadsOffCalls (shape : Shape) : Prop :=
  ∀ shape' tail tail',
    shape.calls ++ tail = shape'.calls ++ tail' → shape = shape' ∧ tail = tail'

/-- Each field of a record begins with a call that is not the one after all
fields. -/
theorem callsOfFields_append_inj {fields fields' : List (String × Shape)}
    {tail tail' : List Call} (hreads : ∀ field ∈ fields, field.2.ReadsOffCalls)
    (h : callsOfFields fields ++ .after .fields :: tail =
      callsOfFields fields' ++ .after .fields :: tail') :
    fields = fields' ∧ tail = tail' := by
  induction fields generalizing fields' with
  | nil =>
      cases fields' with
      | nil => exact ⟨rfl, (List.cons.inj h).2⟩
      | cons field' rest' => simp [callsOfFields] at h
  | cons field rest ih =>
      obtain ⟨name, shape⟩ := field
      obtain ⟨hshape, hrest⟩ := List.forall_mem_cons.1 hreads
      cases fields' with
      | nil => simp [callsOfFields] at h
      | cons field' rest' =>
          obtain ⟨name', shape'⟩ := field'
          simp only [callsOfFields, segmentCalls_append, List.cons_append,
            List.append_assoc, List.cons.injEq, Call.before.injEq,
            Part.field.injEq] at h
          obtain ⟨rfl, -, hinside⟩ := h
          obtain ⟨rfl, hafter⟩ := hshape shape' _ _ hinside
          obtain ⟨rfl, htail⟩ := ih hrest (List.cons.inj hafter).2
          exact ⟨rfl, htail⟩

/-- Every shape can be told from its calls, whatever follows them. -/
theorem readsOffCalls (shape : Shape) : shape.ReadsOffCalls := by
  induction shape with
  | leaf content =>
      intro shape' tail tail' h
      cases shape' <;> simp_all [calls]
  | sequence kind element ih =>
      intro shape' tail tail' h
      cases shape' with
      | sequence kind' element' =>
          simp only [calls, segmentCalls_append, List.cons.injEq,
            Call.before.injEq, Part.element.injEq] at h
          obtain ⟨rfl, -, hinside⟩ := h
          obtain ⟨rfl, hafter⟩ := ih element' _ _ hinside
          exact ⟨rfl, (List.cons.inj hafter).2⟩
      | leaf | mapping | record => simp [calls] at h
  | mapping key value ihkey ihvalue =>
      intro shape' tail tail' h
      cases shape' with
      | mapping key' value' =>
          simp only [calls, segmentCalls_append, List.cons_append,
            List.append_assoc, List.cons.injEq, true_and] at h
          obtain ⟨rfl, hafterKey⟩ := ihkey key' _ _ h
          simp only [List.cons.injEq, true_and] at hafterKey
          obtain ⟨rfl, hafter⟩ := ihvalue value' _ _ hafterKey
          exact ⟨rfl, (List.cons.inj hafter).2⟩
      | leaf | sequence | record => simp [calls] at h
  | record fields ih =>
      intro shape' tail tail' h
      cases shape' with
      | record fields' =>
          simp only [calls, segmentCalls_append, List.cons.injEq, true_and] at h
          obtain ⟨rfl, htail⟩ := callsOfFields_append_inj ih h
          exact ⟨rfl, htail⟩
      | leaf | sequence | mapping => simp [calls] at h

end Shape

/-- What a call tells of a shape: its kind, the constants of an enumeration, the
signature of an expression, the kind of a sequence, the name of a field. -/
inductive Told where
  | scalar (kind : Scalar)
  | enumeration (constants : List String)
  | custom (signature : String)
  | unknown (signature : String)
  | before (part : Part)
  | gate (part : Part)
  | after (part : Part)
deriving DecidableEq

def Call.told : Call → Told
  | leaf (.scalar kind) => .scalar kind
  | leaf (.enumeration constants) => .enumeration constants
  | leaf (.custom type) => .custom type.signature
  | leaf (.unknown type) => .unknown type.signature
  | before part => .before part
  | gate part => .gate part
  | after part => .after part

/-- Signatures tell expressions, so nothing is lost. -/
theorem Call.told_injective : Function.Injective Call.told := by
  have hsignature := @TypeExpr.signature_injective
  intro call call' h
  rcases call with (_ | _ | _ | _) | _ | _ | _ <;>
    rcases call' with (_ | _ | _ | _) | _ | _ | _ <;>
      simp_all [Call.told, hsignature.eq_iff]

namespace Shape

variable {ε ε' σ σ' : Type} {visitor : Visitor ε σ} {visitor' : Visitor ε' σ'}
  {states : σ → Prop} {states' : σ' → Prop}

/-- Of two walks through open gates, the calls of one begin with those of the
other only if both go through the same shape, with the fields of all records in
the same order. -/
theorem eq_of_calls_isPrefix (hopen : visitor.AllOpen states)
    (hopen' : visitor'.AllOpen states') {state : σ} {state' : σ'}
    (hstate : states state) (hstate' : states' state') {a b : Shape}
    (h : (a.callsOn visitor state).map Call.told <+:
      (b.callsOn visitor' state').map Call.told) :
    a.callsOn visitor state = b.callsOn visitor' state' ∧ a = b := by
  rw [callsOn_eq_calls hopen hstate, callsOn_eq_calls hopen' hstate'] at h ⊢
  obtain ⟨rest, hrest⟩ := h
  obtain ⟨calls, tail, hcalls, hsame, -⟩ := List.map_eq_append_iff.1 hrest.symm
  obtain rfl := List.map_injective_iff.2 Call.told_injective hsame
  rw [← List.append_nil b.calls] at hcalls
  obtain ⟨rfl, -⟩ := b.readsOffCalls a _ _ hcalls
  exact ⟨rfl, rfl⟩

end Shape

/-- A recorder that does not fail opens all gates if its script says nothing
else. -/
theorem Recorder.allOpen :
    ({} : Recorder).visitor.AllOpen
      (fun recording => ∀ answer ∈ recording.script, answer = true) := by
  have hnote : ∀ (call : Call) (recording : Recording),
      (∀ answer ∈ recording.script, answer = true) →
        ∃ next, (∀ answer ∈ next.script, answer = true) ∧
          ({} : Recorder).note call recording = .ok () next :=
    fun call recording hscript =>
      ⟨{ recording with calls := recording.calls.push call }, hscript, rfl⟩
  refine ⟨fun _ => hnote _, fun _ => hnote _, ?_, fun _ => hnote _⟩
  rintro part ⟨calls, script⟩ hscript
  cases script with
  | nil => exact ⟨⟨calls.push (.gate part), []⟩, hscript, rfl⟩
  | cons answer script =>
      obtain ⟨rfl, hrest⟩ := List.forall_mem_cons.1 hscript
      exact ⟨⟨calls.push (.gate part), script⟩, hrest, rfl⟩

def Visitor.silent : Visitor Empty Unit where
  leaf _ := pure ()

theorem Visitor.allOpen_silent : Visitor.silent.AllOpen fun _ => True :=
  ⟨fun _ _ _ => ⟨(), trivial, rfl⟩, fun _ _ _ => ⟨(), trivial, rfl⟩,
    fun _ _ _ => ⟨(), trivial, rfl⟩, fun _ _ _ => ⟨(), trivial, rfl⟩⟩

/-- A record with a field of the name of a mapping's part. -/
def Shape.tagged : Shape :=
  .record [("key", .mapping (.leaf (.scalar .string))
    (.sequence .array (.leaf (.custom ⟨⟨"Tag", by decide⟩, [], 0⟩)))),
    ("none", .record [])]

/-- A recorder with a script and a visitor that does nothing get the same
calls. -/
theorem Shape.eq_of_calls_isPrefix_tagged :
    ({} : Recorder).visitor.AllOpen
      (fun recording => ∀ answer ∈ recording.script, answer = true) ∧
    Visitor.silent.AllOpen (fun _ => True) ∧
    (∀ answer ∈ ({ script := [true, true] } : Recording).script,
      answer = true) ∧
    (tagged.callsOn ({} : Recorder).visitor { script := [true, true] }).map
      Call.told <+: (tagged.callsOn Visitor.silent ()).map Call.told ∧
    tagged.callsOn ({} : Recorder).visitor { script := [true, true] } =
      tagged.callsOn Visitor.silent () := by
  have hscript : ∀ answer ∈ ({ script := [true, true] } : Recording).script,
      answer = true := by
    decide
  have hprefix :
      (tagged.callsOn ({} : Recorder).visitor { script := [true, true] }).map
        Call.told <+: (tagged.callsOn Visitor.silent ()).map Call.told := by
    decide +kernel
  have hsame := eq_of_calls_isPrefix Recorder.allOpen Visitor.allOpen_silent
    hscript trivial hprefix
  exact ⟨Recorder.allOpen, Visitor.allOpen_silent, hscript, hprefix, hsame.1⟩

end TypeShape
