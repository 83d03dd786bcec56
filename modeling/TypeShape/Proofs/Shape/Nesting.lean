import TypeShape.Proofs.Shape.GatedWalk

/-!
The nesting of walks.  Whatever the gates answer, each call before a part is
followed by the gate of that part, and there is one call after the part that
belongs to it.  Between them nothing happens if the gate is closed, and
otherwise a walk through what the part holds, from its beginning to its end.
-/
namespace TypeShape

/-! ### Balanced calls -/

/-- How many parts are entered after some calls, if so many are before; none if
a part is left when there is none to leave. -/
def entered? : Nat → List Call → Option Nat
  | count, [] => some count
  | count, .leaf _ :: rest => entered? count rest
  | count, .before _ :: rest => entered? (count + 1) rest
  | count, .gate _ :: rest => entered? count rest
  | 0, .after _ :: _ => none
  | count + 1, .after _ :: rest => entered? count rest

/-- The calls leave every part that they enter, and no other. -/
def Balanced (calls : List Call) : Prop :=
  entered? 0 calls = some 0

instance (calls : List Call) : Decidable (Balanced calls) :=
  inferInstanceAs (Decidable (entered? 0 calls = some 0))

theorem entered?_append (count : Nat) (calls calls' : List Call) :
    entered? count (calls ++ calls') =
      (entered? count calls).bind (entered? · calls') := by
  induction calls generalizing count with
  | nil => rfl
  | cons call rest ih =>
      cases call with
      | leaf | before | gate => simp only [List.cons_append, entered?, ih]
      | after => cases count <;> simp [entered?, ih]

theorem entered?_add {count after : Nat} {calls : List Call}
    (h : entered? count calls = some after) (more : Nat) :
    entered? (count + more) calls = some (after + more) := by
  induction calls generalizing count with
  | nil => simpa [entered?] using h
  | cons call rest ih =>
      cases call with
      | leaf | gate =>
          simp only [entered?] at h ⊢
          exact ih h
      | before =>
          simp only [entered?] at h ⊢
          rw [Nat.add_right_comm]
          exact ih h
      | after =>
          cases count with
          | zero => cases h
          | succ count =>
              simp only [entered?] at h
              rw [Nat.add_right_comm, entered?]
              exact ih h

theorem balanced_nil : Balanced [] := rfl

theorem Balanced.append {calls calls' : List Call} (h : Balanced calls)
    (h' : Balanced calls') : Balanced (calls ++ calls') := by
  rw [Balanced, entered?_append, h]
  exact h'

theorem Balanced.segmentCalls (part : Part) {inside : List Call}
    (h : Balanced inside) : Balanced (segmentCalls part inside) := by
  have hinside : entered? 1 inside = some 1 := entered?_add h 1
  rw [Balanced, TypeShape.segmentCalls, entered?, entered?, entered?_append,
    hinside]
  rfl

/-- What is balanced does not go on to leave a part that it did not enter. -/
theorem Balanced.not_append_after {inside : List Call} (h : Balanced inside)
    (part : Part) (rest : List Call) :
    ¬ Balanced (inside ++ .after part :: rest) := by
  intro hlonger
  rw [Balanced, entered?_append, h] at hlonger
  cases hlonger

/-- The call with which a part is left is found in one way. -/
theorem Balanced.append_after_inj {inside inside' later later' : List Call}
    {part part' : Part} (h : Balanced inside) (h' : Balanced inside')
    (heq : inside ++ .after part :: later = inside' ++ .after part' :: later') :
    inside = inside' := by
  rcases List.append_eq_append_iff.1 heq with
    ⟨rest, rfl, hrest⟩ | ⟨rest, rfl, hrest⟩
  · cases rest with
    | nil => rw [List.append_nil]
    | cons call rest =>
        obtain ⟨rfl, -⟩ := List.cons.inj hrest
        exact absurd h' (h.not_append_after part rest)
  · cases rest with
    | nil => rw [List.append_nil]
    | cons call rest =>
        obtain ⟨rfl, -⟩ := List.cons.inj hrest
        exact absurd h (h'.not_append_after part' rest)

/-! ### What follows an event -/

/-- What a part holds. -/
inductive Held where
  | shape (shape : Shape)
  | fields (fields : List (String × Shape))

def Held.walks : Held → Language Event
  | .shape held => held.walks
  | .fields held => Shape.walksOfFields held

namespace Shape

mutual

/-- The parts of a shape at all depths, each with what it holds. -/
def parts : Shape → List (Part × Held)
  | leaf _ => []
  | sequence kind element => (.element kind, .shape element) :: element.parts
  | mapping key value =>
    (.key, .shape key) :: key.parts ++ (.value, .shape value) :: value.parts
  | record fields => (.fields, .fields fields) :: partsOfFields fields

def partsOfFields : List (String × Shape) → List (Part × Held)
  | [] => []
  | (name, shape) :: rest =>
      (.field name, .shape shape) :: shape.parts ++ partsOfFields rest

end

end Shape

/-- What follows a call in view of the parts of a shape: after the call before a
part its gate, and up to the call after the part nothing if the gate is closed
and a walk through what the part holds if it is open; after a key its value. -/
def GoesOn (parts : List (Part × Held)) : Event → List Event → Prop
  | .before part, rest => ∃ held answer inside later, (part, held) ∈ parts ∧
      rest = .gate part answer :: (inside ++ .after part :: later) ∧
      Balanced (inside.map Event.call) ∧ (answer = false → inside = []) ∧
      (answer = true → inside ∈ held.walks)
  | .after .key, rest => ∃ later, rest = .before .value :: later
  | _, _ => True

/-- Every one of some events is followed as it has to be, with more to come at
the end. -/
def Followed (parts : List (Part × Held)) : List Event → List Event → Prop
  | [], _ => True
  | event :: rest, more =>
      GoesOn parts event (rest ++ more) ∧ Followed parts rest more

section Following

variable {parts : List (Part × Held)} {events events' more : List Event}

theorem Followed.append (h : Followed parts events (events' ++ more))
    (h' : Followed parts events' more) :
    Followed parts (events ++ events') more := by
  induction events with
  | nil => exact h'
  | cons event rest ih =>
      obtain ⟨hevent, hrest⟩ := h
      rw [← List.append_assoc] at hevent
      exact ⟨hevent, ih hrest⟩

theorem Followed.goesOn {past : List Event} {event : Event} {rest : List Event}
    (h : Followed parts (past ++ event :: rest) more) :
    GoesOn parts event (rest ++ more) := by
  induction past with
  | nil => exact h.1
  | cons first past ih => exact ih h.2

/-- The call after a part that is no key may be followed by anything. -/
theorem goesOn_after {part : Part} {rest : List Event}
    (h : part = .key → ∃ later, rest = .before .value :: later) :
    GoesOn parts (.after part) rest := by
  cases part with
  | key => exact h rfl
  | element | value | fields | field => trivial

/-- Some events are balanced and followed as they have to be. -/
structure Nests (parts : List (Part × Held)) (events more : List Event) :
    Prop where
  balanced : Balanced (events.map Event.call)
  followed : Followed parts events more

theorem Nests.append (h : Nests parts events (events' ++ more))
    (h' : Nests parts events' more) : Nests parts (events ++ events') more where
  balanced := by
    rw [List.map_append]
    exact h.balanced.append h'.balanced
  followed := h.followed.append h'.followed

/-- A segment nests if what it holds does. -/
theorem nests_segment {part : Part} (held : Held) (hpart : (part, held) ∈ parts)
    (hheld : ∀ inside ∈ held.walks, ∀ more, Nests parts inside more)
    (hevents : events ∈ segments part held.walks)
    (hmore : part = .key → ∃ later, more = .before .value :: later) :
    Nests parts events more := by
  have hafter : Followed parts [.after part] more :=
    ⟨goesOn_after hmore, trivial⟩
  rcases hevents with rfl | ⟨inside, hinside, rfl⟩
  · refine ⟨balanced_nil.segmentCalls part, ?_, trivial, hafter⟩
    exact ⟨held, false, [], more, hpart, rfl, balanced_nil, fun _ => rfl,
      fun hopen => absurd hopen Bool.false_ne_true⟩
  · have hnests := hheld inside hinside (.after part :: more)
    constructor
    · simpa [openSegment, segmentCalls, Event.call] using
        hnests.balanced.segmentCalls part
    · refine ⟨?_, trivial, Followed.append hnests.followed hafter⟩
      exact ⟨held, true, inside, more, hpart, by simp, hnests.balanced,
        fun hclosed => absurd hclosed.symm Bool.false_ne_true, fun _ => hinside⟩

/-- Each segment of a key is followed by one of its value. -/
theorem exists_before_of_mem_segments {part : Part} {language : Language Event}
    (h : events ∈ segments part language) (more : List Event) :
    ∃ later, events ++ more = .before part :: later := by
  rcases h with rfl | ⟨inside, -, rfl⟩
  · exact ⟨_, rfl⟩
  · exact ⟨_, rfl⟩

/-- A walk through a shape nests, whatever comes after it. -/
theorem nests_of_mem_walks (shape : Shape) (hparts : shape.parts ⊆ parts) :
    ∀ events ∈ shape.walks, ∀ more, Nests parts events more := by
  -- the parts are those of the whole shape, also where the induction is inside
  -- a part
  induction shape with
  | leaf content =>
      rintro _ rfl more
      exact ⟨rfl, trivial, trivial⟩
  | sequence kind element ih =>
      intro events hevents more
      rw [Shape.parts] at hparts
      obtain ⟨hpart, helement⟩ := List.cons_subset.1 hparts
      exact nests_segment (.shape element) hpart (ih helement) hevents nofun
  | mapping key value ihkey ihvalue =>
      intro events hevents more
      simp only [Shape.parts, List.cons_append, List.cons_subset,
        List.append_subset] at hparts
      obtain ⟨hkey, hkeyParts, hvalue, hvalueParts⟩ := hparts
      obtain ⟨xs, hxs, ys, hys, rfl⟩ := Language.mem_mul.1 hevents
      have hnext := exists_before_of_mem_segments hys more
      exact (nests_segment (.shape key) hkey (ihkey hkeyParts) hxs
        fun _ => hnext).append
        (nests_segment (.shape value) hvalue (ihvalue hvalueParts) hys nofun)
  | record fields ih =>
      intro events hevents more
      rw [Shape.parts] at hparts
      obtain ⟨hpart, hfields⟩ := List.cons_subset.1 hparts
      refine nests_segment (.fields fields) hpart ?_ hevents nofun
      clear hpart hparts hevents
      induction fields with
      | nil =>
          rintro _ rfl more
          exact ⟨balanced_nil, trivial⟩
      | cons field rest ihrest =>
          intro inside hinside more
          obtain ⟨hfield, hrest⟩ := List.forall_mem_cons.1 ih
          simp only [Shape.partsOfFields, List.cons_append, List.cons_subset,
            List.append_subset] at hfields
          obtain ⟨hpart, hfieldParts, hrestParts⟩ := hfields
          obtain ⟨xs, hxs, ys, hys, rfl⟩ := Language.mem_mul.1 hinside
          exact (nests_segment (.shape field.2) hpart (hfield hfieldParts) hxs
            nofun).append (ihrest hrest hrestParts ys hys more)

end Following

theorem balanced_of_mem_walks {shape : Shape} {events : List Event}
    (h : events ∈ shape.walks) : Balanced (events.map Event.call) :=
  (nests_of_mem_walks shape (List.Subset.refl _) events h []).balanced

/-! ### Proper nesting -/

/-- Some events are properly nested, as a shape is. -/
structure Shape.ProperlyNested (shape : Shape) (events : List Event) :
    Prop where
  /-- All together they are a walk: the parts of the shape one after another,
  each field of a record once, and inside each part nothing or a walk again. -/
  walk : events ∈ shape.walks
  /-- All parts that are entered are left. -/
  balanced : Balanced (events.map Event.call)
  /-- After the call before a part its gate is asked at once.  If the gate is
  closed, the call after the part comes next; if it is open, the events in
  between are a walk through what the part holds. -/
  before : ∀ past part rest, events = past ++ .before part :: rest →
    ∃ held answer inside later, (part, held) ∈ shape.parts ∧
      rest = .gate part answer :: (inside ++ .after part :: later) ∧
      Balanced (inside.map Event.call) ∧ (answer = false → inside = []) ∧
      (answer = true → inside ∈ held.walks)
  /-- One call after a part belongs to the call before it. -/
  matching : ∀ past part rest, events = past ++ .before part :: rest →
    ∃! inside, Balanced (inside.map Event.call) ∧
      ∃ part' later, rest = inside ++ .after part' :: later
  /-- The value of a mapping is begun directly after its key is over. -/
  key : ∀ past rest, events = past ++ .after .key :: rest →
    ∃ later, rest = .before .value :: later
  leaf : ∀ content, shape = .leaf content → events = [.leaf content]

/-- There is one way to go on from some balanced events to the call after a
part. -/
theorem existsUnique_balanced {inside later : List Event} {part : Part}
    (h : Balanced (inside.map Event.call)) :
    ∃! inside', Balanced (inside'.map Event.call) ∧
      ∃ part' later',
        inside ++ .after part :: later = inside' ++ .after part' :: later' := by
  refine ⟨inside, ⟨h, part, later, rfl⟩, ?_⟩
  rintro inside' ⟨h', part', later', heq⟩
  have hcalls := congrArg (List.map Event.call) heq
  simp only [List.map_append, List.map_cons, Event.call] at hcalls
  have hlength := congrArg List.length (h.append_after_inj h' hcalls)
  rw [List.length_map, List.length_map] at hlength
  exact (List.append_inj_left heq hlength).symm

theorem properlyNested_of_mem_walks {shape : Shape} {events : List Event}
    (h : events ∈ shape.walks) : shape.ProperlyNested events := by
  have hnests := nests_of_mem_walks shape (List.Subset.refl _) events h []
  have hgoesOn : ∀ past event rest, events = past ++ event :: rest →
      GoesOn shape.parts event rest := by
    rintro past event rest rfl
    have hfollowed := hnests.followed.goesOn
    rwa [List.append_nil] at hfollowed
  refine ⟨h, hnests.balanced, fun past part rest => hgoesOn past _ rest, ?_,
    fun past => hgoesOn past _, ?_⟩
  · intro past part rest hevents
    obtain ⟨held, answer, inside, later, -, rfl, hbalanced, -⟩ :=
      hgoesOn past _ rest hevents
    exact @existsUnique_balanced (.gate part answer :: inside) later part
      hbalanced
  · rintro content rfl
    exact h

namespace Shape

variable {ε σ : Type} {visitor : Visitor ε σ} {states : σ → Prop}

/-- Whatever its gates answer, a visitor that does not fail is led through a
shape to the end, and the calls made to it are properly nested. -/
theorem walk_properlyNested (h : visitor.Unfailing states) {state : σ}
    (hstate : states state) (shape : Shape) :
    ∃ next, states next ∧
      shape.walk visitor state = .ok () next ∧
      shape.callsOn visitor state =
        (shape.eventsOn visitor state).map Event.call ∧
      shape.ProperlyNested (shape.eventsOn visitor state) := by
  obtain ⟨next, hnext, hwalk, hcalls, hevents, -⟩ := exists_walk h hstate shape
  exact ⟨next, hnext, hwalk, hcalls, properlyNested_of_mem_walks hevents⟩

/-- A recorder that closes the gate of a key and that of a field, which are open
at other times, gets properly nested calls. -/
theorem walk_properlyNested_tagged :
    ({} : Recorder).visitor.Unfailing (fun _ => True) ∧
    tagged.eventsOn ({} : Recorder).visitor
      { script := [true, true, false, true, false, false] } =
      [.before .fields, .gate .fields true, .before (.field "key"),
       .gate (.field "key") true, .before .key, .gate .key false, .after .key,
       .before .value, .gate .value true, .before (.element .array),
       .gate (.element .array) false, .after (.element .array), .after .value,
       .after (.field "key"), .before (.field "none"),
       .gate (.field "none") false, .after (.field "none"), .after .fields] ∧
    tagged.ProperlyNested (tagged.eventsOn ({} : Recorder).visitor
      { script := [true, true, false, true, false, false] }) := by
  have hunfailing := Recorder.unfailing []
  obtain ⟨-, -, -, -, hnested⟩ := walk_properlyNested hunfailing trivial tagged
  exact ⟨hunfailing, by decide +kernel, hnested⟩

end Shape

end TypeShape
