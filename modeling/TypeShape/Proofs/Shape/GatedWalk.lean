import Mathlib.Computability.Language
import TypeShape.Proofs.Shape.OpenWalk

/-!
Walks through gates that answer as they like.  The same gate may be open one
time and closed another, so a shape has many walks; they are a language of calls
and answers.  A visitor that does not fail is led on one of them, and there is
none on which no visitor is led.
-/
namespace TypeShape

/-- A call that did not fail, and the answer to it if it was for a gate. -/
inductive Event where
  | leaf (leaf : Leaf)
  | before (part : Part)
  | gate (part : Part) (answer : Bool)
  | after (part : Part)
deriving DecidableEq

def Event.call : Event → Call
  | leaf content => .leaf content
  | before part => .before part
  | gate part _ => .gate part
  | after part => .after part

/-! ### Visitors that do not fail -/

section Answering

variable {ε σ α : Type}

/-- In some states a visitor fails at no call and its gates answer as is
allowed, and it stays in such states. -/
structure Visitor.Answers (visitor : Visitor ε σ) (allowed : Part → Bool → Prop)
    (states : σ → Prop) : Prop where
  leaf : ∀ content state, states state →
    ∃ next, states next ∧ visitor.leaf content state = .ok () next
  before : ∀ part state, states state →
    ∃ next, states next ∧ visitor.before part state = .ok () next
  gate : ∀ part state, states state → ∃ answer next, allowed part answer ∧
    states next ∧
    visitor.gate part state = .ok answer next
  after : ∀ part state, states state →
    ∃ next, states next ∧ visitor.after part state = .ok () next

/-- In some states a visitor fails at no call, whatever its gates answer. -/
def Visitor.Unfailing (visitor : Visitor ε σ) (states : σ → Prop) : Prop :=
  visitor.Answers (fun _ _ => True) states

variable {visitor : Visitor ε σ} {allowed : Part → Bool → Prop}
  {states : σ → Prop}

/-- Does something for a call and notes the event. -/
def traced (event : α → Event) (act : EStateM ε σ α) :
    EStateM ε (σ × List Event) α :=
  fun (state, events) =>
    match act state with
    | .ok a next => .ok a (next, events ++ [event a])
    | .error fault next => .error fault (next, events)

/-- The same visitor with a list of the calls made to it and of its answers. -/
def Visitor.tracing (visitor : Visitor ε σ) : Visitor ε (σ × List Event) where
  leaf content := traced (fun _ => .leaf content) (visitor.leaf content)
  before part := traced (fun _ => .before part) (visitor.before part)
  gate part := traced (.gate part) (visitor.gate part)
  after part := traced (fun _ => .after part) (visitor.after part)

/-- The events of the walk on which a visitor is led in some state. -/
def Shape.eventsOn (shape : Shape) (visitor : Visitor ε σ) (state : σ) :
    List Event :=
  match shape.walk visitor.tracing (state, []) with
  | .ok _ (_, events) => events
  | .error _ (_, events) => events

end Answering

/-! ### The language of walks -/

/-- The events of a part whose gate is closed. -/
def closedSegment (part : Part) : List Event :=
  [.before part, .gate part false, .after part]

/-- The events of a part whose gate is open, with what happens inside. -/
def openSegment (part : Part) (inside : List Event) : List Event :=
  .before part :: .gate part true :: (inside ++ [.after part])

/-- The segments of a part, given the walks of what it holds. -/
def segments (part : Part) (held : Language Event) : Language Event :=
  {events | events = closedSegment part ∨
    ∃ inside ∈ held, events = openSegment part inside}

namespace Shape

mutual

/-- The walks through a shape: every part in order, and inside a part that is
open a walk through what it holds. -/
def walks : Shape → Language Event
  | leaf content => {[.leaf content]}
  | sequence kind element => segments (.element kind) element.walks
  | mapping key value => segments .key key.walks * segments .value value.walks
  | record fields => segments .fields (walksOfFields fields)

/-- The walks through the fields of a record: one segment for each, in order. -/
def walksOfFields : List (String × Shape) → Language Event
  | [] => 1
  | (name, shape) :: rest =>
      segments (.field name) shape.walks * walksOfFields rest

end

end Shape

/-- What holds of the calls for leaves, and of segments and sequences of what it
holds of, holds of the walks of two visitors through a shape. -/
theorem Shape.walk_rule {ε ε' σ σ' : Type} (visitor : Visitor ε σ)
    (visitor' : Visitor ε' σ')
    (Holds : Language Event → EStateM ε σ Unit → EStateM ε' σ' Unit → Prop)
    (leaf : ∀ content,
      Holds {[.leaf content]} (visitor.leaf content) (visitor'.leaf content))
    (nothing : Holds 1 (pure ()) (pure ()))
    (sequence : ∀ {language language' first second first' second'},
      Holds language first first' → Holds language' second second' →
      Holds (language * language') (first >>= fun _ => second)
        (first' >>= fun _ => second'))
    (segment : ∀ part {language body body'},
      Holds language body body' → Holds (segments part language)
        (visitor.segment part body) (visitor'.segment part body'))
    (shape : Shape) :
    Holds shape.walks (shape.walk visitor) (shape.walk visitor') := by
  induction shape with
  | leaf content =>
      rw [walk, walk, walks]
      exact leaf content
  | sequence kind element ih =>
      rw [walk, walk, walks]
      exact segment (.element kind) ih
  | mapping key value ihkey ihvalue =>
      rw [walk, walk, walks]
      exact sequence (segment .key ihkey) (segment .value ihvalue)
  | record fields ih =>
      rw [walk, walk, walks]
      apply segment .fields
      induction fields with
      | nil =>
          rw [walkFields, walkFields, walksOfFields]
          exact nothing
      | cons field rest ihrest =>
          obtain ⟨hfield, hrest⟩ := List.forall_mem_cons.1 ih
          rw [walkFields, walkFields, walksOfFields]
          exact sequence (segment (.field field.1) hfield) (ihrest hrest)

/-- What holds of the calls for leaves, and of segments and sequences of what it
holds of, holds of the calls of the open walk and of the walk of a visitor. -/
theorem Shape.calls_rule {ε σ : Type} (visitor : Visitor ε σ)
    (Holds : List Call → Language Event → EStateM ε σ Unit → Prop)
    (leaf : ∀ content,
      Holds [.leaf content] {[.leaf content]} (visitor.leaf content))
    (nothing : Holds [] 1 (pure ()))
    (sequence : ∀ {calls calls' language language' first second},
      Holds calls language first → Holds calls' language' second → Holds
        (calls ++ calls') (language * language') (first >>= fun _ => second))
    (segment : ∀ part {inside language body},
      Holds inside language body → Holds (segmentCalls part inside)
        (segments part language) (visitor.segment part body))
    (shape : Shape) : Holds shape.calls shape.walks (shape.walk visitor) := by
  have hopen := Visitor.allOpen_silent
  have hwalk : ∃ calls,
      Makes (fun _ => True) calls () (shape.walk Visitor.silent.noting) ∧
      Holds calls shape.walks (shape.walk visitor) := by
    refine walk_rule Visitor.silent.noting visitor
      (fun language act act' => ∃ calls,
        Makes (fun _ => True) calls () act ∧ Holds calls language act')
      ?_ ?_ ?_ ?_ shape
    · exact fun content =>
        ⟨_, makes_noted (.leaf content) (hopen.leaf content), leaf content⟩
    · exact ⟨[], Makes.pure, nothing⟩
    · rintro _ _ _ _ _ _ ⟨calls, hmakes, hholds⟩ ⟨calls', hmakes', hholds'⟩
      exact ⟨calls ++ calls', hmakes.bind hmakes', sequence hholds hholds'⟩
    · rintro part _ _ _ ⟨inside, hmakes, hholds⟩
      exact ⟨segmentCalls part inside, makes_segment hopen part hmakes,
        segment part hholds⟩
  obtain ⟨calls, hmakes, hholds⟩ := hwalk
  have hcalls : shape.callsOn Visitor.silent () = calls :=
    hmakes.callsOn_eq trivial
  rw [callsOn_eq_calls hopen trivial] at hcalls
  rw [hcalls]
  exact hholds

/-! ### Segments -/

section Segment

variable {ε σ : Type} {visitor : Visitor ε σ} {part : Part}
  {body : EStateM ε σ Unit} {state state₁ state₂ state₃ next : σ}

theorem bind_apply_of_ok {α β : Type} {act : EStateM ε σ α} {a : α}
    (h : act state = .ok a next) (rest : α → EStateM ε σ β) :
    (act >>= rest) state = rest a next := by
  simp only [bind, EStateM.bind, h]

theorem bind_apply_of_error {α β : Type} {act : EStateM ε σ α} {fault : ε}
    (h : act state = .error fault next) (rest : α → EStateM ε σ β) :
    (act >>= rest) state = .error fault next := by
  simp only [bind, EStateM.bind, h]

theorem Visitor.segment_of_closed
    (hbefore : visitor.before part state = .ok () state₁)
    (hgate : visitor.gate part state₁ = .ok false state₂)
    (hafter : visitor.after part state₂ = .ok () next) :
    visitor.segment part body state = .ok () next := by
  rw [← hafter]
  exact (bind_apply_of_ok hbefore _).trans (bind_apply_of_ok hgate _)

theorem Visitor.segment_of_open
    (hbefore : visitor.before part state = .ok () state₁)
    (hgate : visitor.gate part state₁ = .ok true state₂)
    (hbody : body state₂ = .ok () state₃)
    (hafter : visitor.after part state₃ = .ok () next) :
    visitor.segment part body state = .ok () next := by
  rw [← hafter]
  exact ((bind_apply_of_ok hbefore _).trans (bind_apply_of_ok hgate _)).trans
    (bind_apply_of_ok hbody _)

end Segment

/-! ### Notes -/

section Notes

variable {ε σ ν α β : Type}

def withNotes (notes : ν) : EStateM.Result ε σ α → EStateM.Result ε (σ × ν) α
  | .ok a next => .ok a (next, notes)
  | .error fault next => .error fault (next, notes)

/-- Two actions have the same results, but the second takes notes. -/
def SameButNotes (act : EStateM ε σ α) (act' : EStateM ε (σ × ν) α) : Prop :=
  ∀ state notes, ∃ notes', act' (state, notes) = withNotes notes' (act state)

theorem SameButNotes.bind {act : EStateM ε σ α} {act' : EStateM ε (σ × ν) α}
    {next : α → EStateM ε σ β} {next' : α → EStateM ε (σ × ν) β}
    (h : SameButNotes act act') (hnext : ∀ a, SameButNotes (next a) (next' a)) :
    SameButNotes (act >>= next) (act' >>= next') := by
  intro state notes
  obtain ⟨notes', hact⟩ := h state notes
  cases hresult : act state with
  | ok a middle =>
      rw [hresult] at hact
      rw [bind_apply_of_ok hresult, bind_apply_of_ok hact]
      exact hnext a middle notes'
  | error fault middle =>
      rw [hresult] at hact
      rw [bind_apply_of_error hresult]
      exact ⟨notes', bind_apply_of_error hact next'⟩

theorem withNotes_inj {notes notes' : ν} {result result' : EStateM.Result ε σ α}
    (h : withNotes notes result = withNotes notes' result') :
    result = result' := by
  cases result <;> cases result' <;> simp_all [withNotes]

theorem SameButNotes.eq_of_withNotes {act : EStateM ε σ α}
    {act' : EStateM ε (σ × ν) α} {state : σ} {notes notes' : ν}
    {result : EStateM.Result ε σ α} (h : SameButNotes act act')
    (hact : act' (state, notes) = withNotes notes' result) :
    act state = result := by
  obtain ⟨last, hlast⟩ := h state notes
  exact withNotes_inj (hlast.symm.trans hact)

theorem sameButNotes_walk {visitor : Visitor ε σ} {visitor' : Visitor ε (σ × ν)}
    (leaf : ∀ content,
      SameButNotes (visitor.leaf content) (visitor'.leaf content))
    (before : ∀ part, SameButNotes (visitor.before part) (visitor'.before part))
    (gate : ∀ part, SameButNotes (visitor.gate part) (visitor'.gate part))
    (after : ∀ part, SameButNotes (visitor.after part) (visitor'.after part))
    (shape : Shape) :
    SameButNotes (shape.walk visitor) (shape.walk visitor') := by
  refine Shape.walk_rule visitor visitor'
    (fun _ act act' => SameButNotes act act') leaf ?_ ?_ ?_ shape
  · exact fun state notes => ⟨notes, rfl⟩
  · exact fun hfirst hsecond => hfirst.bind fun _ => hsecond
  · intro part _ body body' hbody
    apply (before part).bind fun _ => (gate part).bind fun answer => ?_
    cases answer with
    | false => exact after part
    | true => exact hbody.bind fun _ => after part

theorem sameButNotes_noted (call : Call) (act : EStateM ε σ α) :
    SameButNotes act (noted call act) := by
  intro state calls
  refine ⟨calls ++ [call], ?_⟩
  rw [noted]
  cases act state <;> rfl

/-- Taking notes of calls changes nothing else in a walk. -/
theorem sameButNotes_noting (visitor : Visitor ε σ) (shape : Shape) :
    SameButNotes (shape.walk visitor) (shape.walk visitor.noting) :=
  sameButNotes_walk (fun _ => sameButNotes_noted _ _)
    (fun _ => sameButNotes_noted _ _) (fun _ => sameButNotes_noted _ _)
    (fun _ => sameButNotes_noted _ _) shape

end Notes

/-! ### A visitor that does not fail is led on a walk -/

/-- If the event is the answer of a gate, it is allowed. -/
def Event.IsAllowed (allowed : Part → Bool → Prop) : Event → Prop
  | gate part answer => allowed part answer
  | _ => True

section Leading

variable {ε σ : Type} {allowed : Part → Bool → Prop} {states : σ → Prop}

/-- An action and the same action with other notes: the one traces events of a
language, the other notes their calls. -/
def Leads (allowed : Part → Bool → Prop) (states : σ → Prop)
    (language : Language Event) (act : EStateM ε (σ × List Event) Unit)
    (act' : EStateM ε (σ × List Call) Unit) : Prop :=
  ∀ state, states state → ∃ next, ∃ events ∈ language, states next ∧
    (∀ event ∈ events, event.IsAllowed allowed) ∧
    (∀ past, act (state, past) = .ok () (next, past ++ events)) ∧
    ∀ past, act' (state, past) = .ok () (next, past ++ events.map Event.call)

theorem traced_of_ok {α : Type} {act : EStateM ε σ α} {state next : σ} {a : α}
    (h : act state = .ok a next) (event : α → Event) (past : List Event) :
    traced event act (state, past) = .ok a (next, past ++ [event a]) := by
  rw [traced, h]

theorem noted_of_ok {α : Type} {act : EStateM ε σ α} {state next : σ} {a : α}
    (h : act state = .ok a next) (call : Call) (past : List Call) :
    noted call act (state, past) = .ok a (next, past ++ [call]) := by
  rw [noted, h]

theorem Leads.sequence {language language' : Language Event}
    {first second : EStateM ε (σ × List Event) Unit}
    {first' second' : EStateM ε (σ × List Call) Unit}
    (hfirst : Leads allowed states language first first')
    (hsecond : Leads allowed states language' second second') :
    Leads allowed states (language * language') (first >>= fun _ => second)
      (first' >>= fun _ => second') := by
  intro state hstate
  obtain ⟨middle, events, hevents, hmiddle, hallowed, htraced, hnoted⟩ :=
    hfirst state hstate
  obtain ⟨next, events', hevents', hnext, hallowed', htraced', hnoted'⟩ :=
    hsecond middle hmiddle
  refine ⟨next, events ++ events', Language.append_mem_mul hevents hevents',
    hnext, List.forall_mem_append.2 ⟨hallowed, hallowed'⟩, ?_, ?_⟩
  · intro past
    rw [bind_apply_of_ok (htraced past), htraced', List.append_assoc]
  · intro past
    rw [bind_apply_of_ok (hnoted past), hnoted', List.map_append,
      List.append_assoc]

theorem Leads.nothing :
    Leads (ε := ε) allowed states 1 (pure ()) (pure ()) := by
  intro state hstate
  refine ⟨state, [], Language.nil_mem_one, hstate, nofun, fun past => ?_,
    fun past => ?_⟩
  · rw [List.append_nil]
    rfl
  · rw [List.map_nil, List.append_nil]
    rfl

variable {visitor : Visitor ε σ} (h : visitor.Answers allowed states)

include h

theorem leads_leaf (content : Leaf) :
    Leads allowed states {[.leaf content]} (visitor.tracing.leaf content)
      (visitor.noting.leaf content) := by
  intro state hstate
  obtain ⟨next, hnext, hleaf⟩ := h.leaf content state hstate
  exact ⟨next, [.leaf content], rfl, hnext, by simp [Event.IsAllowed],
    traced_of_ok hleaf _, noted_of_ok hleaf _⟩

/-- A segment is led through as its gate answers. -/
theorem leads_segment (part : Part) {held : Language Event}
    {body : EStateM ε (σ × List Event) Unit}
    {body' : EStateM ε (σ × List Call) Unit}
    (hbody : Leads allowed states held body body') :
    Leads allowed states (segments part held)
      (visitor.tracing.segment part body)
      (visitor.noting.segment part body') := by
  intro state hstate
  obtain ⟨state₁, hstate₁, hbefore⟩ := h.before part state hstate
  obtain ⟨answer, state₂, hanswer, hstate₂, hgate⟩ := h.gate part state₁ hstate₁
  cases answer with
  | false =>
      obtain ⟨next, hnext, hafter⟩ := h.after part state₂ hstate₂
      refine ⟨next, closedSegment part, Or.inl rfl, hnext, ?_, fun past => ?_,
        fun past => ?_⟩
      · simpa [closedSegment, Event.IsAllowed] using hanswer
      · rw [closedSegment, List.append_cons, List.append_cons]
        exact Visitor.segment_of_closed (traced_of_ok hbefore _ past)
          (traced_of_ok hgate _ _) (traced_of_ok hafter _ _)
      · rw [closedSegment, List.map_cons, List.map_cons, List.append_cons,
          List.append_cons]
        exact Visitor.segment_of_closed (noted_of_ok hbefore _ past)
          (noted_of_ok hgate _ _) (noted_of_ok hafter _ _)
  | true =>
      obtain ⟨state₃, inside, hinside, hstate₃, hallowed, htraced, hnoted⟩ :=
        hbody state₂ hstate₂
      obtain ⟨next, hnext, hafter⟩ := h.after part state₃ hstate₃
      refine ⟨next, openSegment part inside, Or.inr ⟨inside, hinside, rfl⟩,
        hnext, ?_, fun past => ?_, fun past => ?_⟩
      · simpa [openSegment, Event.IsAllowed, or_imp, forall_and] using
          ⟨hanswer, hallowed⟩
      · rw [openSegment, List.append_cons, List.append_cons,
          ← List.append_assoc]
        exact Visitor.segment_of_open (traced_of_ok hbefore _ past)
          (traced_of_ok hgate _ _) (htraced _) (traced_of_ok hafter _ _)
      · rw [openSegment, List.map_cons, List.map_cons, List.map_append,
          List.append_cons, List.append_cons, ← List.append_assoc]
        exact Visitor.segment_of_open (noted_of_ok hbefore _ past)
          (noted_of_ok hgate _ _) (hnoted _) (noted_of_ok hafter _ _)

/-- A visitor that does not fail is led on a walk through the shape, and its
gates answer as is allowed. -/
theorem exists_walk {state : σ} (hstate : states state) (shape : Shape) :
    ∃ next, states next ∧
      shape.walk visitor state = .ok () next ∧
      shape.callsOn visitor state =
        (shape.eventsOn visitor state).map Event.call ∧
      shape.eventsOn visitor state ∈ shape.walks ∧
      ∀ event ∈ shape.eventsOn visitor state, event.IsAllowed allowed := by
  have hleads : Leads allowed states shape.walks (shape.walk visitor.tracing)
      (shape.walk visitor.noting) :=
    Shape.walk_rule visitor.tracing visitor.noting (Leads allowed states)
      (leads_leaf h) Leads.nothing Leads.sequence (leads_segment h) shape
  obtain ⟨next, events, hevents, hnext, hallowed, htraced, hnoted⟩ :=
    hleads state hstate
  have heventsOn : shape.eventsOn visitor state = events := by
    rw [Shape.eventsOn, htraced]
    rfl
  have hcallsOn : shape.callsOn visitor state = events.map Event.call := by
    rw [Shape.callsOn, hnoted]
    rfl
  rw [heventsOn]
  have hwalk : shape.walk visitor state = .ok () next :=
    (sameButNotes_noting visitor shape).eq_of_withNotes (hnoted [])
  exact ⟨next, hnext, hwalk, hcallsOn, hevents, hallowed⟩

end Leading

/-! ### Every walk is led -/

section Scripts

def answersAmong (events : List Event) : List Bool :=
  events.filterMap fun
    | .gate _ answer => some answer
    | _ => none

theorem answersAmong_openSegment (part : Part) (inside : List Event) :
    answersAmong (openSegment part inside) = true :: answersAmong inside := by
  simp [answersAmong, openSegment]

/-- With the answers among events of the language as its script, a recorder
traces these events. -/
def Scripted (language : Language Event)
    (act : EStateM Call (Recording × List Event) Unit) : Prop :=
  ∀ events ∈ language, ∀ calls script past,
    ∃ calls', act (⟨calls, answersAmong events ++ script⟩, past) =
      .ok () (⟨calls', script⟩, past ++ events)

theorem scripted_segment (part : Part) {held : Language Event}
    {body : EStateM Call (Recording × List Event) Unit}
    (hbody : Scripted held body) :
    Scripted (segments part held)
      (({} : Recorder).visitor.tracing.segment part body) := by
  rintro events (rfl | ⟨inside, hinside, rfl⟩) calls script past
  · refine ⟨((calls.push (.before part)).push (.gate part)).push (.after part),
      ?_⟩
    rw [closedSegment, List.append_cons, List.append_cons]
    exact Visitor.segment_of_closed rfl rfl rfl
  · obtain ⟨calls', hinside⟩ :=
      hbody inside hinside ((calls.push (.before part)).push (.gate part))
        script (past ++ [.before part] ++ [.gate part true])
    refine ⟨calls'.push (.after part), ?_⟩
    rw [answersAmong_openSegment, openSegment, List.append_cons,
      List.append_cons, ← List.append_assoc]
    exact Visitor.segment_of_open rfl rfl hinside rfl

theorem Scripted.sequence {language language' : Language Event}
    {first second : EStateM Call (Recording × List Event) Unit}
    (hfirst : Scripted language first) (hsecond : Scripted language' second) :
    Scripted (language * language') (first >>= fun _ => second) := by
  intro events hevents calls script past
  obtain ⟨xs, hxs, ys, hys, rfl⟩ := Language.mem_mul.1 hevents
  obtain ⟨calls₁, hxs⟩ := hfirst xs hxs calls (answersAmong ys ++ script) past
  obtain ⟨calls₂, hys⟩ := hsecond ys hys calls₁ script (past ++ xs)
  refine ⟨calls₂, ?_⟩
  rw [answersAmong, List.filterMap_append, List.append_assoc,
    ← List.append_assoc past]
  exact (bind_apply_of_ok hxs _).trans hys

theorem Recorder.unfailing (closed : List String) :
    ({ closed } : Recorder).visitor.Unfailing fun _ => True where
  leaf _ _ _ := ⟨_, trivial, rfl⟩
  before _ _ _ := ⟨_, trivial, rfl⟩
  gate part recording _ := by
    obtain ⟨calls, script⟩ := recording
    cases script with
    | nil => exact ⟨_, _, trivial, trivial, rfl⟩
    | cons answer script => exact ⟨answer, _, trivial, trivial, rfl⟩
  after _ _ _ := ⟨_, trivial, rfl⟩

/-- The walks through a shape are those on which some visitor is led, and
recorders with scripts are enough. -/
theorem mem_walks_iff {shape : Shape} {events : List Event} :
    events ∈ shape.walks ↔
      ∃ script, shape.eventsOn ({} : Recorder).visitor { script } = events := by
  constructor
  · intro hevents
    have hscripted : Scripted shape.walks
        (shape.walk ({} : Recorder).visitor.tracing) := by
      refine Shape.walk_rule ({} : Recorder).visitor.tracing
        ({} : Recorder).visitor (fun language act _ => Scripted language act) ?_
        ?_ Scripted.sequence (fun part => scripted_segment part) shape
      · rintro content _ rfl calls script past
        exact ⟨calls.push (.leaf content), rfl⟩
      · rintro _ rfl calls script past
        exact ⟨calls, by rw [List.append_nil]; rfl⟩
    obtain ⟨calls, hwalk⟩ := hscripted events hevents #[] [] []
    rw [List.append_nil] at hwalk
    exact ⟨answersAmong events, by rw [Shape.eventsOn, hwalk]; rfl⟩
  · rintro ⟨script, rfl⟩
    obtain ⟨-, -, -, -, hwalk, -⟩ :=
      exists_walk (Recorder.unfailing []) trivial shape
    exact hwalk

end Scripts

end TypeShape
