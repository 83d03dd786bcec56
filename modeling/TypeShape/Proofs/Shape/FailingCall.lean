import TypeShape.Proofs.Shape.GatedWalk

/-!
Calls that fail.  A visitor that is made to fail at some call gets the same
calls as before up to that one, which is the last, and the walk ends with the
fault of the call.  It makes no difference what kind of call it is or how deep
in the shape.
-/
namespace TypeShape

/-! ### The first call to fail -/

section FirstFault

variable {ε : Type} (fault? : Nat → Call → Option ε)

/-- The calls up to the first one to fail, and its fault; the calls are numbered
from the given number. -/
def firstFault? : Nat → List Call → Option (List Call × ε)
  | _, [] => none
  | number, call :: rest =>
    match fault? number call with
    | some fault => some ([call], fault)
    | none => (firstFault? (number + 1) rest).map (Prod.map (call :: ·) id)

variable {fault?}

theorem firstFault?_append (number : Nat) (calls calls' : List Call) :
    firstFault? fault? number (calls ++ calls') =
      (firstFault? fault? number calls).or
        ((firstFault? fault? (number + calls.length) calls').map
          (Prod.map (calls ++ ·) id)) := by
  induction calls generalizing number with
  | nil => simp [firstFault?, Prod.map_def]
  | cons call rest ih =>
      simp only [List.cons_append, firstFault?]
      cases fault? number call with
      | some fault => rfl
      | none =>
          dsimp only
          rw [ih, Option.map_or, Option.map_map, List.length_cons,
            Nat.add_right_comm, Nat.add_assoc]
          rfl

/-- Where the calls before some number do not fail, the calls up to that number
are made, and its fault is the first. -/
theorem firstFault?_eq {calls : List Call} {number n : Nat} {fault : Call → ε}
    (hbefore : ∀ i (hi : i < calls.length),
      i < n → fault? (number + i) calls[i] = none)
    (hn : ∀ hn : n < calls.length,
      fault? (number + n) calls[n] = some (fault calls[n])) :
    firstFault? fault? number calls =
      calls[n]?.map fun call => (calls.take (n + 1), fault call) := by
  induction calls generalizing number n with
  | nil => rfl
  | cons call rest ih =>
      have hfirst (h : 0 < n) : fault? number call = none :=
        hbefore 0 (Nat.succ_pos _) h
      cases n with
      | zero =>
          have hfault : fault? number call = some (fault call) :=
            hn (Nat.succ_pos _)
          simp [firstFault?, hfault]
      | succ n =>
          have hrest := @ih (number + 1) n ?_ ?_
          · simp [firstFault?, hfirst (Nat.succ_pos n), hrest, Prod.map_def,
              Function.comp_def]
          · intro i hi hlt
            rw [Nat.add_right_comm]
            exact hbefore (i + 1) (Nat.succ_lt_succ hi) (Nat.succ_lt_succ hlt)
          · intro hlt
            rw [Nat.add_right_comm]
            exact hn (Nat.succ_lt_succ hlt)

end FirstFault

/-! ### Visitors that are made to fail -/

section Failing

variable {ε σ α : Type}

/-- Counts a call, and does something for it unless it is to fail. -/
def counted (fault? : Nat → Call → Option ε) (call : Call)
    (act : EStateM ε σ α) : EStateM ε (σ × Nat) α :=
  fun (state, number) =>
    match fault? number call with
    | some fault => .error fault (state, number + 1)
    | none =>
      match act state with
      | .ok a next => .ok a (next, number + 1)
      | .error fault next => .error fault (next, number + 1)

/-- The same visitor, made to fail at calls that are told by their number and by
what is called. -/
def Visitor.failing (visitor : Visitor ε σ) (fault? : Nat → Call → Option ε) :
    Visitor ε (σ × Nat) where
  leaf content := counted fault? (.leaf content) (visitor.leaf content)
  before part := counted fault? (.before part) (visitor.before part)
  gate part := counted fault? (.gate part) (visitor.gate part)
  after part := counted fault? (.after part) (visitor.after part)

/-- The same visitor, made to fail at the call of a number. -/
def Visitor.failingAt (visitor : Visitor ε σ) (n : Nat) (fault : Call → ε) :
    Visitor ε (σ × Nat) :=
  visitor.failing
    fun number call => if number = n then some (fault call) else none

/-- The same visitor, made to fail at all calls of a label. -/
def Visitor.failingOn (visitor : Visitor ε σ) (label : String)
    (fault : Call → ε) : Visitor ε (σ × Nat) :=
  visitor.failing
    fun _ call => if call.label = label then some (fault call) else none

/-- The fault with which the walk ends on which a visitor is led in some
state. -/
def Shape.faultOn (shape : Shape) (visitor : Visitor ε σ) (state : σ) :
    Option ε :=
  match shape.walk visitor state with
  | .ok _ _ => none
  | .error fault _ => some fault

end Failing

section FailsAs

variable {ε ε' σ σ' α β : Type} (fault? : Nat → Call → Option ε')
  (alike : Nat → σ → σ' → Prop)

/-- What is done for a call is done alike, unless the call is to fail. -/
structure CallFailsAs (call : Call) (act : EStateM ε σ α)
    (act' : EStateM ε' σ' α) : Prop where
  fails : ∀ {number state state' fault}, alike number state state' →
    fault? number call = some fault → ∃ last, act' state' = .error fault last
  goesOn : ∀ {number state state' a next}, alike number state state' →
    fault? number call = none → act state = .ok a next →
      ∃ next', alike (number + 1) next next' ∧ act' state' = .ok a next'

/-- A visitor does as another one does, as long as it is not made to fail; after
the same number of calls the states of both are alike. -/
structure Visitor.FailsAs (visitor : Visitor ε σ) (visitor' : Visitor ε' σ') :
    Prop where
  leaf : ∀ content, CallFailsAs fault? alike (.leaf content)
    (visitor.leaf content) (visitor'.leaf content)
  before : ∀ part, CallFailsAs fault? alike (.before part) (visitor.before part)
    (visitor'.before part)
  gate : ∀ part, CallFailsAs fault? alike (.gate part) (visitor.gate part)
    (visitor'.gate part)
  after : ∀ part, CallFailsAs fault? alike (.after part) (visitor.after part)
    (visitor'.after part)

/-- An action makes calls, and a second one makes the same up to the first to
fail. -/
def StopsAtFault (states : σ → Prop) (act : EStateM ε (σ × List Call) α)
    (act' : EStateM ε' (σ' × List Call) α) : Prop :=
  ∀ state, states state → ∃ a next calls, states next ∧
    (∀ past, act (state, past) = .ok a (next, past ++ calls)) ∧
    ∀ number state', alike number state state' →
      match firstFault? fault? number calls with
      | some (made, fault) =>
          ∃ last,
            ∀ past, act' (state', past) = .error fault (last, past ++ made)
      | none => ∃ next', alike (number + calls.length) next next' ∧
          ∀ past, act' (state', past) = .ok a (next', past ++ calls)

variable {fault? alike} {states : σ → Prop}

theorem StopsAtFault.bind {act : EStateM ε (σ × List Call) α}
    {act' : EStateM ε' (σ' × List Call) α}
    {next : α → EStateM ε (σ × List Call) β}
    {next' : α → EStateM ε' (σ' × List Call) β}
    (h : StopsAtFault fault? alike states act act')
    (hnext : ∀ a, StopsAtFault fault? alike states (next a) (next' a)) :
    StopsAtFault fault? alike states (act >>= next) (act' >>= next') := by
  intro state hstate
  obtain ⟨a, middle, calls, hmiddle, hact, hstops⟩ := h state hstate
  obtain ⟨b, last, calls', hlast, hrest, hstops'⟩ := hnext a middle hmiddle
  refine ⟨b, last, calls ++ calls', hlast, fun past => ?_,
    fun number state' halike => ?_⟩
  · rw [bind_apply_of_ok (hact past), hrest, List.append_assoc]
  · -- what comes second is begun only if nothing failed before, and its calls
    -- are counted on
    have hfirst := hstops number state' halike
    rw [firstFault?_append]
    cases hfault : firstFault? fault? number calls with
    | some found =>
        rw [hfault] at hfirst
        obtain ⟨last', herror⟩ := hfirst
        exact ⟨last', fun past => bind_apply_of_error (herror past) _⟩
    | none =>
        rw [hfault] at hfirst
        obtain ⟨middle', halike', hok⟩ := hfirst
        have hsecond := hstops' _ middle' halike'
        rw [Option.none_or]
        cases hfault' : firstFault? fault? (number + calls.length) calls' with
        | some found =>
            rw [hfault'] at hsecond
            obtain ⟨last', herror⟩ := hsecond
            refine ⟨last', fun past => ?_⟩
            rw [bind_apply_of_ok (hok past), herror, List.append_assoc]
            rfl
        | none =>
            rw [hfault'] at hsecond
            obtain ⟨last', halike', hrest'⟩ := hsecond
            refine ⟨last', ?_, fun past => ?_⟩
            · rw [List.length_append, ← Nat.add_assoc]
              exact halike'
            · rw [bind_apply_of_ok (hok past), hrest', List.append_assoc]

theorem StopsAtFault.pure (a : α) :
    StopsAtFault (ε := ε) fault? alike states (pure a) (pure a) := by
  intro state hstate
  refine ⟨a, state, [], hstate, fun past => by rw [List.append_nil]; rfl, ?_⟩
  exact fun number state' halike =>
    ⟨state', halike, fun past => by rw [List.append_nil]; rfl⟩

theorem stopsAtFault_noted {call : Call} {act : EStateM ε σ α}
    {act' : EStateM ε' σ' α}
    (hact : ∀ state,
      states state → ∃ a next, states next ∧ act state = .ok a next)
    (hfails : CallFailsAs fault? alike call act act') :
    StopsAtFault fault? alike states (noted call act) (noted call act') := by
  intro state hstate
  obtain ⟨a, next, hnext, hok⟩ := hact state hstate
  refine ⟨a, next, [call], hnext, noted_of_ok hok call,
    fun number state' halike => ?_⟩
  unfold firstFault?
  cases hfault : fault? number call with
  | some fault =>
      obtain ⟨last, herror⟩ := hfails.fails halike hfault
      exact ⟨last, fun past => by rw [noted, herror]⟩
  | none =>
      obtain ⟨next', halike', hok'⟩ := hfails.goesOn halike hfault hok
      exact ⟨next', halike', noted_of_ok hok' call⟩

variable {visitor : Visitor ε σ} {visitor' : Visitor ε' σ'}
  (h : visitor.Unfailing states)
  (hfails : visitor.FailsAs fault? alike visitor')

include h hfails

theorem stopsAtFault_walk (shape : Shape) :
    StopsAtFault fault? alike states (shape.walk visitor.noting)
      (shape.walk visitor'.noting) := by
  have hunit {act : EStateM ε σ Unit} {state : σ}
      (hact : ∃ next, states next ∧ act state = .ok () next) :
      ∃ a next, states next ∧ act state = .ok a next := ⟨(), hact⟩
  refine Shape.walk_rule visitor.noting visitor'.noting
    (fun _ act act' => StopsAtFault fault? alike states act act') ?_
    (StopsAtFault.pure ()) ?_ ?_ shape
  · intro content
    exact stopsAtFault_noted
      (fun state hstate => hunit (h.leaf content state hstate))
      (hfails.leaf content)
  · exact fun hfirst hsecond => hfirst.bind fun _ => hsecond
  · intro part _ body body' hbody
    have hbefore := stopsAtFault_noted
      (fun state hstate => hunit (h.before part state hstate))
      (hfails.before part)
    have hgate := stopsAtFault_noted (fun state hstate =>
      have ⟨answer, next, _, hnext⟩ := h.gate part state hstate
      ⟨answer, next, hnext⟩) (hfails.gate part)
    have hafter :=
      stopsAtFault_noted (fun state hstate => hunit (h.after part state hstate))
        (hfails.after part)
    apply hbefore.bind fun _ => hgate.bind fun answer => ?_
    cases answer with
    | false => exact hafter
    | true => exact hbody.bind fun _ => hafter

/-- If the call of a number is the first to fail, the calls up to this one are
made, and its fault ends the walk; without such a call nothing is changed. -/
theorem callsOn_of_failsAs {state : σ} {state' : σ'} (hstate : states state)
    (halike : alike 0 state state') (shape : Shape) (n : Nat)
    (fault : Call → ε')
    (hbefore : ∀ i (hi : i < (shape.callsOn visitor state).length),
      i < n → fault? i (shape.callsOn visitor state)[i] = none)
    (hn : ∀ hn : n < (shape.callsOn visitor state).length,
      fault? n (shape.callsOn visitor state)[n] =
        some (fault (shape.callsOn visitor state)[n])) :
    shape.callsOn visitor' state' = (shape.callsOn visitor state).take (n + 1) ∧
    shape.faultOn visitor' state' =
      (shape.callsOn visitor state)[n]?.map fault := by
  obtain ⟨_, next, calls, -, hok, hstops⟩ :=
    stopsAtFault_walk h hfails shape state hstate
  have hcalls : shape.callsOn visitor state = calls := by
    rw [Shape.callsOn, hok]
    rfl
  have hwalk := hstops 0 state' halike
  have hplain := sameButNotes_noting visitor' shape
  simp only [hcalls] at hbefore hn ⊢
  rw [firstFault?_eq (by simpa using hbefore) (by simpa using hn)] at hwalk
  cases hcall : calls[n]? with
  | some call =>
      rw [hcall] at hwalk
      obtain ⟨last, herror⟩ := hwalk
      have hresult : shape.walk visitor' state' = .error (fault call) last :=
        hplain.eq_of_withNotes (herror [])
      rw [Shape.callsOn, Shape.faultOn, herror, hresult]
      exact ⟨rfl, rfl⟩
  | none =>
      rw [hcall] at hwalk
      obtain ⟨last, -, hend⟩ := hwalk
      have hresult : shape.walk visitor' state' = .ok () last :=
        hplain.eq_of_withNotes (hend [])
      have hlength : calls.length ≤ n + 1 :=
        Nat.le_succ_of_le (List.getElem?_eq_none_iff.1 hcall)
      rw [Shape.callsOn, Shape.faultOn, hend, hresult,
        List.take_of_length_le hlength]
      exact ⟨rfl, rfl⟩

end FailsAs

section Results

variable {ε σ α : Type}

/-- The state of a counting visitor has the number of calls beside it. -/
theorem callFailsAs_counted (fault? : Nat → Call → Option ε) (call : Call)
    (act : EStateM ε σ α) :
    CallFailsAs fault? (fun number state state' => state' = (state, number))
      call act (counted fault? call act) where
  fails := by
    rintro number state _ fault rfl hfault
    exact ⟨(state, number + 1), by rw [counted, hfault]⟩
  goesOn := by
    rintro number state _ a next rfl hfault hact
    exact ⟨(next, number + 1), rfl, by rw [counted, hfault, hact]⟩

theorem failsAs_failing (visitor : Visitor ε σ)
    (fault? : Nat → Call → Option ε) :
    visitor.FailsAs fault? (fun number state state' => state' = (state, number))
      (visitor.failing fault?) where
  leaf _ := callFailsAs_counted _ _ _
  before _ := callFailsAs_counted _ _ _
  gate _ := callFailsAs_counted _ _ _
  after _ := callFailsAs_counted _ _ _

/-- A visitor that does not fail and is made to fail at the call of a number
gets the calls up to this one, and the walk ends with the fault of this call; if
there are not so many calls, it gets them all and does not fail.  To fail at a
label is to fail at the first call that has it. -/
theorem Shape.callsOn_failing {visitor : Visitor ε σ} {states : σ → Prop}
    (h : visitor.Unfailing states) {state : σ} (hstate : states state)
    (fault : Call → ε) (shape : Shape) :
    (∀ n, shape.callsOn (visitor.failingAt n fault) (state, 0) =
      (shape.callsOn visitor state).take (n + 1) ∧
      shape.faultOn (visitor.failingAt n fault) (state, 0) =
        (shape.callsOn visitor state)[n]?.map fault) ∧
    ∀ label, shape.callsOn (visitor.failingOn label fault) (state, 0) =
      shape.callsOn (visitor.failingAt
        ((shape.callsOn visitor state).findIdx (·.label = label)) fault)
        (state, 0) ∧
      shape.faultOn (visitor.failingOn label fault) (state, 0) =
        shape.faultOn (visitor.failingAt
          ((shape.callsOn visitor state).findIdx (·.label = label)) fault)
          (state, 0) := by
  have hat (n : Nat) :=
    callsOn_of_failsAs h (failsAs_failing visitor fun number call =>
    if number = n then some (fault call) else none) hstate rfl shape n fault
    (fun i _ hlt => if_neg (Nat.ne_of_lt hlt)) (fun _ => if_pos rfl)
  refine ⟨hat, fun label => ?_⟩
  have hon := callsOn_of_failsAs h (failsAs_failing visitor fun _ call =>
    if call.label = label then some (fault call) else none) hstate rfl shape
    ((shape.callsOn visitor state).findIdx (·.label = label)) fault
    (fun i _ hlt => if_neg (by simpa using List.not_of_lt_findIdx hlt))
    (fun hlt => if_pos (by simpa using List.findIdx_getElem (w := hlt)))
  exact ⟨hon.1.trans (hat _).1.symm, hon.2.trans (hat _).2.symm⟩

/-- A recorder that closes the gate of the key and fails at the gate of an
element gets no call after this gate, also if it fails at the label of the
gate. -/
theorem Shape.callsOn_failing_tagged :
    ({} : Recorder).visitor.Unfailing (fun _ => True) ∧
    tagged.callsOn (({} : Recorder).visitor.failingAt 10 id)
      ({ script := [true, true, false] }, 0) = [.before .fields, .gate .fields,
        .before (.field "key"), .gate (.field "key"), .before .key, .gate .key,
        .after .key, .before .value, .gate .value, .before (.element .array),
        .gate (.element .array)] ∧
    tagged.faultOn
      (({} : Recorder).visitor.failingOn "should_visit_element:array" id)
      ({ script := [true, true, false] }, 0) =
      some (.gate (.element .array)) := by
  have hunfailing := Recorder.unfailing []
  obtain ⟨hat, hon⟩ :=
    @callsOn_failing _ _ _ _ hunfailing { script := [true, true, false] }
    trivial id tagged
  have hfirst : (tagged.callsOn ({} : Recorder).visitor
      { script := [true, true, false] }).findIdx
      (·.label = "should_visit_element:array") = 10 := by
    decide +kernel
  refine ⟨hunfailing, (hat 10).1.trans (by decide +kernel), ?_⟩
  rw [(hon "should_visit_element:array").2, hfirst, (hat 10).2]
  decide +kernel

end Results

/-! ### Recorders -/

/-- The notes of a recorder are the calls made to it. -/
def Records {α : Type} (act : EStateM Call (Recording × List Call) α) : Prop :=
  ∀ recording past, recording.calls.toList = past →
    match act (recording, past) with
    | .ok _ (next, calls) => next.calls.toList = calls
    | .error _ (next, calls) => next.calls.toList = calls

theorem Records.bind {α β : Type} {act : EStateM Call (Recording × List Call) α}
    {next : α → EStateM Call (Recording × List Call) β} (h : Records act)
    (hnext : ∀ a, Records (next a)) : Records (act >>= next) := by
  intro recording past hpast
  have hact := h recording past hpast
  cases hresult : act (recording, past) with
  | ok a middle =>
      rw [hresult] at hact
      rw [bind_apply_of_ok hresult]
      exact hnext a _ _ hact
  | error fault middle =>
      rw [hresult] at hact
      rw [bind_apply_of_error hresult]
      exact hact

namespace Recorder

variable (recorder : Recorder)

theorem records_note (call : Call) :
    Records (noted call (recorder.note call)) := by
  rintro recording _ rfl
  unfold noted note
  dsimp only
  cases recorder.fails recording.calls.size call <;> simp

theorem records_gate (part : Part) :
    Records (noted (.gate part) (recorder.visitor.gate part)) := by
  rintro ⟨calls, script⟩ _ rfl
  unfold noted visitor
  dsimp only [bind, EStateM.bind, note]
  cases recorder.fails calls.size (.gate part) with
  | true => simp
  | false => cases script <;> simp [answer]

theorem calls_of_answer {call : Call} {recording next : Recording}
    {answer : Bool} (h : recorder.answer call recording = .ok answer next) :
    next.calls = recording.calls := by
  obtain ⟨calls, script⟩ := recording
  cases script with
  | nil =>
      obtain ⟨-, rfl⟩ := EStateM.Result.ok.inj h
      rfl
  | cons first script =>
      obtain ⟨-, rfl⟩ := EStateM.Result.ok.inj h
      rfl

/-- A recorder does as one that does not fail, as long as it has not to fail. -/
theorem failsAs :
    ({ closed := recorder.closed } : Recorder).visitor.FailsAs (fun number call
      => if recorder.fails number call then some call else none)
      (fun number recording recording' =>
        recording' = recording ∧ recording.calls.size = number)
      recorder.visitor := by
  have hnote (call : Call) : CallFailsAs (fun number call =>
      if recorder.fails number call then some call else none)
      (fun number recording recording' =>
        recording' = recording ∧ recording.calls.size = number) call
      (({ closed := recorder.closed } : Recorder).note call)
      (recorder.note call) := by
    constructor
    · rintro _ _ recording fault ⟨rfl, rfl⟩ hfault
      obtain ⟨hfails, hcall⟩ := Option.ite_none_right_eq_some.1 hfault
      obtain rfl := Option.some.inj hcall
      exact ⟨_, by rw [note, if_pos hfails]⟩
    · rintro _ _ recording _ next ⟨rfl, rfl⟩ hfault hok
      have hfails : ¬ recorder.fails recording.calls.size call = true := by
        simpa using hfault
      obtain ⟨-, rfl⟩ := EStateM.Result.ok.inj hok
      exact ⟨_, ⟨rfl, Array.size_push _⟩, by rw [note, if_neg hfails]⟩
  refine ⟨fun _ => hnote _, fun _ => hnote _, fun part => ⟨?_, ?_⟩,
    fun _ => hnote _⟩
  · intro number recording recording' fault halike hfault
    obtain ⟨last, herror⟩ := (hnote (.gate part)).fails halike hfault
    exact ⟨last, bind_apply_of_error herror _⟩
  · intro number recording recording' answer next halike hfault hok
    obtain ⟨_, ⟨rfl, hsize⟩, hnoted⟩ :=
      (hnote (.gate part)).goesOn halike hfault rfl
    have hanswer : recorder.answer (.gate part) _ = .ok answer next := hok
    refine ⟨next, ⟨rfl, ?_⟩, (bind_apply_of_ok hnoted _).trans hanswer⟩
    rw [recorder.calls_of_answer hanswer, hsize]

/-- What a recorder notes are the calls made to it. -/
theorem recordWalk_eq (shape : Shape) (script : List Bool) :
    shape.recordWalk recorder.visitor script =
      ⟨shape.callsOn recorder.visitor { script },
        shape.faultOn recorder.visitor { script }⟩ := by
  have hrecords : Records (shape.walk recorder.visitor.noting) := by
    refine Shape.walk_rule recorder.visitor.noting recorder.visitor.noting
      (fun _ act _ => Records act) (fun _ => recorder.records_note _)
      (fun _ _ h => h) (fun hfirst hsecond => hfirst.bind fun _ => hsecond) ?_
      shape
    intro part _ body _ hbody
    apply (recorder.records_note (.before part)).bind fun _ =>
      (recorder.records_gate part).bind fun answer => ?_
    cases answer with
    | false => exact recorder.records_note (.after part)
    | true => exact hbody.bind fun _ => recorder.records_note (.after part)
  have hcalls := hrecords { script } [] rfl
  obtain ⟨notes, hnoting⟩ :=
    sameButNotes_noting recorder.visitor shape { script } []
  rw [Shape.recordWalk, Shape.callsOn, Shape.faultOn, EStateM.run, hnoting]
  rw [hnoting] at hcalls
  cases hwalk : shape.walk recorder.visitor { script } with
  | ok _ next =>
      rw [hwalk] at hcalls
      exact congrArg (WalkRecord.mk · none) hcalls
  | error fault next =>
      rw [hwalk] at hcalls
      exact congrArg (WalkRecord.mk · (some fault)) hcalls

end Recorder

namespace Shape

variable (shape : Shape) (closed : List String) (script : List Bool)

/-- If the call of a number is the first for which a recorder fails, it records
the calls up to this one and fails with it. -/
theorem recordWalk_of_fails (recorder : Recorder) (n : Nat) {plain : WalkRecord}
    (hplain : shape.recordWalk
      ({ closed := recorder.closed } : Recorder).visitor script = plain)
    (hbefore : ∀ i (hi : i < plain.calls.length),
      i < n → recorder.fails i plain.calls[i] = false)
    (hn : ∀ hn : n < plain.calls.length,
      recorder.fails n plain.calls[n] = true) :
    shape.recordWalk recorder.visitor script =
      ⟨plain.calls.take (n + 1), plain.calls[n]?⟩ := by
  rw [Recorder.recordWalk_eq] at hplain
  subst hplain
  obtain ⟨hcalls, hfault⟩ := callsOn_of_failsAs
    (Recorder.unfailing recorder.closed) recorder.failsAs trivial ⟨rfl, rfl⟩
    shape n id (fun i hi hlt => if_neg (by simpa using hbefore i hi hlt))
    (fun hlt => if_pos (hn hlt))
  rw [Recorder.recordWalk_eq, hcalls, hfault, Option.map_id_fun, id]

/-- A recorder that fails at the call of a number records the calls up to this
one. -/
theorem recordWalk_failAt {plain : WalkRecord}
    (hplain : shape.recordWalk ({ closed } : Recorder).visitor script = plain)
    (n : Nat) :
    shape.recordWalk ({ closed, failAt := some n } : Recorder).visitor script =
      ⟨plain.calls.take (n + 1), plain.calls[n]?⟩ := by
  refine shape.recordWalk_of_fails script { closed, failAt := some n } n hplain
    ?_ ?_
  · intro i _ hlt
    simp [Recorder.fails, Nat.ne_of_gt hlt]
  · intro _
    simp [Recorder.fails]

/-- A recorder that fails at a label records the calls up to the first that has
it. -/
theorem recordWalk_failOn {plain : WalkRecord}
    (hplain : shape.recordWalk ({ closed } : Recorder).visitor script = plain)
    (label : String) :
    shape.recordWalk ({ closed, failOn := some label } : Recorder).visitor
      script = ⟨plain.calls.take (plain.calls.findIdx (·.label = label) + 1),
        plain.calls.find? (·.label = label)⟩ := by
  rw [List.find?_eq_getElem?_findIdx]
  refine shape.recordWalk_of_fails script { closed, failOn := some label } _
    hplain ?_ ?_
  · intro i _ hlt
    have hlabel : plain.calls[i].label ≠ label := by
      simpa using List.not_of_lt_findIdx hlt
    simp [Recorder.fails, hlabel.symm]
  · intro hlt
    have hlabel := of_decide_eq_true (List.findIdx_getElem (w := hlt))
    simp [Recorder.fails, hlabel]

end Shape

end TypeShape
