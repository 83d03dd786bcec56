import TypeShape.Proofs.Shape.Nesting

/-!
Closed gates.  Where the gates of some labels are closed, a walk makes the calls
of the open walk without those between such a gate and the call after its part.
So whoever closes more gates deletes more calls.  A visitor that is given
nothing but a call for leaves is led to all of them, since the other calls do
nothing.
-/
namespace TypeShape

/-! ### Deleting what is behind closed gates -/

section Deleting

variable (closed : Set String)

/-- A call stands behind a closed gate: some calls before it the gate is asked,
and up to it the part of the gate is not left. -/
def BehindClosed (before : List Call) (call : Call) : Prop :=
  ∃ outer part inner, before = outer ++ .gate part :: inner ∧
    (Call.gate part).label ∈ closed ∧
    ∃ count, entered? 0 (inner ++ [call]) = some count

variable [DecidablePred (· ∈ closed)]

/-- How many parts are entered since a closed gate after one more call, if there
is such a gate whose part is not left. -/
def behind? : Option Nat → Call → Option Nat
  | none, .gate part => if (Call.gate part).label ∈ closed then some 0 else none
  | none, _ => none
  | some count, call => entered? count [call]

/-- The calls that are left when those are deleted that begin and end behind a
closed gate. -/
def keptCalls : Option Nat → List Call → List Call
  | _, [] => []
  | passed, call :: rest =>
    if passed.isSome ∧ (behind? closed passed call).isSome then
      keptCalls (behind? closed passed call) rest
    else call :: keptCalls (behind? closed passed call) rest

/-- The calls without those between each closed gate and the call after its
part. -/
def withoutClosed (calls : List Call) : List Call :=
  keptCalls closed none calls

variable {closed}

theorem keptCalls_append (passed : Option Nat) (calls calls' : List Call) :
    keptCalls closed passed (calls ++ calls') =
      keptCalls closed passed calls ++
        keptCalls closed (calls.foldl (behind? closed) passed) calls' := by
  induction calls generalizing passed with
  | nil => rfl
  | cons call rest ih =>
      rw [List.cons_append, keptCalls, keptCalls, ih, List.foldl_cons]
      split <;> rfl

/-- A closed gate that counts has been asked, and its part has not been left. -/
theorem exists_of_foldl_behind? {calls : List Call} {count : Nat}
    (h : calls.foldl (behind? closed) none = some count) :
    ∃ outer part inner, calls = outer ++ .gate part :: inner ∧
      (Call.gate part).label ∈ closed ∧
      entered? 0 inner = some count := by
  induction calls using List.reverseRecOn generalizing count with
  | nil => cases h
  | append_singleton calls call ih =>
      rw [List.foldl_append] at h
      cases hpassed : calls.foldl (behind? closed) none with
      | none =>
          rw [hpassed] at h
          cases call with
          | gate part =>
              obtain ⟨hclosed, hcount⟩ := Option.ite_none_right_eq_some.1 h
              exact ⟨calls, part, [], rfl, hclosed, hcount⟩
          | leaf | before | after => cases h
      | some earlier =>
          obtain ⟨outer, part, inner, rfl, hclosed, hinner⟩ := ih hpassed
          rw [hpassed] at h
          refine ⟨outer, part, inner ++ [call], by simp, hclosed, ?_⟩
          rw [entered?_append, hinner]
          exact h

/-- Behind a closed gate no call is kept as long as its part is not left. -/
theorem keptCalls_eq_nil {calls : List Call} {count after : Nat}
    (h : entered? count calls = some after) :
    keptCalls closed (some count) calls = [] ∧
      calls.foldl (behind? closed) (some count) = some after := by
  induction calls generalizing count with
  | nil => exact ⟨rfl, h⟩
  | cons call rest ih =>
      obtain ⟨middle, hcall, hrest⟩ :=
        Option.bind_eq_some_iff.1 ((entered?_append _ [call] _) ▸ h)
      rw [keptCalls, List.foldl_cons, behind?, hcall, if_pos ⟨rfl, rfl⟩]
      exact ih hrest

theorem behindClosed_iff (before : List Call) (call : Call) :
    BehindClosed closed before call ↔
      ∃ count after, before.foldl (behind? closed) none = some count ∧
        entered? count [call] = some after := by
  constructor
  · rintro ⟨outer, part, inner, rfl, hclosed, after, hafter⟩
    obtain ⟨count, hinner, hcall⟩ :=
      Option.bind_eq_some_iff.1 ((entered?_append _ _ _) ▸ hafter)
    -- if the gate is itself behind another one, what is entered since that one
    -- counts on top
    have hgate : ∃ more,
        behind? closed (outer.foldl (behind? closed) none) (.gate part) =
          some more := by
      cases outer.foldl (behind? closed) none with
      | none => exact ⟨0, if_pos hclosed⟩
      | some earlier => exact ⟨earlier, rfl⟩
    obtain ⟨more, hgate⟩ := hgate
    refine ⟨count + more, after + more, ?_, entered?_add hcall more⟩
    have hmore : entered? more inner = some (count + more) := by
      simpa using entered?_add hinner more
    rw [List.foldl_append, List.foldl_cons, hgate, (keptCalls_eq_nil hmore).2]
  · rintro ⟨count, after, hpassed, hcall⟩
    obtain ⟨outer, part, inner, rfl, hclosed, hinner⟩ :=
      exists_of_foldl_behind? hpassed
    refine ⟨outer, part, inner, rfl, hclosed, after, ?_⟩
    rw [entered?_append, hinner]
    exact hcall

/-- Of the calls those are deleted that stand behind a closed gate, and no
others. -/
theorem withoutClosed_concat (before : List Call) (call : Call)
    [Decidable (BehindClosed closed before call)] :
    withoutClosed closed (before ++ [call]) = withoutClosed closed before ++
      if BehindClosed closed before call then [] else [call] := by
  have hiff := @behindClosed_iff closed _ before call
  rw [withoutClosed, keptCalls_append, withoutClosed, keptCalls, keptCalls]
  congr 1
  cases hpassed : before.foldl (behind? closed) none with
  | none => simp_all
  | some count => cases hcall : entered? count [call] <;> simp_all [behind?]

/-- All between a closed gate and the call after its part is deleted. -/
theorem keptCalls_of_closed {part : Part}
    (hclosed : (Call.gate part).label ∈ closed) {inside : List Call}
    (h : Balanced inside) (rest : List Call) :
    keptCalls closed none (segmentCalls part inside ++ rest) = .before part ::
      .gate part :: .after part :: keptCalls closed none rest := by
  obtain ⟨hkept, hbehind⟩ := @keptCalls_eq_nil closed _ _ _ _ h
  have hafter : keptCalls closed (some 0) (inside ++ .after part :: rest) =
      .after part :: keptCalls closed none rest := by
    rw [keptCalls_append, hkept, hbehind]
    rfl
  rw [← hafter, segmentCalls_append]
  simp [keptCalls, behind?, hclosed]

theorem keptCalls_of_open {part : Part}
    (hopen : (Call.gate part).label ∉ closed) (inside rest : List Call) :
    keptCalls closed none (segmentCalls part inside ++ rest) = .before part ::
      .gate part :: keptCalls closed none (inside ++ .after part :: rest) := by
  rw [segmentCalls_append]
  simp [keptCalls, behind?, hopen]

example :
    withoutClosed {label | label ∈ ["should_visit_key"]} (segmentCalls .key
      [.leaf (.scalar .int)] ++ segmentCalls .value [.leaf (.scalar .long)]) =
      segmentCalls .key [] ++ segmentCalls .value [.leaf (.scalar .long)] := by
  decide +kernel

variable {closed' : Set String} [DecidablePred (· ∈ closed')]
  {passed passed' : Option Nat}

/-- What is behind a gate of fewer labels is behind one of more labels, and
there it has been at least as long. -/
theorem behind?_le (hsubset : closed ⊆ closed') (hpassed : passed ≤ passed')
    (call : Call) :
    behind? closed passed call ≤ behind? closed' passed' call := by
  rcases passed with _ | count <;> rcases passed' with _ | count'
  case none.none =>
    cases call with
    | leaf | before | after => exact Option.none_le
    | gate part =>
        by_cases hclosed : (Call.gate part).label ∈ closed
        · simp [behind?, hclosed, hsubset hclosed]
        · simp [behind?, hclosed]
  case none.some =>
    cases call with
    | leaf | before | after => exact Option.none_le
    | gate part =>
        have hgate : behind? closed' (some count') (.gate part) = some count' :=
          rfl
        rw [hgate, behind?]
        split
        · exact Option.some_le_some.2 (Nat.zero_le count')
        · exact Option.none_le
  case some.none => exact absurd hpassed Option.not_some_le_none
  case some.some =>
    obtain ⟨more, rfl⟩ :=
      Nat.exists_eq_add_of_le (Option.some_le_some.1 hpassed)
    rw [behind?, behind?]
    cases hcall : entered? count [call] with
    | none => exact Option.none_le
    | some after =>
        rw [entered?_add hcall more]
        exact Option.some_le_some.2 (Nat.le_add_right after more)

theorem keptCalls_sublist (hsubset : closed ⊆ closed')
    (hpassed : passed ≤ passed') (calls : List Call) :
    (keptCalls closed' passed' calls).Sublist
      (keptCalls closed passed calls) := by
  have hisSome {a b : Option Nat} (hle : a ≤ b) (ha : a.isSome) : b.isSome := by
    cases a <;> cases b <;> simp_all
  induction calls generalizing passed passed' with
  | nil => exact List.Sublist.refl []
  | cons call rest ih =>
      have hnext := behind?_le hsubset hpassed call
      rw [keptCalls, keptCalls]
      by_cases hdeleted : passed.isSome ∧ (behind? closed passed call).isSome
      · rw [if_pos hdeleted,
          if_pos (hdeleted.imp (hisSome hpassed) (hisSome hnext))]
        exact ih hnext
      · rw [if_neg hdeleted]
        split
        · exact (ih hnext).cons call
        · exact (ih hnext).cons_cons call

end Deleting

/-! ### Walks with closed gates -/

/-- The answer of a gate that is open unless its label is among some. -/
def OpenUnless (closed : Set String) (part : Part) (answer : Bool) : Prop :=
  answer = true ↔ (Call.gate part).label ∉ closed

/-- The gates of some labels are closed and all others are open. -/
def Visitor.Closes {ε σ : Type} (visitor : Visitor ε σ) (closed : Set String)
    (states : σ → Prop) : Prop :=
  visitor.Answers (OpenUnless closed) states

section Pruning

variable {closed : Set String} [DecidablePred (· ∈ closed)]

variable (closed) in
/-- Of some calls those are kept that a walk of the language makes, if the gates
on it answer as some are closed. -/
structure Prunes (calls : List Call) (language : Language Event) : Prop where
  balanced : Balanced calls
  kept : ∀ events ∈ language,
    (∀ event ∈ events, event.IsAllowed (OpenUnless closed)) →
    ∀ rest, keptCalls closed none (calls ++ rest) =
      events.map Event.call ++ keptCalls closed none rest

theorem Prunes.leaf (content : Leaf) :
    Prunes closed [.leaf content] {[.leaf content]} where
  balanced := rfl
  kept := by
    rintro _ rfl _ rest
    rfl

theorem Prunes.nothing : Prunes closed [] 1 where
  balanced := balanced_nil
  kept := by
    rintro _ rfl _ rest
    rfl

theorem Prunes.append {calls calls' : List Call}
    {language language' : Language Event} (h : Prunes closed calls language)
    (h' : Prunes closed calls' language') :
    Prunes closed (calls ++ calls') (language * language') where
  balanced := h.balanced.append h'.balanced
  kept := by
    intro events hevents hallowed rest
    obtain ⟨xs, hxs, ys, hys, rfl⟩ := Language.mem_mul.1 hevents
    obtain ⟨hallowedXs, hallowedYs⟩ := List.forall_mem_append.1 hallowed
    rw [List.append_assoc, h.kept xs hxs hallowedXs, h'.kept ys hys hallowedYs,
      List.map_append, List.append_assoc]

/-- A segment is pruned as the answer of its gate says. -/
theorem Prunes.segment (part : Part) {inside : List Call}
    {held : Language Event} (h : Prunes closed inside held) :
    Prunes closed (segmentCalls part inside) (segments part held) where
  balanced := h.balanced.segmentCalls part
  kept := by
    rintro events (rfl | ⟨walk, hwalk, rfl⟩) hallowed rest
    · have hgate : (Call.gate part).label ∈ closed := by
        simpa [closedSegment, Event.IsAllowed, OpenUnless] using hallowed
      exact keptCalls_of_closed hgate h.balanced rest
    · simp only [openSegment, List.forall_mem_cons, List.forall_mem_append,
        Event.IsAllowed, OpenUnless, true_iff] at hallowed
      obtain ⟨-, hgate, hinside, -⟩ := hallowed
      rw [keptCalls_of_open hgate, h.kept walk hwalk hinside]
      simp [openSegment, Event.call, keptCalls, behind?]

variable {ε ε' σ σ' : Type} {visitor : Visitor ε σ} {visitor' : Visitor ε' σ'}
  {states : σ → Prop} {states' : σ' → Prop}

variable (closed) in
theorem prunes_calls (shape : Shape) : Prunes closed shape.calls shape.walks :=
  Shape.calls_rule Visitor.silent
    (fun calls language _ => Prunes closed calls language) Prunes.leaf
    Prunes.nothing Prunes.append (fun part => Prunes.segment part) shape

/-- The calls behind closed gates are missing, and no others. -/
theorem callsOn_eq_withoutClosed (hopen : visitor.AllOpen states)
    (hcloses : visitor'.Closes closed states') {state : σ}
    (hstate : states state) {state' : σ'} (hstate' : states' state')
    (shape : Shape) :
    shape.callsOn visitor' state' =
      withoutClosed closed (shape.callsOn visitor state) := by
  obtain ⟨-, -, -, hcalls, hevents, hallowed⟩ :=
    exists_walk hcloses hstate' shape
  have hkept := (prunes_calls closed shape).kept _ hevents hallowed []
  rw [List.append_nil, keptCalls, List.append_nil] at hkept
  rw [hcalls, callsOn_eq_calls hopen hstate, withoutClosed, hkept]

end Pruning

/-! ### Leaves alone -/

def Call.leaf? : Call → Option Leaf
  | leaf content => some content
  | _ => none

section Leaves

variable {ε ε' σ σ' : Type} {visitor : Visitor ε σ} {states : σ → Prop}

theorem filterMap_leaf?_segmentCalls (part : Part) (inside : List Call) :
    (segmentCalls part inside).filterMap Call.leaf? =
      inside.filterMap Call.leaf? := by
  rw [segmentCalls, List.filterMap_cons_none rfl, List.filterMap_cons_none rfl,
    List.filterMap_append]
  exact List.append_nil _

/-- A visitor that is given nothing but a call for leaves does this for the
leaves of the open walk one after another, up to the first that fails. -/
theorem walk_leaf_eq_forM (hopen : visitor.AllOpen states) {state : σ}
    (hstate : states state) (leaf : Leaf → EStateM ε' σ' Unit) (shape : Shape) :
    shape.walk { leaf } =
      forM ((shape.callsOn visitor state).filterMap Call.leaf?) leaf := by
  rw [callsOn_eq_calls hopen hstate]
  refine Shape.calls_rule { leaf } (fun calls _ act =>
    act = forM (calls.filterMap Call.leaf?) leaf) ?_ rfl ?_ ?_ shape
  · intro content
    simp [Call.leaf?]
  · rintro calls calls' _ _ _ _ rfl rfl
    rw [List.filterMap_append, List.forM_append]
  · rintro part inside _ _ rfl
    rw [filterMap_leaf?_segmentCalls]
    simp [Visitor.segment]

end Leaves

/-! ### What closing gates does to a walk -/

/-- A recorder without a script closes the gates of the given labels. -/
theorem Recorder.closes (closed : List String) :
    ({ closed } : Recorder).visitor.Closes {label | label ∈ closed}
      (fun recording => recording.script = []) := by
  have hnote (call : Call) (recording : Recording)
      (hscript : recording.script = []) :
      ∃ next, next.script = [] ∧
        ({ closed } : Recorder).note call recording = .ok () next :=
    ⟨{ recording with calls := recording.calls.push call }, hscript, rfl⟩
  refine ⟨fun _ => hnote _, fun _ => hnote _, ?_, fun _ => hnote _⟩
  rintro part ⟨calls, script⟩ rfl
  exact ⟨!closed.contains (Call.gate part).label, _, by simp [OpenUnless], rfl,
    rfl⟩

namespace Shape

section Results

variable {ε ε' ε'' σ σ' σ'' : Type} {visitor : Visitor ε σ}
  {visitor' : Visitor ε' σ'} {visitor'' : Visitor ε'' σ''} {states : σ → Prop}
  {states' : σ' → Prop} {states'' : σ'' → Prop}

/-- With the gates of some labels closed, a walk makes the calls of the open
walk without those between these gates and the calls after their parts; with
more gates closed it makes some of these calls in the same order.  A visitor
that is given nothing but a call for leaves does it for the leaves of the open
walk in order. -/
theorem callsOn_of_closes {closed closed' : Set String}
    [DecidablePred (· ∈ closed)] (hopen : visitor.AllOpen states)
    (hcloses : visitor'.Closes closed states')
    (hcloses' : visitor''.Closes closed' states'') {state : σ}
    (hstate : states state) {state' : σ'} (hstate' : states' state')
    {state'' : σ''} (hstate'' : states'' state'') (shape : Shape) :
    shape.callsOn visitor' state' =
      withoutClosed closed (shape.callsOn visitor state) ∧
    (closed ⊆ closed' →
      (shape.callsOn visitor'' state'').Sublist
        (shape.callsOn visitor' state')) ∧
    ∀ {ε₀ σ₀ : Type} (leaf : Leaf → EStateM ε₀ σ₀ Unit),
      shape.walk { leaf } =
        forM ((shape.callsOn visitor state).filterMap Call.leaf?) leaf := by
  classical
  have hkept := callsOn_eq_withoutClosed hopen hcloses hstate hstate' shape
  refine ⟨hkept, fun hsubset => ?_,
    fun leaf => walk_leaf_eq_forM hopen hstate leaf shape⟩
  rw [hkept, callsOn_eq_withoutClosed hopen hcloses' hstate hstate'' shape]
  exact keptCalls_sublist hsubset Option.none_le _

end Results

/-- A recorder that closes the gate of an element, one that closes also the
gates of values, and one that has only a call for leaves. -/
theorem callsOn_of_closes_tagged :
    Visitor.silent.AllOpen (fun _ => True) ∧
    ({ closed := ["should_visit_element:array"] } : Recorder).visitor.Closes
      {label | label ∈ ["should_visit_element:array"]}
      (fun recording => recording.script = []) ∧
    ({ closed := ["should_visit_element:array", "should_visit_value"] } :
      Recorder).visitor.Closes
      {label | label ∈ ["should_visit_element:array", "should_visit_value"]}
      (fun recording => recording.script = []) ∧
    tagged.callsOn
      ({ closed := ["should_visit_element:array"] } : Recorder).visitor {} =
      withoutClosed {label | label ∈ ["should_visit_element:array"]}
        (tagged.callsOn Visitor.silent ()) ∧
    (tagged.callsOn
      ({ closed := ["should_visit_element:array"] } : Recorder).visitor
      {}).length + 1 = (tagged.callsOn Visitor.silent ()).length ∧
    (tagged.callsOn ({ closed :=
      ["should_visit_element:array", "should_visit_value"] } : Recorder).visitor
      {}).Sublist (tagged.callsOn
        ({ closed := ["should_visit_element:array"] } : Recorder).visitor {}) ∧
    tagged.walk ({} : Recorder).leafVisitor =
      forM [.scalar .string, .custom ⟨⟨"Tag", by decide⟩, [], 0⟩]
        fun content => ({} : Recorder).note (.leaf content) := by
  have hopen := Visitor.allOpen_silent
  have hcloses := Recorder.closes ["should_visit_element:array"]
  have hcloses' :=
    Recorder.closes ["should_visit_element:array", "should_visit_value"]
  have hscript : ({} : Recording).script = [] := rfl
  obtain ⟨hkept, hless, hleaves⟩ :=
    callsOn_of_closes hopen hcloses hcloses' trivial hscript hscript tagged
  refine ⟨hopen, hcloses, hcloses', hkept, by decide +kernel, hless ?_, ?_⟩
  · intro label hlabel
    simp_all
  · refine (hleaves fun content => ({} : Recorder).note (.leaf content)).trans
      ?_
    rw [show (tagged.callsOn Visitor.silent ()).filterMap Call.leaf? =
      [.scalar .string, .custom ⟨⟨"Tag", by decide⟩, [], 0⟩] by decide +kernel]

end Shape

end TypeShape
