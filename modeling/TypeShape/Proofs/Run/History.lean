import TypeShape.Proofs.Run.Comparison

/-!
What a run does in view of what was done before.  A discipline says which
question may be asked after which steps, and with which fault a run may end
after which steps.  Runs that are put one after another follow a discipline if
each of them does after the steps that were made before it.
-/
namespace TypeShape

/-- The questions among some steps, in order. -/
def questionsAmong (steps : List Step) : List Question :=
  steps.filterMap Step.question?

@[simp] theorem questionsAmong_nil : questionsAmong [] = [] := rfl

@[simp] theorem questionsAmong_asked (question : Question) (rest : List Step) :
    questionsAmong (.asked question :: rest) =
      question :: questionsAmong rest :=
  rfl

@[simp] theorem questionsAmong_append (steps steps' : List Step) :
    questionsAmong (steps ++ steps') =
      questionsAmong steps ++ questionsAmong steps' :=
  List.filterMap_append

theorem questionsAmong_cons_of_quiet {step : Step} (h : step.question? = none)
    (rest : List Step) : questionsAmong (step :: rest) = questionsAmong rest :=
  List.filterMap_cons_none h

theorem questionsAmong_append_quiet {step : Step} (h : step.question? = none)
    (steps : List Step) :
    questionsAmong (steps ++ [step]) = questionsAmong steps := by
  rw [questionsAmong_append, questionsAmong_cons_of_quiet h, questionsAmong_nil,
    List.append_nil]

/-- A question stands among the questions where it was asked among the steps. -/
theorem exists_asked_of_questionsAmong {steps : List Step}
    {before after : List Question} {question : Question}
    (h : questionsAmong steps = before ++ question :: after) :
    ∃ earlier later, steps = earlier ++ .asked question :: later ∧
      questionsAmong earlier = before ∧
      questionsAmong later = after := by
  obtain ⟨earlier, rest, rfl, hbefore, hrest⟩ :=
    List.filterMap_eq_append_iff.1 h
  obtain ⟨quiet, step, later, rfl, hquiet, hstep, hafter⟩ :=
    List.filterMap_eq_cons_iff.1 hrest
  have hasked : step = .asked question := by
    cases step <;> simp_all [Step.question?]
  have hnone : questionsAmong quiet = [] := List.filterMap_eq_nil_iff.2 hquiet
  refine ⟨earlier ++ quiet, later, by rw [hasked, List.append_assoc], ?_,
    hafter⟩
  rw [questionsAmong_append, hnone, List.append_nil]
  exact hbefore

theorem append_eq_append_cons_cases {α : Type} {xs ys before after : List α}
    {x : α} (h : xs ++ ys = before ++ x :: after) :
    (∃ rest, xs = before ++ x :: rest) ∨
    ∃ rest, before = xs ++ rest ∧ ys = rest ++ x :: after := by
  rcases List.append_eq_append_iff.1 h with
    ⟨rest, hbefore, hys⟩ | ⟨rest, hxs, hafter⟩
  · exact Or.inr ⟨rest, hbefore, hys⟩
  · cases rest with
    | nil =>
        exact Or.inr
          ⟨[], by rw [hxs, List.append_nil, List.append_nil], hafter.symm⟩
    | cons first rest =>
        obtain ⟨rfl, -⟩ := List.cons.inj hafter
        exact Or.inl ⟨rest, hxs⟩

/-- What may be asked and with what may be failed after some steps.  To leave
what was begun makes no difference to a failure. -/
structure Discipline where
  asks : List Step → Question → Prop
  fails : List Step → ResolveFault → Prop
  fails_leave : ∀ {past fault} (last : Step),
    last.question? = none → fails past fault → fails (past ++ [last]) fault

namespace Run

variable {α β ε : Type} {rules : Discipline} {past : List Step}

/-- A run of two parts has a value only if both have one, and then it makes the
steps of both. -/
theorem exists_of_bind_ok {run : Run α} {next : α → Run β} {b : β}
    (h : (run >>= next).outcome = .ok b) :
    ∃ a, run.outcome = .ok a ∧ (next a).outcome = .ok b ∧
      (run >>= next).steps = run.steps ++ (next a).steps := by
  rcases run.ok_or_error with ⟨a, ha⟩ | ⟨fault, hfault⟩
  · rw [bind_of_ok ha] at h ⊢
    exact ⟨a, ha, h, rfl⟩
  · rw [bind_of_error hfault] at h
    cases h

/-- After some steps, the run asks and fails as the discipline has it, and after
all steps a value that it has is of the given kind. -/
structure Follows (rules : Discipline) (past : List Step)
    (kind : List Step → α → Prop) (run : Run α) : Prop where
  asks : ∀ before question after,
    run.steps = before ++ .asked question :: after →
    rules.asks (past ++ before) question
  fails :
    ∀ fault, run.outcome = .error fault → rules.fails (past ++ run.steps) fault
  value : ∀ a, run.outcome = .ok a → kind (past ++ run.steps) a

theorem Follows.pure {kind : List Step → α → Prop} {a : α} (h : kind past a) :
    (Pure.pure a : Run α).Follows rules past kind where
  asks _ _ _ hsteps :=
    absurd hsteps.symm (List.append_ne_nil_of_right_ne_nil _ nofun)
  fails := nofun
  value _ hvalue := by
    cases hvalue
    exact (List.append_nil past).symm ▸ h

theorem Follows.fail {kind : List Step → α → Prop} {fault : ResolveFault}
    (h : rules.fails past fault) :
    (Run.fail fault).Follows rules past kind where
  asks _ _ _ hsteps :=
    absurd hsteps.symm (List.append_ne_nil_of_right_ne_nil _ nofun)
  fails _ hfault := by
    cases hfault
    exact (List.append_nil past).symm ▸ h
  value := nofun

theorem Follows.bind {kind : List Step → α → Prop}
    {kind' : List Step → β → Prop} {run : Run α} {next : α → Run β}
    (h : run.Follows rules past kind)
    (hnext : ∀ a, run.outcome = .ok a → kind (past ++ run.steps) a →
      (next a).Follows rules (past ++ run.steps) kind') :
    (run >>= next).Follows rules past kind' := by
  rcases run.ok_or_error with ⟨a, ha⟩ | ⟨fault, hfault⟩
  · have hnext := hnext a ha (h.value a ha)
    rw [bind_of_ok ha]
    refine ⟨?_, fun fault hfault => ?_, fun b hb => ?_⟩
    · intro before question after hsteps
      rcases append_eq_append_cons_cases hsteps with
        ⟨rest, hrun⟩ | ⟨rest, rfl, hrest⟩
      · exact h.asks before question rest hrun
      · rw [← List.append_assoc]
        exact hnext.asks rest question after hrest
    · exact List.append_assoc past _ _ ▸ hnext.fails fault hfault
    · exact List.append_assoc past _ _ ▸ hnext.value b hb
  · rw [bind_of_error hfault]
    refine ⟨h.asks, ?_, nofun⟩
    intro fault' hfault'
    cases hfault'
    exact h.fails fault hfault

/-- A run between two steps that ask nothing. -/
theorem Follows.between {kind kind' : List Step → α → Prop} {run : Run α}
    {first last : Step} (hfirst : first.question? = none)
    (hlast : last.question? = none)
    (h : run.Follows rules (past ++ [first]) kind)
    (hkind : ∀ past' a, kind past' a → kind' (past' ++ [last]) a) :
    (run.between first last).Follows rules past kind' := by
  have hend : past ++ (run.between first last).steps =
      past ++ [first] ++ run.steps ++ [last] := by
    simp [Run.between]
  refine ⟨?_, fun fault hfault => ?_, fun a ha => ?_⟩
  · intro before question after hsteps
    have hquiet : ∀ {step : Step},
        step.question? = none → ¬ step = .asked question := by
      rintro _ hnone rfl
      cases hnone
    rcases append_eq_append_cons_cases hsteps with
      ⟨rest, hrun⟩ | ⟨rest, rfl, hrest⟩
    · cases before with
      | nil => exact absurd (List.cons.inj hrun).1 (hquiet hfirst)
      | cons step before =>
          obtain ⟨rfl, hinside⟩ := List.cons.inj hrun
          rw [List.append_cons]
          exact h.asks before question rest hinside
    · have hmem : Step.asked question ∈ [last] :=
        hrest ▸ List.mem_append_cons_self
      exact absurd (List.mem_singleton.1 hmem).symm (hquiet hlast)
  · rw [hend]
    exact rules.fails_leave last hlast (h.fails fault hfault)
  · rw [hend]
    exact hkind _ a (h.value a ha)

/-- Where one question is all that is asked, nothing comes before it. -/
theorem asks_of_singleton {question : Question}
    (hasks : rules.asks past question) {before after : List Step}
    {asked : Question}
    (h : [.asked question] = before ++ .asked asked :: after) :
    rules.asks (past ++ before) asked := by
  rcases List.singleton_eq_append_iff.1 h with ⟨rfl, hlast⟩ | ⟨-, hnone⟩
  · cases hlast
    exact (List.append_nil past).symm ▸ hasks
  · cases hnone

/-- A question may be asked, and what comes next does so after it. -/
theorem Follows.ask_bind {kind : List Step → β → Prop} {question : Question}
    {answer : α} {next : α → Run β} (hasks : rules.asks past question)
    (hnext : (next answer).Follows rules (past ++ [.asked question]) kind) :
    (Run.ask question answer >>= next).Follows rules past kind := by
  have hquestion : (Run.ask question answer).Follows rules past
      (fun _ _ => True) :=
    ⟨fun _ _ _ => asks_of_singleton hasks, nofun, fun _ _ => trivial⟩
  apply Follows.bind hquestion
  rintro _ ⟨⟩ -
  exact hnext

/-- A question may be asked, the provider may fail at it, and what comes next
does so after an answer. -/
theorem Follows.askOrFail_bind {kind : List Step → β → Prop}
    {question : Question} {answer : Except String α} {next : α → Run β}
    (hasks : rules.asks past question)
    (hfails : ∀ reason, answer = .error reason → rules.fails
      (past ++ [.asked question]) (.lookupFailed question.subject reason))
    (hnext : ∀ a, answer = .ok a →
      (next a).Follows rules (past ++ [.asked question]) kind) :
    (Run.askOrFail question answer >>= next).Follows rules past kind := by
  cases answer with
  | ok a => exact Follows.ask_bind hasks (hnext a rfl)
  | error reason =>
      refine ⟨fun _ _ _ => asks_of_singleton hasks, ?_, nofun⟩
      rintro _ ⟨⟩
      exact hfails reason rfl

theorem Follows.ofExcept {kind : List Step → α → Prop}
    {outcome : Except TypeExpr.Fault α}
    (hfails : ∀ fault, rules.fails past (.badExpr fault))
    (hkind : ∀ a, kind past a) :
    (Run.ofExcept (outcome.mapError ResolveFault.badExpr)).Follows rules past
      kind := by
  cases outcome with
  | error fault => exact Follows.fail (hfails fault)
  | ok a => exact Follows.pure (hkind a)

theorem Follows.foldlM {kind : List Step → β → Prop} {step : β → ε → Run β}
    {items : List ε} {start : β}
    (hstep : ∀ item ∈ items,
      ∀ past b, kind past b → (step b item).Follows rules past kind)
    (hstart : kind past start) :
    (items.foldlM step start).Follows rules past kind := by
  induction items generalizing past start with
  | nil => exact Follows.pure hstart
  | cons item rest ih =>
      simp only [List.foldlM_cons]
      apply Follows.bind (hstep item List.mem_cons_self past start hstart)
      intro b _ hb
      exact ih
        (fun other hother => hstep other (List.mem_cons_of_mem item hother)) hb

end Run

end TypeShape
