import TypeShape.Run

/-!
Comparing two runs.  A comparison says what has to hold between two runs when
their values are related in some way; it is kept when runs are put one after
another, so what holds of the single steps of two resolutions holds of the
whole.
-/
namespace TypeShape

/-- A way of comparing two runs that is kept by everything a run is built
from.  Only the faults that resolvers of every kind raise by themselves have
to be comparable to themselves. -/
structure Comparison where
  Holds : ∀ {α β : Type}, (α → β → Prop) → Run α → Run β → Prop
  pure : ∀ {α β : Type} {S : α → β → Prop} {a : α} {b : β},
    S a b → Holds S (Pure.pure a) (Pure.pure b)
  bind : ∀ {α β γ δ : Type} {S : α → β → Prop} {T : γ → δ → Prop}
    {run : Run α} {run' : Run β} {next : α → Run γ} {next' : β → Run δ},
    Holds S run run' → (∀ a b, S a b → Holds T (next a) (next' b)) →
      Holds T (run >>= next) (run' >>= next')
  badExpr : ∀ {α β : Type} {S : α → β → Prop} (fault : TypeExpr.Fault),
    Holds S (.fail (.badExpr fault)) (.fail (.badExpr fault))
  expanding : ∀ {α β : Type} {S : α → β → Prop} {run : Run α} {run' : Run β}
    (signature : String), Holds S run run' →
      Holds S (run.between (.expand signature) (.expanded signature))
        (run'.between (.expand signature) (.expanded signature))

namespace Comparison

variable (C : Comparison) {α β ε : Type}

theorem imp {S T : α → β → Prop} {run : Run α} {run' : Run β}
    (h : C.Holds S run run') (himp : ∀ a b, S a b → T a b) :
    C.Holds T run run' := by
  have hbind := C.bind h (fun a b hab => C.pure (himp a b hab))
  simpa only [bind_pure] using hbind

/-- Two folds over one list are compared step by step. -/
theorem foldlM {S : α → β → Prop} {step : α → ε → Run α} {step' : β → ε → Run β}
    (hstep : ∀ a b item, S a b → C.Holds S (step a item) (step' b item))
    (items : List ε) {start : α} {start' : β} (hstart : S start start') :
    C.Holds S (items.foldlM step start) (items.foldlM step' start') := by
  induction items generalizing start start' with
  | nil => exact C.pure hstart
  | cons item rest ih =>
      simp only [List.foldlM_cons]
      exact C.bind (hstep start start' item hstart) (fun a b hab => ih hab)

/-- Reading an expression asks nothing, so both runs come to the same
expression or to the same fault. -/
theorem ofExcept_badExpr (outcome : Except TypeExpr.Fault α) :
    C.Holds Eq (Run.ofExcept (outcome.mapError ResolveFault.badExpr))
      (Run.ofExcept (outcome.mapError ResolveFault.badExpr)) := by
  cases outcome with
  | error fault => exact C.badExpr fault
  | ok a => exact C.pure rfl

end Comparison

namespace Run

variable {α β γ δ : Type}

@[ext] theorem ext {run run' : Run α} (hsteps : run.steps = run'.steps)
    (houtcome : run.outcome = run'.outcome) : run = run' := by
  cases run
  cases run'
  congr

/-- Both outcomes are values that are related, or both are the same fault. -/
def SameEnd (S : α → β → Prop) (outcome : Except ResolveFault α)
    (outcome' : Except ResolveFault β) : Prop :=
  (∃ a b, outcome = .ok a ∧ outcome' = .ok b ∧ S a b) ∨
    ∃ fault, outcome = .error fault ∧ outcome' = .error fault

theorem sameEnd_eq_iff {outcome outcome' : Except ResolveFault α} :
    SameEnd Eq outcome outcome' ↔ outcome = outcome' := by
  constructor
  · rintro (⟨a, _, ha, hb, rfl⟩ | ⟨fault, hfault, hfault'⟩)
    · rw [ha, hb]
    · rw [hfault, hfault']
  · rintro rfl
    cases outcome with
    | ok a => exact Or.inl ⟨a, a, rfl, rfl, rfl⟩
    | error fault => exact Or.inr ⟨fault, rfl, rfl⟩

theorem ok_or_error (run : Run α) :
    (∃ a, run.outcome = .ok a) ∨ ∃ fault, run.outcome = .error fault := by
  cases h : run.outcome with
  | ok a => exact Or.inl ⟨a, rfl⟩
  | error fault => exact Or.inr ⟨fault, rfl⟩

@[simp] theorem outcome_between (first last : Step) (run : Run α) :
    (run.between first last).outcome = run.outcome := rfl

/-- A value that is only built from that of a run does not change how the run
fails. -/
theorem outcome_bind_pure (run : Run α) (f : α → β) :
    (run >>= fun a => pure (f a)).outcome = run.outcome.map f := by
  rcases run.ok_or_error with ⟨a, ha⟩ | ⟨fault, hfault⟩
  · rw [bind_of_ok ha, ha]
    rfl
  · rw [bind_of_error hfault, hfault]
    rfl

theorem questions_between {first last : Step} (hfirst : first.question? = none)
    (hlast : last.question? = none) (run : Run α) :
    (run.between first last).questions = run.questions := by
  simp [questions, between, hfirst, hlast]

theorem questions_bind_of_ok {run : Run α} {a : α} (h : run.outcome = .ok a)
    (next : α → Run β) :
    (run >>= next).questions = run.questions ++ (next a).questions := by
  rw [bind_of_ok h]
  simp [questions]

theorem questions_bind_of_error {run : Run α} {fault : ResolveFault}
    (h : run.outcome = .error fault) (next : α → Run β) :
    (run >>= next).questions = run.questions := by
  rw [bind_of_error h]
  rfl

theorem questions_bind_pure (run : Run α) (f : α → β) :
    (run >>= fun a => pure (f a)).questions = run.questions := by
  rcases run.ok_or_error with ⟨a, ha⟩ | ⟨fault, hfault⟩
  · rw [questions_bind_of_ok ha]
    exact List.append_nil _
  · rw [questions_bind_of_error hfault]

/-- Two runs make the same steps and come to the same end, but for related
values. -/
def SameButFor (S : α → β → Prop) (run : Run α) (run' : Run β) : Prop :=
  run.steps = run'.steps ∧ SameEnd S run.outcome run'.outcome

theorem sameButFor_eq_iff {run run' : Run α} :
    run.SameButFor Eq run' ↔ run = run' := by
  constructor
  · rintro ⟨hsteps, hend⟩
    exact ext hsteps (sameEnd_eq_iff.1 hend)
  · rintro rfl
    exact ⟨rfl, sameEnd_eq_iff.2 rfl⟩

/-- What comes after two runs has to be the same only after a value that the
first of them has. -/
theorem SameButFor.bind {S : α → β → Prop} {T : γ → δ → Prop} {run : Run α}
    {run' : Run β} {next : α → Run γ} {next' : β → Run δ}
    (h : run.SameButFor S run')
    (hnext : ∀ a b,
      run.outcome = .ok a → S a b → (next a).SameButFor T (next' b)) :
    (run >>= next).SameButFor T (run' >>= next') := by
  obtain ⟨hsteps, ⟨a, b, ha, hb, hab⟩ | ⟨fault, hf, hf'⟩⟩ := h
  · rw [bind_of_ok ha, bind_of_ok hb]
    obtain ⟨hsteps', hend⟩ := hnext a b ha hab
    refine ⟨?_, hend⟩
    change run.steps ++ (next a).steps = run'.steps ++ (next' b).steps
    rw [hsteps, hsteps']
  · rw [bind_of_error hf, bind_of_error hf']
    exact ⟨hsteps, Or.inr ⟨fault, rfl, rfl⟩⟩

theorem SameButFor.between {S : α → β → Prop} {run : Run α} {run' : Run β}
    (h : run.SameButFor S run') (first last : Step) :
    (run.between first last).SameButFor S (run'.between first last) :=
  ⟨by rw [Run.between, Run.between, h.1], h.2⟩

/-- Whatever comes after a run, its steps were made first. -/
theorem steps_isPrefix_bind (run : Run α) (next : α → Run β) :
    run.steps <+: (run >>= next).steps := by
  rcases run.ok_or_error with ⟨a, ha⟩ | ⟨fault, hfault⟩
  · rw [bind_of_ok ha]
    exact List.prefix_append _ _
  · simp only [bind_of_error hfault, List.prefix_refl]

/-- What begins with a step does not fail without one. -/
theorem fail_ne_between_bind (fault : ResolveFault) (first last : Step)
    (run : Run α) (next : α → Run β) :
    fail fault ≠ run.between first last >>= next := by
  intro h
  have hprefix := (run.between first last).steps_isPrefix_bind next
  rw [← h] at hprefix
  exact List.cons_ne_nil _ _ (List.prefix_nil.1 hprefix)

/-- Whatever comes after a run, the questions of that run were asked first. -/
theorem questions_isPrefix_bind (run : Run α) (next : α → Run β) :
    run.questions <+: (run >>= next).questions :=
  (run.steps_isPrefix_bind next).filterMap Step.question?

end Run

end TypeShape
