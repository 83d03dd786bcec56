import TypeShape.Proofs.Run.Comparison

/-!
What a run keeps to.  Terms say which steps a run may make and which faults it
may end with.  Runs that are put one after another keep to the terms that each
of them keeps to, and what is known of the value of one may be used for the
next.
-/
namespace TypeShape

/-- Terms for runs: the steps they may make and the faults they may end with. -/
structure Terms where
  step : Step → Prop
  fault : ResolveFault → Prop

/-- Terms that say nothing about questions and expansions and allow every fault
that is no matter of where an expression is met. -/
structure Terms.Liberal (terms : Terms) : Prop where
  asked : ∀ question, terms.step (.asked question)
  expand : ∀ signature, terms.step (.expand signature)
  expanded : ∀ signature, terms.step (.expanded signature)
  badExpr : ∀ fault, terms.fault (.badExpr fault)
  unknownType : ∀ name, terms.fault (.unknownType name)
  lookupFailed : ∀ name reason, terms.fault (.lookupFailed name reason)

def anyTerms : Terms where
  step _ := True
  fault _ := True

theorem liberal_anyTerms : anyTerms.Liberal :=
  ⟨fun _ => trivial, fun _ => trivial, fun _ => trivial, fun _ => trivial,
    fun _ => trivial, fun _ _ => trivial⟩

namespace Run

variable {α β ε : Type} {terms : Terms}

/-- The run keeps to the terms, and a value that it has is of the given kind. -/
structure Meets (terms : Terms) (kind : α → Prop) (run : Run α) : Prop where
  step : ∀ step ∈ run.steps, terms.step step
  fault : ∀ fault, run.outcome = .error fault → terms.fault fault
  value : ∀ a, run.outcome = .ok a → kind a

theorem Meets.pure {kind : α → Prop} {a : α} (h : kind a) :
    (Pure.pure a : Run α).Meets terms kind where
  step := nofun
  fault := nofun
  value _ hvalue := by
    cases hvalue
    exact h

theorem Meets.fail {kind : α → Prop} {fault : ResolveFault}
    (h : terms.fault fault) : (Run.fail fault).Meets terms kind where
  step := nofun
  fault _ hfault := by
    cases hfault
    exact h
  value := nofun

theorem Meets.bind {kind : α → Prop} {kind' : β → Prop} {run : Run α}
    {next : α → Run β} (h : run.Meets terms kind)
    (hnext : ∀ a, kind a → (next a).Meets terms kind') :
    (run >>= next).Meets terms kind' := by
  rcases run.ok_or_error with ⟨a, ha⟩ | ⟨fault, hfault⟩
  · have hnext := hnext a (h.value a ha)
    rw [bind_of_ok ha]
    refine ⟨?_, hnext.fault, hnext.value⟩
    intro step hstep
    rcases List.mem_append.1 hstep with hstep | hstep
    · exact h.step step hstep
    · exact hnext.step step hstep
  · rw [bind_of_error hfault]
    refine ⟨h.step, ?_, nofun⟩
    intro fault' hfault'
    cases hfault'
    exact h.fault fault hfault

theorem Meets.between {kind : α → Prop} {run : Run α} {first last : Step}
    (h : run.Meets terms kind) (hfirst : terms.step first)
    (hlast : terms.step last) : (run.between first last).Meets terms kind := by
  refine ⟨?_, h.fault, h.value⟩
  intro step hstep
  have hmem : step = first ∨ step ∈ run.steps ∨ step = last := by
    simpa [Run.between] using hstep
  rcases hmem with rfl | hinside | rfl
  · exact hfirst
  · exact h.step step hinside
  · exact hlast

/-- A question leaves its answer known. -/
theorem Meets.ask (hterms : terms.Liberal) (question : Question) (answer : α) :
    (Run.ask question answer).Meets terms (answer = ·) := by
  refine ⟨?_, nofun, ?_⟩
  · intro step hstep
    rw [List.mem_singleton.1 hstep]
    exact hterms.asked question
  · intro a ha
    exact Except.ok.inj ha

theorem Meets.askOrFail (hterms : terms.Liberal) (question : Question)
    (answer : Except String α) :
    (Run.askOrFail question answer).Meets terms (answer = .ok ·) := by
  refine ⟨?_, ?_, ?_⟩
  · intro step hstep
    rw [List.mem_singleton.1 hstep]
    exact hterms.asked question
  · intro fault hfault
    cases answer with
    | error reason =>
        cases hfault
        exact hterms.lookupFailed _ _
    | ok a => cases hfault
  · intro a ha
    cases answer with
    | error reason => cases ha
    | ok b => exact congrArg Except.ok (Except.ok.inj ha)

theorem Meets.ofExcept (hterms : terms.Liberal)
    (outcome : Except TypeExpr.Fault α) :
    (Run.ofExcept (outcome.mapError ResolveFault.badExpr)).Meets terms
      (outcome = .ok ·) := by
  cases outcome with
  | error fault => exact Meets.fail (hterms.badExpr fault)
  | ok a => exact Meets.pure rfl

theorem Meets.foldlM {kind : β → Prop} {step : β → ε → Run β} {items : List ε}
    {start : β}
    (hstep : ∀ item ∈ items, ∀ b, kind b → (step b item).Meets terms kind)
    (hstart : kind start) : (items.foldlM step start).Meets terms kind := by
  induction items generalizing start with
  | nil => exact Meets.pure hstart
  | cons item rest ih =>
      simp only [List.foldlM_cons]
      apply Meets.bind (hstep item List.mem_cons_self start hstart)
      intro b hb
      exact ih
        (fun other hother => hstep other (List.mem_cons_of_mem item hother)) hb

end Run

end TypeShape
