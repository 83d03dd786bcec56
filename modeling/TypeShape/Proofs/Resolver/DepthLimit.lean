import Mathlib
import TypeShape.Proofs.Resolver.Congruence

/-!
The limit on the depth of a resolution.  A limit can only cut a resolution
short: it never changes an answer that is reached within it, and up to the cut
the same questions are asked as under any larger limit.
-/
namespace TypeShape

def ResolveFault.isTooDeep : ResolveFault → Bool
  | tooDeep _ _ => true
  | _ => false

namespace Run

variable {α β γ δ : Type}

/-- The run was cut at the limit. -/
def CutAt (limit : Nat) (run : Run α) : Prop :=
  ∃ signature, run.outcome = .error (.tooDeep limit signature)

/-- The run came to an end of its own, with a value or with a fault. -/
def Finished (run : Run α) : Prop :=
  ∀ fault, run.outcome = .error fault → fault.isTooDeep = false

theorem CutAt.bind {limit : Nat} {run : Run α} (h : run.CutAt limit)
    (next : α → Run β) : (run >>= next).CutAt limit := by
  obtain ⟨signature, hcut⟩ := h
  exact ⟨signature, by rw [bind_of_error hcut]⟩

theorem CutAt.bind_of_ok {limit : Nat} {run : Run α} {a : α} {next : α → Run β}
    (h : (next a).CutAt limit) (ha : run.outcome = .ok a) :
    (run >>= next).CutAt limit := by
  obtain ⟨signature, hcut⟩ := h
  exact ⟨signature, by rw [Run.bind_of_ok ha]; exact hcut⟩

theorem finished_of_ok {run : Run α} {a : α} (h : run.outcome = .ok a) :
    run.Finished := by
  intro fault hfault
  rw [h] at hfault
  cases hfault

theorem finished_askOrFail (question : Question) (answer : Except String α) :
    (askOrFail question answer).Finished := by
  intro fault hfault
  cases answer with
  | error reason =>
      cases hfault
      rfl
  | ok a => cases hfault

/-- The second run goes on where the first one is cut, and is the same as the
first one if that is not cut. -/
def ContinuedBy (limit : Nat) (S : α → β → Prop) (short : Run α)
    (long : Run β) : Prop :=
  short.CutAt limit ∧ short.questions <+: long.questions ∨
  short.Finished ∧
  short.questions = long.questions ∧
  SameEnd S short.outcome long.outcome

theorem continuedBy_self {limit : Nat} {run : Run α} (h : run.Finished) :
    run.ContinuedBy limit Eq run :=
  Or.inr ⟨h, rfl, sameEnd_eq_iff.2 rfl⟩

theorem continuedBy_fail {limit : Nat} {S : α → β → Prop} {fault : ResolveFault}
    (h : fault.isTooDeep = false) :
    (fail fault : Run α).ContinuedBy limit S (fail fault : Run β) := by
  refine Or.inr ⟨?_, rfl, Or.inr ⟨fault, rfl, rfl⟩⟩
  intro fault' hfault
  cases hfault
  exact h

theorem ContinuedBy.bind {limit : Nat} {S : α → β → Prop} {T : γ → δ → Prop}
    {short : Run α} {long : Run β} {next : α → Run γ} {next' : β → Run δ}
    (h : short.ContinuedBy limit S long)
    (hnext : ∀ a b, S a b → (next a).ContinuedBy limit T (next' b)) :
    (short >>= next).ContinuedBy limit T (long >>= next') := by
  rcases h with
    ⟨hcut, hprefix⟩ |
      ⟨hfinished, hquestions, ⟨a, b, ha, hb, hab⟩ | ⟨fault, hf, hf'⟩⟩
  · refine Or.inl ⟨hcut.bind next, ?_⟩
    obtain ⟨signature, hcut⟩ := hcut
    rw [questions_bind_of_error hcut]
    exact hprefix.trans (questions_isPrefix_bind long next')
  · rcases hnext a b hab with ⟨hcut, hprefix⟩ | ⟨hfinished', hquestions', hend⟩
    · refine Or.inl ⟨hcut.bind_of_ok ha, ?_⟩
      rw [questions_bind_of_ok ha, questions_bind_of_ok hb, hquestions]
      exact (List.prefix_append_right_inj _).2 hprefix
    · refine Or.inr ⟨?_, ?_, ?_⟩
      · rw [Finished, bind_of_ok ha]
        exact hfinished'
      · rw [questions_bind_of_ok ha, questions_bind_of_ok hb, hquestions,
          hquestions']
      · rw [bind_of_ok ha, bind_of_ok hb]
        exact hend
  · refine Or.inr ⟨?_, ?_, Or.inr ⟨fault, ?_, ?_⟩⟩
    · rw [Finished, bind_of_error hf]
      intro fault' hfault
      cases hfault
      exact hfinished fault hf
    · rw [questions_bind_of_error hf, questions_bind_of_error hf', hquestions]
    · rw [bind_of_error hf]
    · rw [bind_of_error hf']

theorem ContinuedBy.between {limit : Nat} {S : α → β → Prop} {short : Run α}
    {long : Run β} (h : short.ContinuedBy limit S long)
    {first last first' last' : Step} (hfirst : first.question? = none)
    (hlast : last.question? = none) (hfirst' : first'.question? = none)
    (hlast' : last'.question? = none) :
    (short.between first last).ContinuedBy limit S
      (long.between first' last') := by
  rw [ContinuedBy, questions_between hfirst hlast,
    questions_between hfirst' hlast']
  exact h

end Run

/-- A run under a limit compared with the run under a larger one. -/
def continuation (limit : Nat) : Comparison where
  Holds := Run.ContinuedBy limit
  pure h := Or.inr ⟨Run.finished_of_ok rfl, rfl, Or.inl ⟨_, _, rfl, rfl, h⟩⟩
  bind h hnext := h.bind hnext
  badExpr _ := Run.continuedBy_fail rfl
  expanding _ h := h.between rfl rfl rfl rfl

namespace Resolver

def limitedTo (resolver : Resolver) (limit : Nat) : Resolver :=
  { resolver with settings := { resolver.settings with maxDepth := limit } }

variable (resolver : Resolver)

theorem finished_resolveUnknown (expr : TypeExpr) :
    (resolver.resolveUnknown expr).Finished := by
  intro fault hfault
  unfold resolveUnknown at hfault
  split at hfault
  · cases hfault
    rfl
  · cases hfault
  · cases hfault

theorem suits_continuation (short long : Nat) :
    Suits (continuation short) Eq (resolver.limitedTo short)
      (resolver.limitedTo long) where
  scalar _ := Run.continuedBy_self (Run.finished_of_ok rfl)
  category _ := Run.continuedBy_self (Run.finished_askOrFail _ _)
  typeVars _ := Run.continuedBy_self (Run.finished_askOrFail _ _)
  fields _ := Run.continuedBy_self (Run.finished_askOrFail _ _)
  methods _ := Run.continuedBy_self (Run.finished_askOrFail _ _)
  extraction := rfl
  registry _ := rfl
  unknown expr := Run.continuedBy_self (resolver.finished_resolveUnknown expr)

/-- With fewer levels left a resolution is cut, or else it is the same. -/
theorem resolveWithin_continuedBy (short long : Nat) {left left' : Nat}
    (hle : left ≤ left') (enclosing : List String) (expr : TypeExpr) :
    ((resolver.limitedTo short).resolveWithin left enclosing expr).ContinuedBy
      short Eq
      ((resolver.limitedTo long).resolveWithin left' enclosing expr) := by
  induction left generalizing left' enclosing expr with
  | zero => exact Or.inl ⟨⟨expr.signature, rfl⟩, List.nil_prefix⟩
  | succ left ih =>
      obtain ⟨left', rfl⟩ : ∃ n, left' = n + 1 := ⟨left' - 1, by omega⟩
      have hbelow := ih (Nat.le_of_succ_le_succ hle)
      refine Run.ContinuedBy.between ?_ rfl rfl rfl rfl
      refine resolveLevel_holds (C := continuation short) shapeCongruence_eq
        (resolver.suits_continuation short long) (hbelow enclosing)
        (hbelow (expr.signature :: enclosing)) ?_ id
      exact fun hrefuses => refused_holds hrefuses (Run.continuedBy_fail rfl)

theorem run_continuedBy {n m : Nat} (hle : n ≤ m) (request : Request) :
    ((resolver.limitedTo n).run request).ContinuedBy n Eq
      ((resolver.limitedTo m).run request) :=
  run_holds (C := continuation n) shapeCongruence_eq contribution_related_eq
    (fun expr => resolver.resolveWithin_continuedBy n m hle [] expr) request

/-- The limit on the depth only cuts.  A run that is not cut under a limit is
under every larger limit the same: it asks the same questions in the same order
and comes to the same shape or the same fault.  A run that is cut names its
limit, and its questions are the first ones of the run under any larger
limit. -/
theorem run_limitedTo_of_le {n m : Nat} (hle : n ≤ m) (request : Request) :
    ((∀ limit signature,
      ((resolver.limitedTo n).run request).outcome ≠
        .error (.tooDeep limit signature)) →
      ((resolver.limitedTo m).run request).outcome =
        ((resolver.limitedTo n).run request).outcome ∧
      ((resolver.limitedTo m).run request).questions =
        ((resolver.limitedTo n).run request).questions) ∧
    (∀ limit signature,
      ((resolver.limitedTo n).run request).outcome =
        .error (.tooDeep limit signature) →
      limit = n ∧
        ((resolver.limitedTo n).run request).questions <+:
          ((resolver.limitedTo m).run request).questions) ∧
    ∀ shape, ((resolver.limitedTo n).run request).outcome = .ok shape →
      ((resolver.limitedTo m).run request).outcome = .ok shape := by
  rcases resolver.run_continuedBy hle request with
    ⟨⟨cutAt, hcut⟩, hprefix⟩ | ⟨hfinished, hquestions, hend⟩
  · refine ⟨fun huncut => absurd hcut (huncut n cutAt), ?_, ?_⟩
    · intro limit signature houtcome
      rw [hcut] at houtcome
      cases houtcome
      exact ⟨rfl, hprefix⟩
    · intro shape houtcome
      rw [hcut] at houtcome
      cases houtcome
  · have houtcome := Run.sameEnd_eq_iff.1 hend
    refine ⟨fun _ => ⟨houtcome.symm, hquestions.symm⟩, ?_, ?_⟩
    · intro limit signature hcut
      have hnot := hfinished _ hcut
      cases hnot
    · intro shape hshape
      rw [← houtcome, hshape]

/-- A provider for whom every name but the scalars' is a record with a field
that holds the record of the record. -/
def growing : Provider where
  category _ := .ok (some .record)
  typeVars _ := .ok ["T"]
  fields _ := .ok [⟨"next", "A<A<T>>"⟩]

/-- Three levels are too few for a type that grows at every level, and its
first questions are those of the run with five.  For an array two are enough. -/
theorem growing_limitedTo_three_and_five :
    3 ≤ 5 ∧
    ((limitedTo { provider := growing } 3).run (.signature "A<int>")).outcome =
      .error (.tooDeep 3 "A<A<A<A<int>>>>") ∧
    ((limitedTo { provider := growing } 3).run (.signature "A<int>")).questions
      <+: ((limitedTo { provider := growing } 5).run
        (.signature "A<int>")).questions ∧
    ((limitedTo { provider := growing } 5).run (.signature "int[]")).outcome =
      .ok (.sequence .array (.leaf (.scalar .int))) := by
  have hle : 3 ≤ 5 := by decide
  have hcut : ((limitedTo { provider := growing } 3).run
      (.signature "A<int>")).outcome =
      .error (.tooDeep 3 "A<A<A<A<int>>>>") := by
    cbv
  have harray :
      ((limitedTo { provider := growing } 3).run (.signature "int[]")).outcome =
        .ok (.sequence .array (.leaf (.scalar .int))) := by
    cbv
  have hgrowing :=
    run_limitedTo_of_le { provider := growing } hle (.signature "A<int>")
  have hint :=
    run_limitedTo_of_le { provider := growing } hle (.signature "int[]")
  exact ⟨hle, hcut, (hgrowing.2.1 3 _ hcut).2, hint.2.2 _ harray⟩

end Resolver

end TypeShape
