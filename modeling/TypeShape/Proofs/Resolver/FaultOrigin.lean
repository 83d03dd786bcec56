import Mathlib
import TypeShape.Proofs.Resolver.Questioning

/-!
Where faults come from.  A provider that fails, and a name that is unknown where
unknown names are rejected, end a run with a fault that tells the name and the
reason; nothing else ends a run with such a fault, and no such answer is passed
over.  A record is cyclic only where it is met inside its own expansion.
-/
namespace TypeShape

theorem Provider.FailsAt.unique {provider : Provider} {question : Question}
    {reason reason' : String} (h : provider.FailsAt question reason)
    (h' : provider.FailsAt question reason') : reason = reason' := by
  cases h <;> cases h' <;> simp_all

namespace Resolver

variable (resolver : Resolver)

/-- The fault of a run is accounted for by what it asked. -/
structure AccountsForFaults (run : Run Shape) : Prop where
  /-- A run fails at a question just if its provider does. -/
  lookupFailed : ∀ name reason,
    run.outcome = .error (.lookupFailed name reason) ↔
      ∃ question ∈ run.questions,
        question.subject = name ∧ resolver.provider.FailsAt question reason
  /-- A run fails because of an unknown name just if it met one that is
  rejected. -/
  unknownType : ∀ name, run.outcome = .error (.unknownType name) ↔
    resolver.settings.unknown = .reject ∧ .category name ∈ run.questions ∧
      resolver.provider.category name = .ok none
  /-- Such a question is the last one, wherever it stands. -/
  last : ∀ before question after, run.questions = before ++ question :: after →
    ((∃ reason, resolver.provider.FailsAt question reason) ∨
      resolver.settings.unknown = .reject ∧
      ∃ name, question = .category name ∧
        resolver.provider.category name = .ok none) → after = []
  /-- A cyclic record was found last, by its category, inside its own
  expansion. -/
  cyclic : ∀ signature, run.outcome = .error (.cyclic signature) →
    ∃ before after, ∃ expr : TypeExpr,
      run.steps = before ++ .asked (.category expr.name.text) :: after ∧
      questionsAmong after = [] ∧
      resolver.provider.category expr.name.text = .ok (some .record) ∧
      expr.signature = signature ∧ signature ∈ openRecords before
  /-- A run that has a shape met nothing that it would have had to fail at. -/
  shape : ∀ shape, run.outcome = .ok shape → (∀ question ∈ run.questions,
    ∀ reason, ¬ resolver.provider.FailsAt question reason) ∧
    (resolver.settings.unknown = .reject → ∀ name, .category name ∈
      run.questions → resolver.provider.category name ≠ .ok none)

variable {resolver}

theorem stopsAt_lookupFailed_iff {question : Question} {name reason : String} :
    resolver.StopsAt question (.lookupFailed name reason) ↔
      question.subject = name ∧ resolver.provider.FailsAt question reason := by
  constructor
  · rintro ⟨hfails⟩
    exact ⟨rfl, hfails⟩
  · rintro ⟨rfl, hfails⟩
    exact .failed hfails

theorem stopsAt_unknownType_iff {question : Question} {name : String} :
    resolver.StopsAt question (.unknownType name) ↔
      resolver.settings.unknown = .reject ∧ question = .category name ∧
        resolver.provider.category name = .ok none := by
  constructor
  · rintro (_ | ⟨hpolicy, hcategory⟩)
    exact ⟨hpolicy, rfl, hcategory⟩
  · rintro ⟨hpolicy, rfl, hcategory⟩
    exact .unknown hpolicy hcategory

theorem StopsAt.unique {question : Question} {fault fault' : ResolveFault}
    (h : resolver.StopsAt question fault)
    (h' : resolver.StopsAt question fault') : fault = fault' := by
  have hnot : ∀ {name reason}, resolver.provider.category name = .ok none →
      ¬ resolver.provider.FailsAt (.category name) reason := by
    rintro name reason hcategory ⟨hfailed⟩
    cases hcategory.symm.trans hfailed
  cases h with
  | failed hfails =>
      cases h' with
      | failed hfails' => rw [hfails.unique hfails']
      | unknown _ hcategory => exact absurd hfails (hnot hcategory)
  | unknown _ hcategory =>
      cases h' with
      | failed hfails => exact absurd hfails (hnot hcategory)
      | unknown => rfl

variable {request : Request}

theorem failsAfter_of_outcome {fault : ResolveFault}
    (h : (resolver.run request).outcome = .error fault) :
    (∃ before question,
      (resolver.run request).questions = before ++ [question] ∧
      (∀ other ∈ before, resolver.GoesOn other) ∧
      resolver.StopsAt question fault) ∨
    (∀ question ∈ (resolver.run request).questions, resolver.GoesOn question) ∧
    resolver.Raised (resolver.run request).steps fault :=
  (resolver.run_follows "" request).fails fault h

/-- No answer that ends a run is passed over. -/
theorem outcome_of_stopsAt {question : Question} {fault : ResolveFault}
    (hasked : question ∈ (resolver.run request).questions)
    (hstops : resolver.StopsAt question fault) :
    (resolver.run request).outcome = .error fault := by
  rcases (resolver.run request).ok_or_error with
    ⟨shape, hshape⟩ | ⟨fault', hfault⟩
  · have hgoesOn :=
      ((resolver.run_follows "" request).value shape hshape).goesOn
    exact absurd hstops (hgoesOn question hasked fault)
  · rcases failsAfter_of_outcome hfault with
      ⟨before, last, hquestions, hgoesOn, hlast⟩ | ⟨hgoesOn, -⟩
    · rw [hquestions] at hasked
      rcases List.mem_append.1 hasked with hbefore | hmem
      · exact absurd hstops (hgoesOn question hbefore fault)
      · rw [List.mem_singleton.1 hmem] at hstops
        rw [hfault, hlast.unique hstops]
    · exact absurd hstops (hgoesOn question hasked fault)

/-- A fault is the answer to a question of the run or no answer at all. -/
theorem stopsAt_or_raised_of_outcome {fault : ResolveFault}
    (h : (resolver.run request).outcome = .error fault) :
    (∃ question ∈ (resolver.run request).questions,
      resolver.StopsAt question fault) ∨
    resolver.Raised (resolver.run request).steps fault := by
  rcases failsAfter_of_outcome h with
    ⟨before, last, hquestions, -, hlast⟩ | ⟨-, hraised⟩
  · refine Or.inl ⟨last, ?_, hlast⟩
    rw [hquestions]
    exact List.mem_append_right _ List.mem_cons_self
  · exact Or.inr hraised

variable (resolver request)

/-- The fault of every run is accounted for. -/
theorem run_accountsForFaults :
    resolver.AccountsForFaults (resolver.run request) where
  lookupFailed name reason := by
    constructor
    · intro h
      rcases stopsAt_or_raised_of_outcome h with
        ⟨question, hasked, hstops⟩ | hraised
      · exact ⟨question, hasked, stopsAt_lookupFailed_iff.1 hstops⟩
      · cases hraised
    · rintro ⟨question, hasked, hfails⟩
      exact outcome_of_stopsAt hasked (stopsAt_lookupFailed_iff.2 hfails)
  unknownType name := by
    constructor
    · intro h
      rcases stopsAt_or_raised_of_outcome h with
        ⟨question, hasked, hstops⟩ | hraised
      · obtain ⟨hpolicy, rfl, hcategory⟩ := stopsAt_unknownType_iff.1 hstops
        exact ⟨hpolicy, hasked, hcategory⟩
      · cases hraised
    · rintro ⟨hpolicy, hasked, hcategory⟩
      exact outcome_of_stopsAt hasked (.unknown hpolicy hcategory)
  last before question after h hends := by
    rcases hends with ⟨reason, hfails⟩ | ⟨hpolicy, name, rfl, hcategory⟩
    · exact eq_nil_of_stopsAt h (.failed hfails)
    · exact eq_nil_of_stopsAt h (.unknown hpolicy hcategory)
  cyclic signature h := by
    rcases stopsAt_or_raised_of_outcome h with ⟨question, -, hstops⟩ | hraised
    · cases hstops
    · cases hraised with
      | cyclic hpast hafter hfinds hopen =>
          exact ⟨_, _, _, hpast, hafter, hfinds.category, rfl, hopen⟩
  shape shape h := by
    have hgoesOn := ((resolver.run_follows "" request).value shape h).goesOn
    refine ⟨fun question hasked reason hfails => ?_,
      fun hpolicy name hasked hcategory => ?_⟩
    · exact hgoesOn question hasked _ (.failed hfails)
    · exact hgoesOn _ hasked _ (.unknown hpolicy hcategory)

/-- A fault below the first field ends the run; what would fail in the second
field is not come to. -/
example :
    let orders : Resolver :=
      { provider :=
          { category name :=
              if name = "Order" then .ok (some .record) else .error "offline"
            typeVars _ := .ok []
            fields _ := .ok [⟨"owner", "Owner[]"⟩, ⟨"items", "Item[]"⟩] } }
    (orders.run (.signature "Order")).outcome = .error
        (.lookupFailed "Owner" "offline") := by
  cbv

end Resolver

end TypeShape
