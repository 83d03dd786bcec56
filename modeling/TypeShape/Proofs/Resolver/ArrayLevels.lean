import Mathlib
import TypeShape.Proofs.Resolver.DepthLimit

/-!
The levels of arrays.  An array is resolved by its element type one level
deeper, so each of its dimensions costs a level and nothing else: no question is
asked about it.  Below its last dimension it is resolved like its elements under
a limit that is smaller by the number of dimensions, only that many levels
deeper.
-/
namespace TypeShape

/-- The array of so many dimensions whose innermost elements have the shape. -/
def Shape.arrayOf : Nat → Shape → Shape
  | 0, shape => shape
  | dim + 1, shape => .sequence .array (arrayOf dim shape)

/-- The fault as it is raised under another limit. -/
def ResolveFault.underLimit (limit : Nat) : ResolveFault → ResolveFault
  | tooDeep _ signature => .tooDeep limit signature
  | fault => fault

theorem ResolveFault.underLimit_of_not_tooDeep {fault : ResolveFault}
    (h : fault.isTooDeep = false) (limit : Nat) :
    fault.underLimit limit = fault := by
  cases fault with
  | tooDeep limit' signature => cases h
  | _ => rfl

def Step.deeper (levels : Nat) : Step → Step
  | enter expr depth enclosing => .enter expr (depth + levels) enclosing
  | leave expr depth enclosing => .leave expr (depth + levels) enclosing
  | step => step

@[simp] theorem Step.question?_deeper (levels : Nat) (step : Step) :
    (step.deeper levels).question? = step.question? := by
  cases step <;> rfl

namespace Run

variable {α β : Type}

/-- The run as it is made so many levels deeper under another limit. -/
def lower (levels limit : Nat) (run : Run α) : Run α where
  steps := run.steps.map (Step.deeper levels)
  outcome := run.outcome.mapError (ResolveFault.underLimit limit)

@[simp] theorem questions_lower (levels limit : Nat) (run : Run α) :
    (run.lower levels limit).questions = run.questions := by
  simp [questions, lower, List.filterMap_map]

theorem lower_bind (levels limit : Nat) (run : Run α) (next : α → Run β) :
    (run >>= next).lower levels limit =
      run.lower levels limit >>= fun a => (next a).lower levels limit := by
  rcases run.ok_or_error with ⟨a, ha⟩ | ⟨fault, hfault⟩
  · have hlower : (run.lower levels limit).outcome = .ok a := by
      rw [lower, ha]; rfl
    rw [bind_of_ok ha, bind_of_ok hlower]
    simp [lower]
  · have hlower : (run.lower levels limit).outcome =
        .error (fault.underLimit limit) := by
      rw [lower, hfault]
      rfl
    rw [bind_of_error hfault, bind_of_error hlower]
    rfl

theorem lower_between (levels limit : Nat) (first last : Step) (run : Run α) :
    (run.between first last).lower levels limit =
      (run.lower levels limit).between (first.deeper levels)
        (last.deeper levels) := by
  simp [lower, between]

/-- Nothing changes at greater depth about a run that resolves nothing and is
not cut. -/
theorem lower_of_finished {run : Run α} (hfinished : run.Finished)
    {levels : Nat} (hsteps : run.steps.map (Step.deeper levels) = run.steps)
    (limit : Nat) : run.lower levels limit = run := by
  apply ext hsteps
  rcases run.ok_or_error with ⟨a, ha⟩ | ⟨fault, hfault⟩
  · rw [lower, ha]
    rfl
  · have hsame :=
      ResolveFault.underLimit_of_not_tooDeep (hfinished fault hfault) limit
    rw [lower, hfault]
    exact congrArg Except.error hsame

end Run

/-- A run compared with one that is made so many levels deeper under another
limit. -/
def lowering (levels limit : Nat) : Comparison where
  Holds S run run' := (run.lower levels limit).SameButFor S run'
  pure h := ⟨rfl, Or.inl ⟨_, _, rfl, rfl, h⟩⟩
  bind h hnext := by
    rw [Run.lower_bind]
    exact h.bind (fun a b _ hab => hnext a b hab)
  badExpr _ := ⟨rfl, Or.inr ⟨_, rfl, rfl⟩⟩
  expanding signature h := by
    rw [Run.lower_between]
    exact h.between _ _

theorem lowering_self {α : Type} {levels limit : Nat} {run : Run α}
    (hfinished : run.Finished)
    (hsteps : run.steps.map (Step.deeper levels) = run.steps) :
    (lowering levels limit).Holds Eq run run :=
  Run.sameButFor_eq_iff.2 (Run.lower_of_finished hfinished hsteps limit)

namespace Resolver

variable (resolver : Resolver)

theorem map_deeper_resolveUnknown (levels : Nat) (expr : TypeExpr) :
    (resolver.resolveUnknown expr).steps.map (Step.deeper levels) =
      (resolver.resolveUnknown expr).steps := by
  unfold resolveUnknown
  split <;> rfl

theorem suits_lowering (levels short long : Nat) :
    Suits (lowering levels long) Eq (resolver.limitedTo short)
      (resolver.limitedTo long) where
  scalar _ := lowering_self (Run.finished_of_ok rfl) rfl
  category _ := lowering_self (Run.finished_askOrFail _ _) rfl
  typeVars _ := lowering_self (Run.finished_askOrFail _ _) rfl
  fields _ := lowering_self (Run.finished_askOrFail _ _) rfl
  methods _ := lowering_self (Run.finished_askOrFail _ _) rfl
  extraction := rfl
  registry _ := rfl
  unknown expr := lowering_self (resolver.finished_resolveUnknown expr)
    (resolver.map_deeper_resolveUnknown levels expr)

/-- With as many levels left, a resolution under a limit that is larger by some
levels is the same but that it lies these levels deeper. -/
theorem resolveWithin_limitedTo_add (levels limit : Nat) {left : Nat}
    (hle : left ≤ limit) (enclosing : List String) (expr : TypeExpr) :
    (resolver.limitedTo (limit + levels)).resolveWithin left enclosing expr =
      ((resolver.limitedTo limit).resolveWithin left enclosing expr).lower
        levels (limit + levels) := by
  induction left generalizing enclosing expr with
  | zero => rfl
  | succ left ih =>
      have hbelow (enclosing : List String) (expr : TypeExpr) :
          (lowering levels (limit + levels)).Holds Eq
            ((resolver.limitedTo limit).resolveWithin left enclosing expr)
            ((resolver.limitedTo (limit + levels)).resolveWithin left enclosing
              expr) :=
        Run.sameButFor_eq_iff.2 (ih (Nat.le_of_succ_le hle) enclosing expr).symm
      have hlevel := resolveLevel_holds (C := lowering levels (limit + levels))
        shapeCongruence_eq
        (resolver.suits_lowering levels limit (limit + levels))
        (hbelow enclosing) (hbelow (expr.signature :: enclosing))
        (fun hrefuses => refused_holds hrefuses ⟨rfl, Or.inr ⟨_, rfl, rfl⟩⟩) id
      -- what notes its depth lies these levels deeper as well
      have hdepth : limit + levels - (left + 1) =
          limit - (left + 1) + levels := by
        omega
      rw [resolveWithin, resolveWithin, Run.lower_between,
        Run.sameButFor_eq_iff.1 hlevel]
      exact congrArg (fun depth => Run.between (.enter expr depth enclosing)
        (.leave expr depth enclosing) _) hdepth

/-- An array takes a step into its element type, which costs a level, and one
back. -/
theorem resolveWithin_array (left dim : Nat) (enclosing : List String)
    (expr : TypeExpr) :
    resolver.resolveWithin (left + 1) enclosing { expr with dim := dim + 1 } =
      Run.between (.enter { expr with dim := dim + 1 }
        (resolver.settings.maxDepth - (left + 1)) enclosing)
        (.leave { expr with dim := dim + 1 }
          (resolver.settings.maxDepth - (left + 1)) enclosing)
        (resolver.resolveWithin left enclosing { expr with dim := dim } >>=
          fun shape => pure (.sequence .array shape)) :=
  rfl

/-- As many more dimensions as levels wrap the shape as often, and ask
nothing. -/
theorem resolveWithin_add_dims (left dim count : Nat) (enclosing : List String)
    (expr : TypeExpr) :
    (resolver.resolveWithin (left + count) enclosing
      { expr with dim := dim + count }).questions = (resolver.resolveWithin left
        enclosing { expr with dim := dim }).questions ∧
    (resolver.resolveWithin (left + count) enclosing
      { expr with dim := dim + count }).outcome =
      (resolver.resolveWithin left enclosing
        { expr with dim := dim }).outcome.map (Shape.arrayOf count) := by
  induction count with
  | zero =>
      refine ⟨rfl, ?_⟩
      exact (congrFun Except.map_id _).symm
  | succ count ih =>
      obtain ⟨hquestions, houtcome⟩ := ih
      rw [← Nat.add_assoc, ← Nat.add_assoc, resolveWithin_array]
      constructor
      · rw [Run.questions_between rfl rfl, Run.questions_bind_pure, hquestions]
      · rw [Run.outcome_between, Run.outcome_bind_pure, houtcome]
        cases (resolver.resolveWithin left enclosing
          { expr with dim := dim }).outcome <;> rfl

/-- The canonical text of an array is that of its innermost elements with a pair
of square brackets for each dimension. -/
theorem signature_with_dim {expr : TypeExpr} (hdim : expr.dim = 0) (dim : Nat) :
    TypeExpr.signature { expr with dim := dim } =
      expr.signature ++ String.join (List.replicate dim "[]") := by
  have hbrackets : (String.join (List.replicate dim "[]")).toList =
      TypeExpr.dimBrackets dim := by
    induction dim with
    | zero => rfl
    | succ dim ih =>
        rw [List.replicate_succ, String.join_cons, String.toList_append, ih]
        rfl
  obtain ⟨name, params, dim'⟩ := expr
  cases hdim
  apply String.toList_injective
  simp [TypeExpr.signature, TypeExpr.render_mk, hbrackets, TypeExpr.dimBrackets]

/-- An array of as many dimensions as there are levels left, or of more, is cut
where no level is left, and nothing is asked about it. -/
theorem resolveWithin_of_le_dims (left rest : Nat) (enclosing : List String)
    {expr : TypeExpr} (hdim : expr.dim = 0) :
    (resolver.resolveWithin left enclosing
      { expr with dim := rest + left }).questions = [] ∧
    (resolver.resolveWithin left enclosing
      { expr with dim := rest + left }).outcome =
      .error (.tooDeep resolver.settings.maxDepth
        (expr.signature ++ String.join (List.replicate rest "[]"))) := by
  obtain ⟨hquestions, houtcome⟩ :=
    resolver.resolveWithin_add_dims 0 rest left enclosing expr
  rw [Nat.zero_add] at hquestions houtcome
  rw [hquestions, houtcome, ← signature_with_dim hdim rest]
  exact ⟨rfl, rfl⟩

/-- Every dimension of an array costs one level.  An array that has no fewer
dimensions than the limit allows levels is cut at the dimensions that are left
over, and nothing is asked.  With fewer dimensions its elements are resolved as
under a limit that is smaller by their number: the same questions are asked, the
shape is wrapped in just as many arrays, and a cut names the limit of the
whole. -/
theorem resolve_array_of_dims (expr : TypeExpr) (hdim : expr.dim = 0)
    (dim : Nat) :
    (resolver.settings.maxDepth ≤ dim →
      (resolver.resolve { expr with dim := dim }).outcome =
        .error (.tooDeep resolver.settings.maxDepth (expr.signature ++
          String.join
            (List.replicate (dim - resolver.settings.maxDepth) "[]"))) ∧
      (resolver.resolve { expr with dim := dim }).questions = []) ∧
    (dim < resolver.settings.maxDepth →
      (resolver.resolve { expr with dim := dim }).outcome =
        (((resolver.limitedTo (resolver.settings.maxDepth - dim)).resolve
          expr).outcome.map (Shape.arrayOf dim)).mapError
          (.underLimit resolver.settings.maxDepth) ∧
      (resolver.resolve { expr with dim := dim }).questions =
        ((resolver.limitedTo (resolver.settings.maxDepth - dim)).resolve
          expr).questions) := by
  constructor
  · intro hle
    obtain ⟨rest, rfl⟩ := Nat.exists_eq_add_of_le' hle
    rw [Nat.add_sub_cancel]
    exact (resolver.resolveWithin_of_le_dims _ rest [] hdim).symm
  · intro hlt
    obtain ⟨limit, hlimit⟩ := Nat.exists_eq_add_of_le' (Nat.le_of_lt hlt)
    have hself : resolver.limitedTo (limit + dim) = resolver := by
      rw [← hlimit]
      rfl
    have hlower :=
      resolver.resolveWithin_limitedTo_add dim limit (Nat.le_refl limit) [] expr
    rw [hself] at hlower
    have helement : { expr with dim := 0 } = expr := by
      obtain ⟨name, params, dim'⟩ := expr
      cases hdim
      rfl
    obtain ⟨hquestions, houtcome⟩ :=
      resolver.resolveWithin_add_dims limit 0 dim [] expr
    rw [Nat.zero_add, helement, hlower] at hquestions houtcome
    rw [resolve, hlimit, Nat.add_sub_cancel, hquestions, houtcome,
      Run.questions_lower]
    refine ⟨?_, rfl⟩
    change (((resolver.limitedTo limit).resolve expr).outcome.mapError _).map
      _ = _
    cases ((resolver.limitedTo limit).resolve expr).outcome <;> rfl

/-- Under a limit of three a record in four arrays is cut at an array of the
record, before anything is asked about it.  In one array it is cut where it
would be under a limit of two, and a number in two arrays has a shape with two
arrays around it. -/
theorem growing_array_of_dims :
    let three : Resolver := limitedTo { provider := growing } 3
    let record : TypeExpr :=
      ⟨⟨"A", by decide⟩, [⟨⟨"int", by decide⟩, [], 0⟩], 0⟩
    let number : TypeExpr := ⟨⟨"int", by decide⟩, [], 0⟩
    (three.resolve { record with dim := 4 }).outcome =
      .error (.tooDeep 3 "A<int>[]") ∧
    (three.resolve { record with dim := 4 }).questions = [] ∧
    (three.resolve { record with dim := 1 }).outcome =
      .error (.tooDeep 3 "A<A<A<int>>>") ∧
    (three.resolve { record with dim := 1 }).questions =
      ((three.limitedTo 2).resolve record).questions ∧
    (three.resolve { number with dim := 2 }).outcome =
      .ok (.sequence .array (.sequence .array (.leaf (.scalar .int)))) := by
  intro three record number
  obtain ⟨hcut, hnothing⟩ :=
    (three.resolve_array_of_dims record rfl 4).1 (by decide)
  obtain ⟨hrecord, hasked⟩ :=
    (three.resolve_array_of_dims record rfl 1).2 (by decide)
  have hnumber := ((three.resolve_array_of_dims number rfl 2).2 (by decide)).1
  refine ⟨?_, hnothing, ?_, hasked, ?_⟩
  · rw [hcut]
    cbv
  · rw [hrecord]
    cbv
  · rw [hnumber]
    cbv

end Resolver

end TypeShape
