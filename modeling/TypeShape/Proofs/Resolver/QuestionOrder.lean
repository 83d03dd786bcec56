import Mathlib
import TypeShape.Proofs.Resolver.Questioning

/-!
The order of questions.  Whatever a provider answers and however records nest, a
name is asked about in a fixed order: whether it is a scalar, what its category
is, its type variables, its declared fields, and, when these have been resolved,
its methods.  Each of these questions comes only after an answer that calls for
it, and none comes after one that fails.
-/
namespace TypeShape

namespace Resolver

variable (resolver : Resolver)

/-- The questions of a run come in order. -/
structure AsksInOrder (run : Run Shape) : Prop where
  /-- The category of a name is asked for directly after the name was no
  scalar's. -/
  category : ∀ before name after,
    run.questions = before ++ .category name :: after →
    (∃ earlier, before = earlier ++ [.scalar name]) ∧
    resolver.provider.scalar name = none ∧
    resolver.registry.contains name = false
  /-- Type variables are asked for directly after the category of a record. -/
  typeVars : ∀ before name after,
    run.questions = before ++ .typeVars name :: after →
    (∃ earlier, before = earlier ++ [.category name]) ∧
    resolver.provider.category name = .ok (some .record)
  fields : ∀ before name after,
    run.questions = before ++ .fields name :: after →
    ∃ earlier, before = earlier ++ [.typeVars name]
  /-- Between the questions for the fields and the methods of a record its
  declared fields are resolved, all of them and nothing else. -/
  methods : ∀ before name after,
    run.steps = before ++ .asked (.methods name) :: after →
    ∃ earlier expr depth enclosing left decls types inner,
      expr.name.text = name ∧
      resolver.DeclaredSteps expr left enclosing decls types inner ∧
      before = earlier ++ lookupSteps expr depth enclosing ++ [.expand
        expr.signature, .asked (.typeVars name), .asked (.fields name)] ++ inner
  noMethods : resolver.settings.extraction = .declaredOnly →
    ∀ name, .methods name ∉ run.questions
  /-- A run that has a shape asks for methods as often as for fields. -/
  methodsCount : resolver.settings.extraction ≠ .declaredOnly →
    ∀ shape, run.outcome = .ok shape → ∀ name,
      run.questions.count (.methods name) = run.questions.count (.fields name)
  /-- Scalars and registered names are not looked into. -/
  onlyScalar : ∀ question ∈ run.questions,
    (∃ kind, resolver.provider.scalar question.subject = some kind) ∨
    resolver.registry.contains question.subject = true →
    question = .scalar question.subject
  /-- Nothing is asked after a question at which the provider fails. -/
  failed : ∀ before question after,
    run.questions = before ++ question :: after →
    ∀ reason, resolver.provider.FailsAt question reason → after = []

/-- What is asked about a name besides whether it is a scalar is asked because
it is not, and because it is not registered. -/
theorem Due.eq_scalar_or {resolver : Resolver} {past : List Step}
    {question : Question} (h : resolver.Due past question) :
    question = .scalar question.subject ∨
    resolver.provider.scalar question.subject = none ∧
    resolver.registry.contains question.subject = false := by
  cases h with
  | scalar name => exact Or.inl rfl
  | category _ hscalar hregistry => exact Or.inr ⟨hscalar, hregistry⟩
  | typeVars _ hfinds => exact Or.inr ⟨hfinds.scalar, hfinds.registry⟩
  | fields _ hfinds => exact Or.inr ⟨hfinds.scalar, hfinds.registry⟩
  | methods _ _ hinner =>
      exact Or.inr ⟨hinner.finds.scalar, hinner.finds.registry⟩

/-- Every run asks its questions in order, whether it fails or not. -/
theorem run_asksInOrder (request : Request) :
    resolver.AsksInOrder (resolver.run request) where
  category before name after h := by
    obtain ⟨earlier, rfl, hdue, -⟩ := exists_due_of_questions h
    cases hdue with
    | @category earlier _ _ _ hpast hscalar hregistry =>
        exact ⟨⟨questionsAmong earlier,
          by rw [hpast, questionsAmong_append]; rfl⟩, hscalar, hregistry⟩
  typeVars before name after h := by
    obtain ⟨earlier, rfl, hdue, -⟩ := exists_due_of_questions h
    cases hdue with
    | @typeVars earlier expr _ _ hpast hfinds =>
        refine ⟨⟨questionsAmong earlier ++ [.scalar expr.name.text], ?_⟩,
          hfinds.category⟩
        rw [hpast, questionsAmong_append, questionsAmong_append,
          List.append_assoc, List.append_assoc]
        rfl
  fields before name after h := by
    obtain ⟨earlier, rfl, hdue, -⟩ := exists_due_of_questions h
    cases hdue with
    | fields hpast _ => exact ⟨_, by rw [hpast, questionsAmong_append]; rfl⟩
  methods before name after h := by
    obtain ⟨-, hdue⟩ :=
      (resolver.run_follows name request).asks before _ after h
    cases hdue with
    | methods _ hpast hinner =>
        exact ⟨_, _, _, _, _, _, _, _, rfl, hinner, hpast⟩
  noMethods hextraction name hasked := by
    obtain ⟨past, hdue⟩ := exists_due_of_mem hasked
    cases hdue with
    | methods hmethods _ _ => exact hmethods hextraction
  methodsCount hextraction shape hshape name := by
    have howed :=
      ((resolver.run_follows name request).value shape hshape).owed hextraction
    change owedMethods name (resolver.run request).questions = 0 at howed
    unfold owedMethods at howed
    omega
  onlyScalar question hasked hknown := by
    obtain ⟨past, hdue⟩ := exists_due_of_mem hasked
    rcases hdue.eq_scalar_or with hscalar | ⟨hnone, hunregistered⟩
    · exact hscalar
    · rcases hknown with ⟨kind, hkind⟩ | hregistered
      · cases hnone.symm.trans hkind
      · cases hunregistered.symm.trans hregistered
  failed _ _ _ h _ hfails := eq_nil_of_stopsAt h (.failed hfails)

/-- Where a box lies in another one the questions about both have the same name,
and the inner ones stand between the outer ones. -/
example :
    let boxes : Resolver :=
      { provider :=
          { category name := .ok (if name = "Box" then some .record else none)
            typeVars _ := .ok ["T"]
            fields _ := .ok [⟨"item", "T"⟩]
            methods _ := .ok [⟨"getSize", [], "long"⟩] } }
    (boxes.run (.signature "Box<Box<int>>")).questions = [.scalar "Box",
      .category "Box", .typeVars "Box", .fields "Box", .scalar "Box",
      .category "Box", .typeVars "Box", .fields "Box", .scalar "int",
      .methods "Box", .scalar "long", .methods "Box", .scalar "long"] := by
  cbv

end Resolver

end TypeShape
