import Mathlib
import TypeShape.Catalog
import TypeShape.Proofs.Resolver.Congruence

/-!
What a run depends on.  A resolver learns about types only by asking, and it
looks a name up in the registry only after hearing that the name is no scalar.
So a run can be replayed with any provider and any registry that agree with its
own as far as it asked: nothing else that is declared or registered can change
the shape or the fault, or the questions.
-/
namespace TypeShape

def Provider.AnswersAlike (provider provider' : Provider) : Question → Prop
  | .scalar name => provider.scalar name = provider'.scalar name
  | .category name => provider.category name = provider'.category name
  | .typeVars name => provider.typeVars name = provider'.typeVars name
  | .fields name => provider.fields name = provider'.fields name
  | .methods name => provider.methods name = provider'.methods name

/-- Two resolvers agree on some questions: they get the same answers, and of the
names that are no scalars they register the same. -/
structure Resolver.AgreeOn (left right : Resolver) (questions : List Question) :
    Prop where
  answers :
    ∀ question ∈ questions, left.provider.AnswersAlike right.provider question
  registry : ∀ name,
    .scalar name ∈ questions → left.provider.scalar name = none →
    left.registry.contains name = right.registry.contains name

theorem Resolver.AgreeOn.mono {left right : Resolver}
    {questions questions' : List Question} (h : left.AgreeOn right questions)
    (hsubset : questions' ⊆ questions) : left.AgreeOn right questions' where
  answers question hquestion := h.answers question (hsubset hquestion)
  registry name hasked := h.registry name (hsubset hasked)

namespace Run

variable {α β γ δ : Type}

/-- The second run is the same as the first one if the resolvers agree on the
questions that the first one asked. -/
def ReplayedBy (left right : Resolver) (S : α → β → Prop) (run : Run α)
    (run' : Run β) : Prop :=
  left.AgreeOn right run.questions → run.SameButFor S run'

variable {left right : Resolver}

theorem ReplayedBy.bind {S : α → β → Prop} {T : γ → δ → Prop} {run : Run α}
    {run' : Run β} {next : α → Run γ} {next' : β → Run δ}
    (h : run.ReplayedBy left right S run')
    (hnext : ∀ a b, S a b → (next a).ReplayedBy left right T (next' b)) :
    (run >>= next).ReplayedBy left right T (run' >>= next') := by
  intro hagree
  -- the whole run asked what its first part asked and, after a value, what the
  -- rest asked
  apply SameButFor.bind
    (h (hagree.mono (questions_isPrefix_bind run next).subset))
  intro a b ha hab
  apply hnext a b hab
  apply hagree.mono
  rw [questions_bind_of_ok ha]
  exact List.subset_append_right _ _

theorem replayedBy_self {run run' : Run α}
    (h : left.AgreeOn right run.questions → run = run') :
    run.ReplayedBy left right Eq run' :=
  fun hagree => sameButFor_eq_iff.2 (h hagree)

theorem ReplayedBy.between {S : α → β → Prop} {run : Run α} {run' : Run β}
    (h : run.ReplayedBy left right S run') {first last : Step}
    (hfirst : first.question? = none) (hlast : last.question? = none) :
    (run.between first last).ReplayedBy left right S
      (run'.between first last) := by
  intro hagree
  rw [questions_between hfirst hlast] at hagree
  exact (h hagree).between first last

theorem ReplayedBy.fail {S : α → β → Prop} (fault : ResolveFault) :
    (Run.fail fault).ReplayedBy left right S (Run.fail fault) :=
  fun _ => ⟨rfl, Or.inr ⟨fault, rfl, rfl⟩⟩

end Run

/-- A run compared with the run of another resolver, as far as that one agrees
with what was asked. -/
def replay (left right : Resolver) : Comparison where
  Holds := Run.ReplayedBy left right
  pure h _ := ⟨rfl, Or.inl ⟨_, _, rfl, rfl, h⟩⟩
  bind h hnext := h.bind hnext
  badExpr _ := .fail _
  expanding _ h := h.between rfl rfl

namespace Resolver

def consulting (resolver : Resolver) (provider : Provider)
    (registry : Registry) : Resolver :=
  { resolver with provider, registry }

variable (resolver : Resolver) (provider : Provider) (registry : Registry)

/-- A question that is asked of both providers is one that the resolvers agree
on, so both get the same answer. -/
theorem replayedBy_askOrFail {α : Type} {question : Question}
    {answer answer' : Except String α}
    (h : resolver.provider.AnswersAlike provider question → answer = answer') :
    (Run.askOrFail question answer).ReplayedBy resolver
      (resolver.consulting provider registry) Eq
      (Run.askOrFail question answer') := by
  apply Run.replayedBy_self
  intro hagree
  rw [h (hagree.answers question List.mem_cons_self)]

/-- After the question whether a name is a scalar the registries agree about the
name if it is none. -/
theorem replayedBy_askScalar (name : String) :
    (Run.ask (.scalar name) (resolver.provider.scalar name)).ReplayedBy resolver
      (resolver.consulting provider registry)
      (fun kind? kind?' => kind? = kind?' ∧
        (kind? = none →
          resolver.registry.contains name = registry.contains name))
      (Run.ask (.scalar name) (provider.scalar name)) := by
  intro hagree
  have hanswer : resolver.provider.scalar name = provider.scalar name :=
    hagree.answers (.scalar name) List.mem_cons_self
  refine ⟨rfl, Or.inl ⟨_, _, rfl, rfl, hanswer, ?_⟩⟩
  exact hagree.registry name List.mem_cons_self

theorem asksAlike_replay :
    AsksAlike (replay resolver (resolver.consulting provider registry)) Eq
      resolver (resolver.consulting provider registry) where
  scalar name := Comparison.imp (replay _ _)
    (resolver.replayedBy_askScalar provider registry name) (fun _ _ h => h.1)
  category _ := resolver.replayedBy_askOrFail provider registry id
  typeVars _ := resolver.replayedBy_askOrFail provider registry id
  fields _ := resolver.replayedBy_askOrFail provider registry id
  methods _ := resolver.replayedBy_askOrFail provider registry id
  extraction := rfl
  unknown _ := Run.replayedBy_self fun _ => rfl

theorem resolveWithin_replayedBy (left : Nat) (enclosing : List String)
    (expr : TypeExpr) :
    (resolver.resolveWithin left enclosing expr).ReplayedBy resolver
      (resolver.consulting provider registry) Eq
      ((resolver.consulting provider registry).resolveWithin left enclosing
        expr) := by
  induction left generalizing enclosing expr with
  | zero => exact Run.ReplayedBy.between (.fail _) rfl rfl
  | succ left ih =>
      refine Run.ReplayedBy.between ?_ rfl rfl
      have hasks := resolver.asksAlike_replay provider registry
      have hrecord :
          (replay resolver (resolver.consulting provider registry)).Holds Eq
            (resolver.resolveRecord (resolver.resolveWithin left) enclosing
              expr) ((resolver.consulting provider registry).resolveRecord
                ((resolver.consulting provider registry).resolveWithin left)
                enclosing expr) := by
        apply resolveRecord_holds shapeCongruence_eq hasks.toDescribesAlike
          (ih (expr.signature :: enclosing))
        · -- the guard compares signatures and asks nothing
          exact fun hrefuses => refused_holds hrefuses (Run.ReplayedBy.fail _)
        · exact id
      exact resolveLevel_holds_of_name (C := replay _ _) shapeCongruence_eq
        (ih enclosing) (fun _ => resolveName_holds shapeCongruence_eq
          (resolver.replayedBy_askScalar provider registry expr.name.text)
          (hasks.category _) (fun _ => resolveCategory_holds shapeCongruence_eq
            (fun _ => hasks.unknown expr) (ih enclosing) hrecord))

theorem run_replayedBy (request : Request) :
    (resolver.run request).ReplayedBy resolver
      (resolver.consulting provider registry) Eq
      ((resolver.consulting provider registry).run request) :=
  run_holds (C := replay _ _) shapeCongruence_eq contribution_related_eq
    (fun expr => resolver.resolveWithin_replayedBy provider registry _ [] expr)
    request

/-- A declaration under a name changes no answer about other names. -/
theorem answersAlike_declare {catalog : Catalog} {name : String}
    (decl : Declaration) {question : Question} (h : question.subject ≠ name) :
    catalog.provider.AnswersAlike (catalog.declare name decl).provider
      question := by
  cases question <;>
    simp_all [Provider.AnswersAlike, Catalog.provider, Catalog.recordDecl,
      Catalog.get?_declare, Question.subject]

/-- A run depends only on what it asked.  With any provider that gives the same
answers to its questions and any registry that agrees about those names it heard
to be no scalars, it is the same run, with the same questions and the same end.
So neither the declaration nor the registration of a name that it did not ask
about changes it. -/
theorem run_consulting_of_agreeOn (request : Request) :
    (∀ provider registry,
      resolver.AgreeOn (resolver.consulting provider registry)
        (resolver.run request).questions →
      (resolver.consulting provider registry).run request =
        resolver.run request) ∧
    (∀ catalog : Catalog, resolver.provider = catalog.provider → ∀ name decl,
      (∀ question ∈ (resolver.run request).questions, question.subject ≠ name) →
      (resolver.consulting (catalog.declare name decl).provider
        resolver.registry).run request = resolver.run request) ∧
    ∀ name,
      (∀ question ∈ (resolver.run request).questions, question.subject ≠ name) →
      (resolver.consulting resolver.provider
        (resolver.registry.register name)).run request =
        resolver.run request := by
  have hreplay : ∀ provider registry, resolver.AgreeOn
      (resolver.consulting provider registry) (resolver.run request).questions →
      (resolver.consulting provider registry).run request =
        resolver.run request := by
    intro provider registry hagree
    exact (Run.sameButFor_eq_iff.1
      (resolver.run_replayedBy provider registry request hagree)).symm
  refine ⟨hreplay, ?_, ?_⟩
  · intro catalog hprovider name decl hother
    apply hreplay
    refine ⟨?_, fun _ _ _ => rfl⟩
    intro question hquestion
    rw [hprovider]
    exact answersAlike_declare decl (hother question hquestion)
  · intro name hother
    apply hreplay
    refine ⟨fun question _ => by cases question <;> rfl, ?_⟩
    intro asked hasked _
    have hne : asked ≠ name := hother (.scalar asked) hasked
    change resolver.registry.contains asked =
      (resolver.registry.register name).contains asked
    rw [Registry.contains_register]
    simp [hne]

/-- A catalog of nodes that hold a number and tags. -/
def nodeCatalog : Catalog :=
  Catalog.empty.declareAll
    [("Node", .record { fields := [⟨"id", "int"⟩, ⟨"tags", "Tag[]"⟩] }),
      ("Tag", .enumeration ["NEW"])]

def nodes : Resolver where
  provider := nodeCatalog.provider

/-- The run for a node does not ask for the category of a scalar or the methods
of an enumeration, so the provider may fail there, the scalar may be registered,
and leaves may be declared and registered. -/
theorem run_consulting_nodes :
    nodes.AgreeOn (nodes.consulting
      (nodes.provider.failingAt ["category int", "methods Tag"])
      (.ofList ["int", "Leaf"])) (nodes.run (.signature "Node")).questions ∧
    (nodes.consulting (nodes.provider.failingAt ["category int", "methods Tag"])
      (.ofList ["int", "Leaf"])).run (.signature "Node") =
      nodes.run (.signature "Node") ∧
    (∀ question ∈ (nodes.run (.signature "Node")).questions,
      question.subject ≠ "Leaf") ∧
    (nodes.consulting (nodeCatalog.declare "Leaf" .collection).provider
      nodes.registry).run (.signature "Node") = nodes.run (.signature "Node") ∧
    (nodes.consulting nodes.provider (nodes.registry.register "Leaf")).run
      (.signature "Node") = nodes.run (.signature "Node") := by
  have hquestions : (nodes.run (.signature "Node")).questions =
      [.scalar "Node", .category "Node", .typeVars "Node", .fields "Node",
       .scalar "int", .scalar "Tag", .category "Tag", .methods "Node"] := by
    cbv
  have hagree : nodes.AgreeOn (nodes.consulting
      (nodes.provider.failingAt ["category int", "methods Tag"])
      (.ofList ["int", "Leaf"])) (nodes.run (.signature "Node")).questions := by
    rw [hquestions]
    constructor
    · simp only [List.forall_mem_cons, List.not_mem_nil, false_imp_iff,
        implies_true, and_true]
      exact ⟨rfl, rfl, rfl, rfl, rfl, rfl, rfl, rfl⟩
    · intro name hasked hnone
      have hname : name = "Node" ∨ name = "int" ∨ name = "Tag" := by
        simpa using hasked
      rcases hname with rfl | rfl | rfl
      · decide
      · cases hnone
      · decide
  have hother : ∀ question ∈ (nodes.run (.signature "Node")).questions,
      question.subject ≠ "Leaf" := by
    rw [hquestions]
    decide
  have hnodes := nodes.run_consulting_of_agreeOn (.signature "Node")
  exact ⟨hagree, hnodes.1 _ _ hagree, hother,
    hnodes.2.1 nodeCatalog rfl "Leaf" _ hother, hnodes.2.2 "Leaf" hother⟩

end Resolver

end TypeShape
