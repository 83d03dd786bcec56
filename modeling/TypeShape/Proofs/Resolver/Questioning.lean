import TypeShape.Proofs.Resolver.Invariant
import TypeShape.Proofs.Run.History

/-!
When a question is asked, and what ends a run.  Each question but the first one
about a name is asked directly after the one before it was answered, and the
methods of a record after all its declared fields were resolved.  An answer that
ends a run is the last one, and every other fault comes after answers that let
the run go on.  This is a discipline, and every run of a resolver follows it.
-/
namespace TypeShape

/-- The provider fails at a question, for a reason of its own. -/
inductive Provider.FailsAt (provider : Provider) : Question → String → Prop
  | category {name reason : String}
      (h : provider.category name = .error reason) :
      FailsAt provider (.category name) reason
  | typeVars {name reason : String}
      (h : provider.typeVars name = .error reason) :
      FailsAt provider (.typeVars name) reason
  | fields {name reason : String} (h : provider.fields name = .error reason) :
      FailsAt provider (.fields name) reason
  | methods {name reason : String} (h : provider.methods name = .error reason) :
      FailsAt provider (.methods name) reason

/-! ### What steps add up to -/

/-- The records that are being expanded after a step, the innermost first. -/
def Step.recordsAfter (records : List String) : Step → List String
  | expand signature => signature :: records
  | expanded _ => records.tail
  | _ => records

/-- The records that are being expanded after some steps, the innermost
first. -/
def openRecords (steps : List Step) : List String :=
  steps.foldl Step.recordsAfter []

theorem openRecords_append (steps steps' : List Step) :
    openRecords (steps ++ steps') =
      steps'.foldl Step.recordsAfter (openRecords steps) :=
  List.foldl_append

/-- The steps with which an expression that is no scalar and not registered
begins. -/
def lookupSteps (expr : TypeExpr) (depth : Nat) (enclosing : List String) :
    List Step :=
  [.enter expr depth enclosing, .asked (.scalar expr.name.text),
    .asked (.category expr.name.text)]

theorem append_lookupSteps (before : List Step) (expr : TypeExpr) (depth : Nat)
    (enclosing : List String) :
    before ++ lookupSteps expr depth enclosing = before ++
      [.enter expr depth enclosing, .asked (.scalar expr.name.text)] ++
      [.asked (.category expr.name.text)] := by
  rw [List.append_assoc]
  rfl

/-- How many times more the fields of a name are asked for than its methods. -/
def owedMethods (name : String) (questions : List Question) : Int :=
  questions.count (.fields name) - questions.count (.methods name)

theorem owedMethods_append (name : String)
    (questions questions' : List Question) :
    owedMethods name (questions ++ questions') =
      owedMethods name questions + owedMethods name questions' := by
  simp only [owedMethods, List.count_append]
  omega

/-- What a question for fields adds is taken away by one for methods. -/
theorem owedMethods_fields_add_methods (name other : String) :
    owedMethods name [.fields other] + owedMethods name [.methods other] =
      0 := by
  by_cases h : other = name <;> simp [owedMethods, h]

namespace Resolver

variable (resolver : Resolver)

/-! ### Faults -/

/-- The answer to a question ends the run with a fault. -/
inductive StopsAt : Question → ResolveFault → Prop
  | failed {question : Question} {reason : String}
      (hfails : resolver.provider.FailsAt question reason) :
      StopsAt question (.lookupFailed question.subject reason)
  | unknown {name : String} (hpolicy : resolver.settings.unknown = .reject)
      (hcategory : resolver.provider.category name = .ok none) :
      StopsAt (.category name) (.unknownType name)

/-- The run goes on after the answer to a question. -/
def GoesOn (question : Question) : Prop :=
  ∀ fault, ¬ resolver.StopsAt question fault

/-- A fault that is no answer.  A record is cyclic where its category was found
last and it is being expanded already. -/
inductive Raised (past : List Step) : ResolveFault → Prop
  | badExpr (fault : TypeExpr.Fault) : Raised past (.badExpr fault)
  | tooDeep (limit : Nat) (signature : String) :
      Raised past (.tooDeep limit signature)
  | cyclic {before after : List Step} {expr : TypeExpr}
      (hpast : past = before ++ .asked (.category expr.name.text) :: after)
      (hafter : questionsAmong after = [])
      (hfinds : resolver.Finds expr (some .record))
      (hopen : expr.signature ∈ openRecords before) :
      Raised past (.cyclic expr.signature)

/-- The fault is the answer to the last question, or it is no answer, and the
run went on after all answers before. -/
def FailsAfter (past : List Step) (fault : ResolveFault) : Prop :=
  (∃ before question, questionsAmong past = before ++ [question] ∧
    (∀ other ∈ before, resolver.GoesOn other) ∧
    resolver.StopsAt question fault) ∨
  (∀ question ∈ questionsAmong past, resolver.GoesOn question) ∧
  resolver.Raised past fault

/-! ### Questions -/

/-- These steps resolve the declared fields of a record, one after another and
all of them. -/
structure DeclaredSteps (expr : TypeExpr) (left : Nat) (enclosing : List String)
    (decls : List FieldDecl) (types : List TypeExpr) (steps : List Step) :
    Prop where
  finds : resolver.Finds expr (some .record)
  fields : resolver.provider.fields expr.name.text = .ok decls
  reads : ∃ typeVars, resolver.provider.typeVars expr.name.text = .ok typeVars ∧
    List.Forall₂
      (fun decl type => TypeExpr.ofSignatureWith
        (Bindings.zip typeVars expr.params) decl.type = .ok type)
      decls types
  resolved : ∀ type ∈ types, ∃ shape,
    (resolver.resolveWithin left (expr.signature :: enclosing) type).outcome =
      .ok shape
  steps_eq : steps = types.flatMap fun type =>
    (resolver.resolveWithin left (expr.signature :: enclosing) type).steps

/-- A question is due after some steps. -/
inductive Due (past : List Step) : Question → Prop
  | scalar (name : String) : Due past (.scalar name)
  | category {before : List Step} {expr : TypeExpr} {depth : Nat}
      {enclosing : List String}
      (hpast : past = before ++
        [.enter expr depth enclosing, .asked (.scalar expr.name.text)])
      (hscalar : resolver.provider.scalar expr.name.text = none)
      (hregistry : resolver.registry.contains expr.name.text = false) :
      Due past (.category expr.name.text)
  | typeVars {before : List Step} {expr : TypeExpr} {depth : Nat}
      {enclosing : List String}
      (hpast : past =
        before ++ lookupSteps expr depth enclosing ++ [.expand expr.signature])
      (hfinds : resolver.Finds expr (some .record)) :
      Due past (.typeVars expr.name.text)
  | fields {before : List Step} {expr : TypeExpr} {depth : Nat}
      {enclosing : List String}
      (hpast : past = before ++ lookupSteps expr depth enclosing ++
        [.expand expr.signature, .asked (.typeVars expr.name.text)])
      (hfinds : resolver.Finds expr (some .record)) :
      Due past (.fields expr.name.text)
  | methods {before inner : List Step} {expr : TypeExpr} {depth left : Nat}
      {enclosing : List String} {decls : List FieldDecl} {types : List TypeExpr}
      (hextraction : resolver.settings.extraction ≠ .declaredOnly)
      (hpast : past = before ++ lookupSteps expr depth enclosing ++
        [.expand expr.signature, .asked (.typeVars expr.name.text),
          .asked (.fields expr.name.text)] ++ inner)
      (hinner : resolver.DeclaredSteps expr left enclosing decls types inner) :
      Due past (.methods expr.name.text)

/-- What a resolver asks, and what it fails with. -/
def discipline : Discipline where
  asks past question :=
    (∀ other ∈ questionsAmong past, resolver.GoesOn other) ∧
    resolver.Due past question
  fails := resolver.FailsAfter
  fails_leave := by
    intro past fault last hlast hfails
    have hquestions := questionsAmong_append_quiet hlast past
    rcases hfails with hstopped | ⟨hgoesOn, hraised⟩
    · exact Or.inl (hquestions ▸ hstopped)
    · refine Or.inr ⟨hquestions ▸ hgoesOn, ?_⟩
      cases hraised with
      | badExpr fault => exact .badExpr fault
      | tooDeep limit signature => exact .tooDeep limit signature
      | @cyclic before after _ hpast hafter hfinds hopen =>
          have hlater := (questionsAmong_append_quiet hlast after).trans hafter
          refine .cyclic ?_ hlater hfinds hopen
          rw [hpast, List.append_assoc, List.cons_append]

/-! ### The state of a run -/

/-- What is known of the steps before an expression is resolved: the run went on
after all answers, these records are being expanded, and so many more times were
the fields of the name asked for than its methods, if those are asked for. -/
structure Stands (name : String) (past : List Step) (records : List String)
    (owed : Int) : Prop where
  goesOn : ∀ question ∈ questionsAmong past, resolver.GoesOn question
  records : openRecords past = records
  owed : resolver.settings.extraction ≠ .declaredOnly →
    owedMethods name (questionsAmong past) = owed

variable {resolver} {name : String} {past : List Step} {records : List String}
  {owed : Int}

/-- The same is known after a run, whatever its value. -/
def StandsAfter (resolver : Resolver) {α : Type} (name : String)
    (records : List String) (owed : Int) (past : List Step) (_ : α) : Prop :=
  resolver.Stands name past records owed

theorem stands_nil : resolver.Stands name [] [] 0 :=
  ⟨nofun, rfl, fun _ => rfl⟩

theorem Stands.ask (h : resolver.Stands name past records owed)
    {question : Question} (hgoesOn : resolver.GoesOn question) :
    resolver.Stands name (past ++ [.asked question]) records
      (owed + owedMethods name [question]) where
  goesOn := by
    intro other hother
    rw [questionsAmong_append] at hother
    rcases List.mem_append.1 hother with hbefore | hlast
    · exact h.goesOn other hbefore
    · rw [List.mem_singleton.1 hlast]
      exact hgoesOn
  records := (openRecords_append _ _).trans h.records
  owed hextraction := by
    rw [questionsAmong_append, owedMethods_append, h.owed hextraction]
    rfl

theorem Stands.askOther (h : resolver.Stands name past records owed)
    {question : Question} (hgoesOn : resolver.GoesOn question)
    (hother : owedMethods name [question] = 0) :
    resolver.Stands name (past ++ [.asked question]) records owed := by
  have hasked := h.ask hgoesOn
  rwa [hother, Int.add_zero] at hasked

/-- Steps that ask nothing only open and close records. -/
theorem Stands.quiet (h : resolver.Stands name past records owed) {step : Step}
    (hstep : step.question? = none) :
    resolver.Stands name (past ++ [step]) (step.recordsAfter records) owed := by
  have hquestions := questionsAmong_append_quiet hstep past
  refine ⟨hquestions ▸ h.goesOn, ?_, hquestions ▸ h.owed⟩
  rw [openRecords_append, h.records]
  rfl

theorem Stands.asks (h : resolver.Stands name past records owed)
    {question : Question} (hdue : resolver.Due past question) :
    resolver.discipline.asks past question :=
  ⟨h.goesOn, hdue⟩

theorem Stands.failsAfter (h : resolver.Stands name past records owed)
    {fault : ResolveFault} (hraised : resolver.Raised past fault) :
    resolver.FailsAfter past fault :=
  Or.inr ⟨h.goesOn, hraised⟩

/-- The run ends with the answer to a question. -/
theorem Stands.failsAfter_ask (h : resolver.Stands name past records owed)
    {question : Question} {fault : ResolveFault}
    (hstops : resolver.StopsAt question fault) :
    resolver.FailsAfter (past ++ [.asked question]) fault :=
  Or.inl
    ⟨questionsAmong past, question, questionsAmong_append _ _, h.goesOn, hstops⟩

/-! ### Answers after which a run goes on -/

theorem goesOn_scalar (name : String) : resolver.GoesOn (.scalar name) := by
  rintro _ (⟨⟨⟩⟩ | _)

theorem goesOn_category {category : Category}
    (h : resolver.provider.category name = .ok (some category)) :
    resolver.GoesOn (.category name) := by
  rintro _ (⟨⟨hfailed⟩⟩ | ⟨-, hunknown⟩)
  · cases h.symm.trans hfailed
  · cases h.symm.trans hunknown

theorem goesOn_category_of_unknown
    (h : resolver.provider.category name = .ok none)
    (hpolicy : resolver.settings.unknown ≠ .reject) :
    resolver.GoesOn (.category name) := by
  rintro _ (⟨⟨hfailed⟩⟩ | ⟨hreject, -⟩)
  · cases h.symm.trans hfailed
  · exact hpolicy hreject

theorem goesOn_typeVars {typeVars : List String}
    (h : resolver.provider.typeVars name = .ok typeVars) :
    resolver.GoesOn (.typeVars name) := by
  rintro _ ⟨hfails⟩
  cases hfails with
  | typeVars hfailed => cases h.symm.trans hfailed

theorem goesOn_fields {decls : List FieldDecl}
    (h : resolver.provider.fields name = .ok decls) :
    resolver.GoesOn (.fields name) := by
  rintro _ ⟨hfails⟩
  cases hfails with
  | fields hfailed => cases h.symm.trans hfailed

theorem goesOn_methods {methods : List MethodDecl}
    (h : resolver.provider.methods name = .ok methods) :
    resolver.GoesOn (.methods name) := by
  rintro _ ⟨hfails⟩
  cases hfails with
  | methods hfailed => cases h.symm.trans hfailed

/-! ### Runs follow the discipline -/

theorem exists_of_addField_ok {below : TypeExpr → Run Shape}
    {bindings : Bindings} {fields fields' : Table Shape} {source : FieldSource}
    (h : (addField below bindings fields source).outcome = .ok fields') :
    ∃ type, TypeExpr.ofSignatureWith bindings source.type = .ok type ∧
      (∃ shape, (below type).outcome = .ok shape) ∧
      (addField below bindings fields source).steps = (below type).steps := by
  unfold addField at h ⊢
  cases hread : TypeExpr.ofSignatureWith bindings source.type with
  | error fault =>
      rw [hread] at h
      cases h
  | ok type =>
      rw [hread] at h
      change (below type >>=
        fun shape => pure (fields.put source.name shape)).outcome = _ at h
      obtain ⟨shape, hshape, -, hsteps⟩ := Run.exists_of_bind_ok h
      exact ⟨type, rfl, ⟨shape, hshape⟩, hsteps.trans (List.append_nil _)⟩

/-- Fields that were all added were read and resolved one after another. -/
theorem exists_of_addFields_ok {below : TypeExpr → Run Shape}
    {bindings : Bindings} {sources : List FieldSource}
    {start fields : Table Shape}
    (h : (sources.foldlM (addField below bindings) start).outcome =
      .ok fields) :
    ∃ types, List.Forall₂ (fun source type =>
      TypeExpr.ofSignatureWith bindings source.type = .ok type) sources types ∧
      (∀ type ∈ types, ∃ shape, (below type).outcome = .ok shape) ∧
      (sources.foldlM (addField below bindings) start).steps =
        types.flatMap fun type => (below type).steps := by
  induction sources generalizing start with
  | nil => exact ⟨[], .nil, nofun, rfl⟩
  | cons source rest ih =>
      rw [List.foldlM_cons] at h ⊢
      obtain ⟨middle, hadded, hrest, hsteps⟩ := Run.exists_of_bind_ok h
      obtain ⟨type, hread, hresolved, hfirst⟩ := exists_of_addField_ok hadded
      obtain ⟨types, hreads, hall, hothers⟩ := ih hrest
      refine ⟨type :: types, .cons hread hreads,
        List.forall_mem_cons.2 ⟨hresolved, hall⟩, ?_⟩
      rw [hsteps, hfirst, hothers, List.flatMap_cons]

theorem Stands.reading (h : resolver.Stands name past records owed)
    (outcome : Except TypeExpr.Fault TypeExpr) :
    (Run.ofExcept (outcome.mapError ResolveFault.badExpr)).Follows
      resolver.discipline past (resolver.StandsAfter name records owed) :=
  Run.Follows.ofExcept (fun fault => h.failsAfter (.badExpr fault)) (fun _ => h)

section Level

variable {before : List Step} {expr : TypeExpr} {depth left : Nat}
  {enclosing : List String}

theorem resolveUnknown_follows
    (h : resolver.Stands name
      (before ++ [.enter expr depth enclosing, .asked (.scalar expr.name.text)])
      records owed)
    (hfinds : resolver.Finds expr none) :
    (resolver.resolveUnknown expr).Follows resolver.discipline
      (before ++ lookupSteps expr depth enclosing)
      (resolver.StandsAfter name records owed) := by
  have hpast := append_lookupSteps before expr depth enclosing
  have hkept (hpolicy : resolver.settings.unknown ≠ .reject) : resolver.Stands
      name (before ++ lookupSteps expr depth enclosing) records owed :=
    hpast ▸ h.askOther (goesOn_category_of_unknown hfinds.category hpolicy) rfl
  unfold resolveUnknown
  split
  · next hpolicy =>
      rw [hpast]
      exact Run.Follows.fail
        (h.failsAfter_ask (.unknown hpolicy hfinds.category))
  · next hpolicy => exact Run.Follows.pure (hkept (by rw [hpolicy]; nofun))
  · next hpolicy => exact Run.Follows.pure (hkept (by rw [hpolicy]; nofun))

/-- What lies a level deeper follows the discipline inside any records. -/
def FollowsBelow (resolver : Resolver) (name : String) (left : Nat) : Prop :=
  ∀ {past records owed}, resolver.Stands name past records owed → ∀ expr,
    (resolver.resolveWithin left records expr).Follows resolver.discipline past
      (resolver.StandsAfter name records owed)

theorem addField_follows (hbelow : resolver.FollowsBelow name left)
    {bindings : Bindings} {fields : Table Shape} {source : FieldSource}
    (h : resolver.Stands name past records owed) :
    (addField (resolver.resolveWithin left records) bindings fields
      source).Follows resolver.discipline past
      (resolver.StandsAfter name records owed) := by
  unfold addField
  apply Run.Follows.bind (h.reading _)
  intro type _ h
  apply Run.Follows.bind (hbelow h type)
  exact fun shape _ h => Run.Follows.pure h

theorem expandFields_follows (hbelow : resolver.FollowsBelow name left)
    (hfinds : resolver.Finds expr (some .record))
    (h : resolver.Stands name
      (before ++ lookupSteps expr depth enclosing ++ [.expand expr.signature])
      (expr.signature :: enclosing) owed) :
    (resolver.expandFields
      (resolver.resolveWithin left (expr.signature :: enclosing)) expr).Follows
      resolver.discipline
      (before ++ lookupSteps expr depth enclosing ++ [.expand expr.signature])
      (resolver.StandsAfter name (expr.signature :: enclosing) owed) := by
  unfold expandFields
  apply Run.Follows.askOrFail_bind (h.asks (.typeVars rfl hfinds))
    (fun _ hfailed => h.failsAfter_ask (.failed (.typeVars hfailed)))
  intro typeVars htypeVars
  have hvars := h.askOther (goesOn_typeVars htypeVars) rfl
  have hpast : before ++ lookupSteps expr depth enclosing ++
      [.expand expr.signature] ++ [.asked (.typeVars expr.name.text)] =
      before ++ lookupSteps expr depth enclosing ++
        [.expand expr.signature, .asked (.typeVars expr.name.text)] :=
    List.append_assoc _ _ _
  apply Run.Follows.askOrFail_bind (hvars.asks (.fields hpast hfinds))
    (fun _ hfailed => hvars.failsAfter_ask (.failed (.fields hfailed)))
  intro decls hdecls
  have hfields := hvars.ask (goesOn_fields hdecls)
  apply Run.Follows.bind (Run.Follows.foldlM
    (fun _ _ _ _ hbefore => addField_follows hbelow hbefore) hfields)
  intro fields hdeclared hstands
  split
  · next hextraction =>
      exact Run.Follows.pure
        ⟨hstands.goesOn, hstands.records, absurd hextraction⟩
  · next hextraction =>
      obtain ⟨types, hreads, hresolved, hsteps⟩ :=
        exists_of_addFields_ok hdeclared
      have hinner : resolver.DeclaredSteps expr left enclosing decls types _ :=
        ⟨hfinds, hdecls,
          ⟨typeVars, htypeVars, List.forall₂_map_left_iff.1 hreads⟩, hresolved,
          hsteps⟩
      have hpast : ∀ inner : List Step,
          before ++ lookupSteps expr depth enclosing ++
            [.expand expr.signature] ++ [.asked (.typeVars expr.name.text)] ++
            [.asked (.fields expr.name.text)] ++ inner =
            before ++ lookupSteps expr depth enclosing ++
              [.expand expr.signature, .asked (.typeVars expr.name.text),
               .asked (.fields expr.name.text)] ++ inner := by
        simp
      apply Run.Follows.askOrFail_bind
        (hstands.asks (.methods hextraction (hpast _) hinner))
        (fun _ hfailed => hstands.failsAfter_ask (.failed (.methods hfailed)))
      intro methods hmethods
      have hasked := hstands.ask (goesOn_methods hmethods)
      rw [Int.add_assoc, owedMethods_fields_add_methods, Int.add_zero] at hasked
      exact Run.Follows.foldlM
        (fun _ _ _ _ hbefore => addField_follows hbelow hbefore) hasked

theorem resolveRecord_follows (hbelow : resolver.FollowsBelow name left)
    (hfinds : resolver.Finds expr (some .record))
    (h : resolver.Stands name (before ++ lookupSteps expr depth enclosing)
      enclosing owed) :
    (resolver.resolveRecord (resolver.resolveWithin left) enclosing
      expr).Follows resolver.discipline
      (before ++ lookupSteps expr depth enclosing)
      (resolver.StandsAfter name enclosing owed) := by
  by_cases hrefuses : resolver.Refuses enclosing expr
  · rw [resolveRecord_of_refuses hrefuses]
    have hpast := append_lookupSteps before expr depth enclosing
    have hrecords : openRecords (before ++
        [.enter expr depth enclosing, .asked (.scalar expr.name.text)]) =
        enclosing := by
      have hlookup := h.records
      rw [openRecords_append] at hlookup ⊢
      exact hlookup
    have hopen := hrefuses.2
    rw [← hrecords] at hopen
    exact Run.Follows.fail
      (h.failsAfter (.cyclic hpast questionsAmong_nil hfinds hopen))
  · rw [resolveRecord_of_not_refuses hrefuses]
    have hfields := expandFields_follows hbelow hfinds (h.quiet rfl)
    have hexpanded : ∀ past (fields : Table Shape), resolver.StandsAfter name
        (expr.signature :: enclosing) owed past fields → resolver.StandsAfter
          name enclosing owed (past ++ [.expanded expr.signature]) fields :=
      fun _ _ hstands => hstands.quiet rfl
    apply Run.Follows.bind (Run.Follows.between rfl rfl hfields hexpanded)
    exact fun fields _ hstands => Run.Follows.pure hstands

theorem resolveCategory_follows (hbelow : resolver.FollowsBelow name left)
    {category : Category} (hfinds : resolver.Finds expr (some category))
    (h : resolver.Stands name (before ++ lookupSteps expr depth enclosing)
      enclosing owed) :
    (resolver.resolveCategory (resolver.resolveWithin left) enclosing expr
      (some category)).Follows resolver.discipline
      (before ++ lookupSteps expr depth enclosing)
      (resolver.StandsAfter name enclosing owed) := by
  cases category with
  | enumeration constants => exact Run.Follows.pure h
  | collection =>
      apply Run.Follows.bind (hbelow h _)
      exact fun element _ hstands => Run.Follows.pure hstands
  | mapping =>
      apply Run.Follows.bind (hbelow h _)
      intro key _ hstands
      apply Run.Follows.bind (hbelow hstands _)
      exact fun value _ hstands => Run.Follows.pure hstands
  | record => exact resolveRecord_follows hbelow hfinds h

theorem resolveName_follows (hbelow : resolver.FollowsBelow name left)
    (helement : expr.element? = none)
    (h : resolver.Stands name (before ++ [.enter expr depth enclosing])
      enclosing owed) :
    (resolver.resolveName (resolver.resolveWithin left) enclosing expr).Follows
      resolver.discipline (before ++ [.enter expr depth enclosing])
      (resolver.StandsAfter name enclosing owed) := by
  have hlooked := h.askOther (goesOn_scalar expr.name.text) rfl
  have hpast : before ++ [.enter expr depth enclosing] ++
      [.asked (.scalar expr.name.text)] = before ++
        [.enter expr depth enclosing, .asked (.scalar expr.name.text)] :=
    List.append_assoc _ _ _
  unfold resolveName
  apply Run.Follows.ask_bind (h.asks (.scalar _))
  split
  · exact Run.Follows.pure hlooked
  · next hscalar =>
      split
      · exact Run.Follows.pure hlooked
      · next hregistry =>
          have hregistry := Bool.eq_false_iff.2 hregistry
          apply Run.Follows.askOrFail_bind
            (hlooked.asks (.category hpast hscalar hregistry)) (fun _ hfailed =>
              hlooked.failsAfter_ask (.failed (.category hfailed)))
          intro category hcategory
          have hfinds : resolver.Finds expr category :=
            ⟨helement, hscalar, hregistry, hcategory⟩
          rw [hpast, ← append_lookupSteps]
          cases category with
          | none => exact resolveUnknown_follows (hpast ▸ hlooked) hfinds
          | some category =>
              have hstands := hlooked.askOther (goesOn_category hcategory) rfl
              rw [hpast, ← append_lookupSteps] at hstands
              exact resolveCategory_follows hbelow hfinds hstands

theorem resolveLevel_follows (hbelow : resolver.FollowsBelow name left)
    (h : resolver.Stands name (before ++ [.enter expr depth enclosing])
      enclosing owed) :
    (resolver.resolveLevel (resolver.resolveWithin left) enclosing expr).Follows
      resolver.discipline (before ++ [.enter expr depth enclosing])
      (resolver.StandsAfter name enclosing owed) := by
  unfold resolveLevel
  split
  · next element helement =>
      apply Run.Follows.bind (hbelow h element)
      exact fun shape _ hstands => Run.Follows.pure hstands
  · next helement => exact resolveName_follows hbelow helement h

end Level

/-- With as many levels left and inside any records, a resolution follows the
discipline, and what is known before it is known after it. -/
theorem resolveWithin_follows (left : Nat) :
    resolver.FollowsBelow name left := by
  have hleave : ∀ {records owed} (expr : TypeExpr) (depth : Nat) past
      (shape : Shape),
      resolver.StandsAfter name records owed past shape → resolver.StandsAfter
        name records owed (past ++ [.leave expr depth records]) shape :=
    fun _ _ _ _ hstands => hstands.quiet rfl
  induction left with
  | zero =>
      intro past records owed h expr
      have hentered : resolver.Stands name
          (past ++ [.enter expr resolver.settings.maxDepth records]) records
          owed := h.quiet rfl
      have hfails :=
        hentered.failsAfter (.tooDeep resolver.settings.maxDepth expr.signature)
      exact Run.Follows.between rfl rfl (Run.Follows.fail hfails)
        (hleave expr _)
  | succ left ih =>
      intro past records owed h expr
      exact Run.Follows.between rfl rfl (resolveLevel_follows ih (h.quiet rfl))
        (hleave expr _)

variable (resolver) (name)

/-- Every run follows the discipline, whether it fails or not. -/
theorem run_follows (request : Request) :
    (resolver.run request).Follows resolver.discipline []
      (resolver.StandsAfter name [] 0) := by
  have hstart : resolver.Stands name [] [] 0 := stands_nil
  cases request with
  | expr expr => exact resolveWithin_follows _ hstart expr
  | signature text =>
      apply Run.Follows.bind (hstart.reading _)
      exact fun expr _ hstands => resolveWithin_follows _ hstands expr
  | roots roots =>
      have hadd : ∀ root ∈ roots, ∀ past (fields : Table Shape),
          resolver.StandsAfter name [] 0 past fields →
            (resolver.addRoot fields root).Follows resolver.discipline past
              (resolver.StandsAfter name [] 0) := by
        intro root _ past fields hstands
        apply Run.Follows.bind (resolveWithin_follows _ hstands root.2)
        exact fun shape _ hstands => Run.Follows.pure hstands
      apply Run.Follows.bind (Run.Follows.foldlM hadd hstart)
      exact fun fields _ hstands => Run.Follows.pure hstands

variable {resolver} {request : Request} {before after : List Question}
  {question : Question}

/-- A question of a run is due where it is asked, and the run went on after all
questions before. -/
theorem exists_due_of_questions
    (h : (resolver.run request).questions = before ++ question :: after) :
    ∃ earlier, questionsAmong earlier = before ∧ resolver.Due earlier question ∧
      ∀ other ∈ before, resolver.GoesOn other := by
  obtain ⟨earlier, later, hsteps, rfl, -⟩ := exists_asked_of_questionsAmong h
  obtain ⟨hgoesOn, hdue⟩ :=
    (resolver.run_follows "" request).asks earlier question later hsteps
  exact ⟨earlier, rfl, hdue, hgoesOn⟩

theorem exists_due_of_mem (h : question ∈ (resolver.run request).questions) :
    ∃ past, resolver.Due past question := by
  obtain ⟨before, after, hquestions⟩ := List.append_of_mem h
  obtain ⟨past, -, hdue, -⟩ := exists_due_of_questions hquestions
  exact ⟨past, hdue⟩

/-- An answer that ends the run is the last one. -/
theorem eq_nil_of_stopsAt
    (h : (resolver.run request).questions = before ++ question :: after)
    {fault : ResolveFault} (hstops : resolver.StopsAt question fault) :
    after = [] := by
  cases after with
  | nil => rfl
  | cons next after =>
      rw [List.append_cons] at h
      obtain ⟨-, -, -, hgoesOn⟩ := exists_due_of_questions h
      exact absurd hstops
        (hgoesOn question (List.mem_append_right _ List.mem_cons_self) fault)

end Resolver

end TypeShape
