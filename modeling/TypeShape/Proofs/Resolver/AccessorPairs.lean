import Mathlib
import TypeShape.Proofs.Resolver.FieldExtraction
import TypeShape.Proofs.Resolver.UnknownPolicy

/-!
Getters and setters side by side.  A method takes nothing, one thing or more
than that, and fields come from the first two kinds one after the other.  So it
does not matter how the methods of the two kinds are interleaved, nor which
others stand between them.  A getter and a setter that are named alike stand for
one field, which is where the name comes first and has the type that the last
such setter takes.
-/
namespace TypeShape

/-! ### Methods by what they take -/

/-- Two lists have the same methods that take nothing, and the same methods that
take one thing, in the same order each. -/
def SameByArity (methods methods' : List MethodDecl) : Prop :=
  ∀ arity ∈ [0, 1],
    methods.filter (fun method => method.params.length = arity) =
      methods'.filter (fun method => method.params.length = arity)

/-- Two answers about methods are the same but for how the methods are
interleaved. -/
inductive AnswersByArity :
    Except String (List MethodDecl) → Except String (List MethodDecl) → Prop
  | ok {methods methods' : List MethodDecl} (h : SameByArity methods methods') :
      AnswersByArity (.ok methods) (.ok methods')
  | error (reason : String) : AnswersByArity (.error reason) (.error reason)

namespace MethodDecl

theorem length_params_of_getterSource? {method : MethodDecl}
    {source : FieldSource} (h : method.getterSource? = some source) :
    method.params.length = 0 := by
  unfold getterSource? at h
  split at h
  · next hqualifies => rw [hqualifies.1, List.length_nil]
  · cases h

theorem length_params_of_setterSource? {method : MethodDecl}
    {source : FieldSource} (h : method.setterSource? = some source) :
    method.params.length = 1 := by
  unfold setterSource? at h
  split at h
  · next hparams => rw [hparams, List.length_singleton]
  · cases h

end MethodDecl

theorem SameByArity.filterMap_eq {methods methods' : List MethodDecl}
    (h : SameByArity methods methods')
    {source? : MethodDecl → Option FieldSource} {arity : Nat}
    (harity : arity ∈ [0, 1])
    (hsource : ∀ method source,
      source? method = some source → method.params.length = arity) :
    methods.filterMap source? = methods'.filterMap source? := by
  have hfiltered (methods : List MethodDecl) :
      (methods.filter fun method => method.params.length = arity).filterMap
        source? = methods.filterMap source? := by
    rw [List.filterMap_filter]
    apply List.filterMap_congr
    intro method _
    cases hmethod : source? method with
    | none => exact ite_self none
    | some source =>
        exact if_pos (decide_eq_true (hsource method source hmethod))
  rw [← hfiltered methods, ← hfiltered methods', h arity harity]

theorem SameByArity.sources_eq {methods methods' : List MethodDecl}
    (h : SameByArity methods methods') (extraction : Extraction) :
    extraction.sources methods = extraction.sources methods' := by
  rw [Extraction.sources, Extraction.sources, h.filterMap_eq (by decide)
    fun _ _ => MethodDecl.length_params_of_getterSource?, h.filterMap_eq
      (by decide) fun _ _ => MethodDecl.length_params_of_setterSource?]

/-! ### Names of getters and setters -/

theorem afterWord?_append (word rest : List Char) :
    afterWord? word (word ++ rest) = some rest := by
  induction word with
  | nil => rfl
  | cons c word ih => rw [List.cons_append, afterWord?, if_pos rfl, ih]

/-- A method that qualifies as a getter and is called `get…` or `is…`. -/
structure IsGetterOf (suffix : String) (method : MethodDecl) : Prop where
  params : method.params = []
  returns : isVoidSignature method.returns = false
  name : method.name = "get" ++ suffix ∧ suffix ≠ "Class" ∨
    method.name = "is" ++ suffix

/-- A method that qualifies as a setter of a type and is called `set…`. -/
structure IsSetterOf (suffix param : String) (method : MethodDecl) : Prop where
  params : method.params = [param]
  returns : isVoidSignature method.returns = true
  name : method.name = "set" ++ suffix

theorem IsGetterOf.source {suffix name : String} {method : MethodDecl}
    (h : IsGetterOf suffix method)
    (hname : accessorField? suffix.toList = some name) :
    method.getterSource? = some ⟨name, method.returns⟩ := by
  have hafter : (afterWord? ['g', 'e', 't'] method.name.toList <|>
      afterWord? ['i', 's'] method.name.toList) = some suffix.toList := by
    rcases h.name with ⟨hget, -⟩ | his
    · rw [hget, String.toList_append]
      exact congrArg (· <|> _) (afterWord?_append ['g', 'e', 't'] suffix.toList)
    · rw [his, String.toList_append]
      exact afterWord?_append ['i', 's'] suffix.toList
  have hclass : method.name ≠ "getClass" := by
    rcases h.name with ⟨hget, hsuffix⟩ | his
    · rw [hget]
      exact fun heq => hsuffix ((String.append_right_inj "get").1 heq)
    · rw [his]
      intro heq
      have hchars := congrArg String.toList heq
      rw [String.toList_append] at hchars
      cases hchars
  unfold MethodDecl.getterSource?
  rw [if_pos ⟨h.params, h.returns, hclass⟩]
  simp only [hafter, hname, Option.map_some]

theorem IsSetterOf.source {suffix param name : String} {method : MethodDecl}
    (h : IsSetterOf suffix param method)
    (hname : accessorField? suffix.toList = some name) :
    method.setterSource? = some ⟨name, param⟩ := by
  have hafter : afterWord? ['s', 'e', 't'] method.name.toList =
      some suffix.toList := by
    rw [h.name, String.toList_append]
    exact afterWord?_append ['s', 'e', 't'] suffix.toList
  unfold MethodDecl.setterSource?
  simp only [h.params, h.returns, if_true, hafter, hname, Option.map_some]

namespace Resolver

/-! ### Methods interleaved in another way -/

def withMethods (resolver : Resolver)
    (methods : String → Except String (List MethodDecl)) : Resolver :=
  { resolver with provider := { resolver.provider with methods } }

section Interleaved

variable {resolver : Resolver}
  {methods : String → Except String (List MethodDecl)}

theorem looksUpAlike_withMethods :
    LooksUpAlike sameSteps Eq (resolver.withMethods methods) resolver where
  scalar _ := Run.sameButFor_eq_iff.2 rfl
  registry _ := rfl
  category _ := Run.sameButFor_eq_iff.2 rfl
  unknown _ := Run.sameButFor_eq_iff.2 rfl

variable
  (hmethods : ∀ name,
    AnswersByArity (resolver.provider.methods name) (methods name))

include hmethods

/-- The methods of a record are asked for and only their sources are used. -/
theorem expandFields_withMethods (below : TypeExpr → Run Shape)
    (expr : TypeExpr) :
    (resolver.withMethods methods).expandFields below expr =
      resolver.expandFields below expr := by
  have hadded (bindings : Bindings) (fields : Table Shape) :
      (Run.askOrFail (.methods expr.name.text) (methods expr.name.text) >>=
        fun methods => (resolver.settings.extraction.sources methods).foldlM
          (addField below bindings) fields) =
      (Run.askOrFail (.methods expr.name.text)
        (resolver.provider.methods expr.name.text) >>=
        fun methods => (resolver.settings.extraction.sources methods).foldlM
          (addField below bindings) fields) := by
    generalize methods expr.name.text = answer',
      resolver.provider.methods expr.name.text = answer,
      hmethods expr.name.text = h
    cases h with
    | error reason => rfl
    | ok h =>
        rw [Run.bind_of_ok rfl, Run.bind_of_ok rfl, h.sources_eq]
        rfl
  simp only [expandFields, withMethods, hadded]

theorem resolveWithin_withMethods (left : Nat) (enclosing : List String)
    (expr : TypeExpr) :
    (resolver.withMethods methods).resolveWithin left enclosing expr =
      resolver.resolveWithin left enclosing expr := by
  induction left generalizing enclosing expr with
  | zero => rfl
  | succ left ih =>
      have hbelow : (resolver.withMethods methods).resolveWithin left =
          resolver.resolveWithin left :=
        funext fun enclosing => funext fun expr => ih enclosing expr
      rw [← Run.sameButFor_eq_iff]
      refine Run.SameButFor.between ?_ _ _
      apply resolveLevel_holds_of_record (C := sameSteps) shapeCongruence_eq
        looksUpAlike_withMethods
      · exact fun part => Run.sameButFor_eq_iff.2 (ih enclosing part)
      · apply Run.sameButFor_eq_iff.2
        simp only [hbelow, resolveRecord, expandFields_withMethods hmethods]
        rfl

theorem run_withMethods (request : Request) :
    (resolver.withMethods methods).run request = resolver.run request := by
  rw [← Run.sameButFor_eq_iff]
  refine run_holds (C := sameSteps) shapeCongruence_eq contribution_related_eq
    ?_ request
  exact fun expr =>
    Run.sameButFor_eq_iff.2 (resolveWithin_withMethods hmethods _ [] expr)

end Interleaved

/-! ### One field for a getter and a setter -/

section Pairs

variable {resolver : Resolver} {left : Nat} {enclosing : List String}
  {expr : TypeExpr} {typeVars : List String} {decls : List FieldDecl}
  {methods : List MethodDecl} {fields : List (String × Shape)}

/-- A record that takes fields from all methods has one field of a name.  It
stands where the name comes first among the sources of the record, behind the
names that come before it, and has the type that the last setter of the name
takes. -/
structure HasPairedField (resolver : Resolver) (left : Nat)
    (enclosing : List String) (expr : TypeExpr) (typeVars : List String)
    (decls : List FieldDecl) (methods : List MethodDecl) (name : String)
    (fields : List (String × Shape)) : Prop where
  once : (entryNames fields).count name = 1
  place : ∀ before source after,
    decls.map FieldDecl.source ++ Extraction.both.sources methods =
      before ++ source :: after → source.name = name →
    name ∉ before.map FieldSource.name → ∃ later, entryNames fields =
      (before.map FieldSource.name).eraseDups ++ name :: later
  type : ∀ before setter after param, methods = before ++ setter :: after →
    setter.setterSource? = some ⟨name, param⟩ →
    (∀ method ∈ after, ∀ param', method.setterSource? ≠ some ⟨name, param'⟩) →
    ∃ shape, resolver.fieldOutcome left enclosing expr typeVars ⟨name, param⟩ =
      .ok shape ∧
      fields.lookup name = some shape

/-- The fields of a record are the shapes of its declared fields and of all its
methods. -/
theorem exists_shape_of_record (hboth : resolver.settings.extraction = .both)
    (houtcome : (resolver.resolveWithin (left + 1) enclosing expr).outcome =
      .ok (.record fields))
    (htypeVars : resolver.provider.typeVars expr.name.text = .ok typeVars)
    (hdecls : resolver.provider.fields expr.name.text = .ok decls)
    (hmethods : resolver.provider.methods expr.name.text = .ok methods) :
    ∃ shape : FieldSource → Shape,
      (∀ source ∈ decls.map FieldDecl.source ++ Extraction.both.sources methods,
        resolver.fieldOutcome left enclosing expr typeVars source =
          .ok (shape source)) ∧
      fields = (Table.ofList
        ((decls.map FieldDecl.source ++ Extraction.both.sources methods).map
          fun source => (source.name, shape source))).entries := by
  obtain ⟨table, htable, hfields⟩ :=
    exists_fields_of_finds (finds_of_record houtcome) houtcome
  obtain ⟨typeVars', decls', derived, hexpanded⟩ :=
    exists_of_expandFields_ok htable
  cases htypeVars.symm.trans hexpanded.vars
  cases hdecls.symm.trans hexpanded.fields
  have hderived : derived = Extraction.both.sources methods := by
    have haccessors := hexpanded.accessors
    rw [accessorSources, hboth, if_neg (by decide), hmethods] at haccessors
    exact (Except.ok.inj haccessors).symm
  subst hderived
  obtain ⟨shape, hshape⟩ := exists_shape_of_resolved hexpanded.resolved
  refine ⟨shape, hshape, ?_⟩
  have hall := expandFields_of_resolved hexpanded.vars hexpanded.fields
    hexpanded.accessors hshape
  cases htable.symm.trans hall
  exact Shape.record.inj hfields

theorem eraseDups_append_cons {name : String} {before : List String}
    (hnew : name ∉ before) (after : List String) :
    ∃ later, (before ++ name :: after).eraseDups =
      before.eraseDups ++ name :: later := by
  rw [List.eraseDups_append]
  simp only [List.removeAll, List.filter_cons, List.elem_eq_contains,
    List.contains_eq_mem, hnew, decide_false, Bool.not_false, if_true,
    List.eraseDups_cons]
  exact ⟨_, rfl⟩

theorem hasPairedField_of_record (hboth : resolver.settings.extraction = .both)
    (houtcome : (resolver.resolveWithin (left + 1) enclosing expr).outcome =
      .ok (.record fields))
    (htypeVars : resolver.provider.typeVars expr.name.text = .ok typeVars)
    (hdecls : resolver.provider.fields expr.name.text = .ok decls)
    (hmethods : resolver.provider.methods expr.name.text = .ok methods)
    {name : String}
    (hnamed : ∃ method ∈ methods,
      ∃ param, method.setterSource? = some ⟨name, param⟩) :
    resolver.HasPairedField left enclosing expr typeVars decls methods name
      fields := by
  obtain ⟨shape, hshape, hfields⟩ :=
    exists_shape_of_record hboth houtcome htypeVars hdecls hmethods
  have hnames : entryNames fields =
      ((decls.map FieldDecl.source ++ Extraction.both.sources methods).map
        FieldSource.name).eraseDups := by
    rw [hfields]
    exact (Table.names_ofList _).trans (congrArg List.eraseDups List.map_map)
  have hdistinct : (entryNames fields).Nodup := by
    rw [hfields]
    exact Table.distinct _
  constructor
  · apply List.count_eq_one_of_mem hdistinct
    obtain ⟨method, hmethod, param, hsource⟩ := hnamed
    have hsetter : (⟨name, param⟩ : FieldSource) ∈
        Extraction.both.sources methods :=
      List.mem_append_right _ (List.mem_filterMap.2 ⟨method, hmethod, hsource⟩)
    rw [hnames, List.mem_eraseDups]
    exact List.mem_map.2 ⟨⟨name, param⟩, List.mem_append_right _ hsetter, rfl⟩
  · rintro before source after hsources rfl hnew
    rw [hnames, hsources, List.map_append, List.map_cons]
    exact eraseDups_append_cons hnew _
  · intro before setter after param hsplit hsetter hlast
    have hsources : decls.map FieldDecl.source ++
        Extraction.both.sources methods = decls.map FieldDecl.source ++
          methods.filterMap MethodDecl.getterSource? ++
          before.filterMap MethodDecl.setterSource? ++
          ⟨name, param⟩ :: after.filterMap MethodDecl.setterSource? := by
      have hsetters : methods.filterMap MethodDecl.setterSource? =
          before.filterMap MethodDecl.setterSource? ++
            ⟨name, param⟩ :: after.filterMap MethodDecl.setterSource? := by
        rw [hsplit, List.filterMap_append, List.filterMap_cons_some hsetter]
      change _ ++ (_ ++ methods.filterMap MethodDecl.setterSource?) = _
      rw [hsetters]
      simp only [List.append_assoc, Extraction.usesGetters, if_true]
    refine ⟨shape ⟨name, param⟩,
      hshape _ (hsources ▸ List.mem_append_cons_self), ?_⟩
    rw [hfields, hsources, List.map_append, List.map_cons]
    apply Table.get?_ofList_of_last
    rw [entryNames, List.map_map, List.map_filterMap, List.mem_filterMap]
    rintro ⟨method, hmethod, hnamed'⟩
    obtain ⟨⟨name', param'⟩, hsetter', hname⟩ :=
      Option.map_eq_some_iff.1 hnamed'
    obtain rfl : name' = name := hname
    exact hlast method hmethod param' hsetter'

/-- How methods are interleaved does not matter.  Answers about methods with the
same methods of each kind, in the same order, give the same runs.  And what
follows `get`, `is` or `set` in the names of methods that qualify gives one and
the same name, so that a getter and a setter, wherever they stand among the
methods, are one field. -/
theorem run_interleaved :
    (∀ (resolver : Resolver)
      (methods : String → Except String (List MethodDecl)),
      (∀ name, AnswersByArity (resolver.provider.methods name) (methods name)) →
      ∀ request,
        (resolver.withMethods methods).run request = resolver.run request) ∧
    ∀ suffix : String, suffix ≠ "" → ∃ name,
      (∀ method, IsGetterOf suffix method →
        method.getterSource? = some ⟨name, method.returns⟩) ∧
      (∀ method param, IsSetterOf suffix param method →
        method.setterSource? = some ⟨name, param⟩) ∧
      ∀ (resolver : Resolver) (left : Nat) (enclosing : List String)
        (expr : TypeExpr) (typeVars : List String) (decls : List FieldDecl)
        (methods : List MethodDecl) (fields : List (String × Shape))
        (getter setter : MethodDecl) (param : String),
        resolver.settings.extraction = .both →
        (resolver.resolveWithin (left + 1) enclosing expr).outcome =
          .ok (.record fields) →
        resolver.provider.typeVars expr.name.text = .ok typeVars →
        resolver.provider.fields expr.name.text = .ok decls →
        resolver.provider.methods expr.name.text = .ok methods →
        getter ∈ methods → IsGetterOf suffix getter → setter ∈ methods →
        IsSetterOf suffix param setter →
        resolver.HasPairedField left enclosing expr typeVars decls methods name
          fields := by
  refine ⟨fun resolver methods hmethods request =>
    run_withMethods hmethods request, ?_⟩
  intro suffix hsuffix
  obtain ⟨name, hname⟩ : ∃ name, accessorField? suffix.toList = some name := by
    cases hchars : suffix.toList with
    | nil => exact absurd (String.toList_eq_nil_iff.1 hchars) hsuffix
    | cons first rest => exact ⟨_, rfl⟩
  refine ⟨name, fun method hgetter => hgetter.source hname,
    fun method param hsetter => hsetter.source hname, ?_⟩
  intro resolver left enclosing expr typeVars decls methods fields getter setter
    param hboth houtcome htypeVars hdecls hmethods _ _ hmem hsetter
  exact hasPairedField_of_record hboth houtcome htypeVars hdecls hmethods
    ⟨setter, hmem, param, hsetter.source hname⟩

def meterMethods : List MethodDecl :=
  [⟨"setURL", ["long"], "void"⟩, ⟨"setSpan", ["int", "int"], "void"⟩,
   ⟨"isURL", [], "boolean"⟩,
   ⟨"setURL", ["java.lang.String"], " java.lang.Void"⟩]

/-- The accessors of a meter, the getter before the setters. -/
def meterAccessors : List MethodDecl :=
  [⟨"isURL", [], "boolean"⟩, ⟨"setURL", ["long"], "void"⟩,
    ⟨"setURL", ["java.lang.String"], " java.lang.Void"⟩]

/-- A resolver for meters, with two levels for a meter and its fields. -/
def meters : Resolver where
  provider :=
    { category name := .ok (if name = "Meter" then some .record else none)
      typeVars _ := .ok []
      fields _ := .ok [⟨"unit", "int"⟩]
      methods _ := .ok meterMethods }
  settings := { maxDepth := 2 }

/-- The one field of a meter for its three accessors has the type of the last
setter, and the getter may as well stand before the setters. -/
theorem run_interleaved_meters :
    let meter : TypeExpr := ⟨⟨"Meter", by decide⟩, [], 0⟩
    let fields : List (String × Shape) :=
      [("unit", .leaf (.scalar .int)), ("uRL", .leaf (.scalar .string))]
    (∀ name, AnswersByArity (meters.provider.methods name) (.ok meterAccessors))
        ∧ (meters.resolveWithin 2 [] meter).outcome = .ok (.record fields) ∧
        ((meters.withMethods fun _ => .ok meterAccessors).run
          (.expr meter)).outcome = .ok (.record fields) ∧ meters.HasPairedField
        1 [] meter [] [⟨"unit", "int"⟩] meterMethods "uRL" fields := by
  intro meter fields
  have hmethods : ∀ name,
      AnswersByArity (meters.provider.methods name) (.ok meterAccessors) := by
    intro name
    exact .ok (by unfold SameByArity; decide)
  have hmeter : (meters.resolveWithin 2 [] meter).outcome =
      .ok (.record fields) := by
    cbv
  refine ⟨hmethods, hmeter, ?_, ?_⟩
  · rw [run_interleaved.1 meters _ hmethods]
    exact hmeter
  · obtain ⟨name, hgetters, -, hpaired⟩ := run_interleaved.2 "URL" (by decide)
    have hgetter : IsGetterOf "URL" ⟨"isURL", [], "boolean"⟩ :=
      ⟨rfl, by decide +kernel, Or.inr (by decide)⟩
    have hsetter : IsSetterOf "URL" "long" ⟨"setURL", ["long"], "void"⟩ :=
      ⟨rfl, by decide +kernel, by decide⟩
    have hsource : MethodDecl.getterSource? ⟨"isURL", [], "boolean"⟩ =
        some ⟨"uRL", "boolean"⟩ := by
      decide +kernel
    have hname : name = "uRL" :=
      congrArg FieldSource.name
        (Option.some.inj ((hgetters _ hgetter).symm.trans hsource))
    subst hname
    exact hpaired meters 1 [] meter [] _ _ fields ⟨"isURL", [], "boolean"⟩
      ⟨"setURL", ["long"], "void"⟩ "long" rfl hmeter rfl rfl rfl (by decide)
      hgetter (by decide) hsetter

end Pairs

end Resolver

end TypeShape
