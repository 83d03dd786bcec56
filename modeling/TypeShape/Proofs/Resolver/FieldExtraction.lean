import Mathlib
import TypeShape.Proofs.Resolver.FieldOrder
import TypeShape.Proofs.Resolver.Pruning
import TypeShape.Proofs.Run.History

/-!
Choosing the methods that give fields.  The wider choice resolves more sources
at every record, so it has a shape at most where the narrower one has, though
the shapes themselves cannot be compared: what a method gives may replace what a
declared field gave.  The names of a record can be compared, for sources that
are added come last.
-/
namespace TypeShape

namespace Extraction

/-- One choice is no wider than another if it uses no methods that the other
does not. -/
instance : LE Extraction where
  le narrow wide := (narrow.usesGetters = true → wide.usesGetters = true) ∧
    (narrow.usesSetters = true → wide.usesSetters = true)

instance : DecidableLE Extraction :=
  fun narrow wide => inferInstanceAs (Decidable
    ((narrow.usesGetters = true → wide.usesGetters = true) ∧
      (narrow.usesSetters = true → wide.usesSetters = true)))

example :
    declaredOnly ≤ getters ∧ declaredOnly ≤ setters ∧ getters ≤ both ∧
    setters ≤ both ∧ ¬ getters ≤ setters ∧ ¬ setters ≤ getters := by
  decide

theorem sources_declaredOnly (methods : List MethodDecl) :
    declaredOnly.sources methods = [] := rfl

theorem sources_nil (extraction : Extraction) : extraction.sources [] = [] := by
  simp [sources]

theorem sources_both (methods : List MethodDecl) :
    both.sources methods =
      getters.sources methods ++ setters.sources methods := by
  simp [sources, usesGetters, usesSetters]

theorem sources_subset {narrow wide : Extraction} (hle : narrow ≤ wide)
    (methods : List MethodDecl) :
    narrow.sources methods ⊆ wide.sources methods := by
  intro source hsource
  rcases List.mem_append.1 hsource with hgetter | hsetter
  · split at hgetter
    · next huses =>
        apply List.mem_append_left
        rwa [if_pos (hle.1 huses)]
    · cases hgetter
  · split at hsetter
    · next huses =>
        apply List.mem_append_right
        rwa [if_pos (hle.2 huses)]
    · cases hsetter

end Extraction

/-- A run compared with another one as to its end. -/
def ending : Comparison where
  Holds S run run' := Run.SameEnd S run.outcome run'.outcome
  pure h := Or.inl ⟨_, _, rfl, rfl, h⟩
  bind h hnext := by
    rcases h with ⟨a, b, ha, hb, hab⟩ | ⟨fault, hfault, hfault'⟩
    · rw [Run.bind_of_ok ha, Run.bind_of_ok hb]
      exact hnext a b hab
    · rw [Run.bind_of_error hfault, Run.bind_of_error hfault']
      exact Or.inr ⟨fault, rfl, rfl⟩
  badExpr fault := Or.inr ⟨.badExpr fault, rfl, rfl⟩
  expanding _ h := h

theorem ending_self {α : Type} (run : Run α) : ending.Holds Eq run run :=
  Run.sameEnd_eq_iff.2 rfl

theorem shapeCongruence_true : ShapeCongruence fun _ _ => True where
  scalar _ := trivial
  enumeration _ := trivial
  custom _ := trivial
  sequence _ _ _ _ := trivial
  mapping _ _ := trivial
  record _ := trivial

namespace Resolver

def extracting (resolver : Resolver) (extraction : Extraction) : Resolver :=
  { resolver with settings := { resolver.settings with extraction } }

def withoutMethods (resolver : Resolver) : Resolver :=
  { resolver with provider :=
    { resolver.provider with methods := fun _ => .ok [] } }

/-! ### What a record was expanded from -/

section Expanded

variable {resolver : Resolver} {expr : TypeExpr} {below : TypeExpr → Run Shape}

/-- The fields of a record are the shapes of sources that could all be
resolved. -/
structure ExpandedFrom (resolver : Resolver) (below : TypeExpr → Run Shape)
    (expr : TypeExpr) (typeVars : List String) (decls : List FieldDecl)
    (derived : List FieldSource) : Prop where
  vars : resolver.provider.typeVars expr.name.text = .ok typeVars
  fields : resolver.provider.fields expr.name.text = .ok decls
  accessors : resolver.accessorSources expr.name.text = .ok derived
  resolved : ∀ source ∈ decls.map FieldDecl.source ++ derived, ∃ shape,
    (resolveSource below (Bindings.zip typeVars expr.params) source).outcome =
      .ok shape

theorem exists_of_expandFields_ok {fields : Table Shape}
    (h : (resolver.expandFields below expr).outcome = .ok fields) :
    ∃ typeVars decls derived,
      resolver.ExpandedFrom below expr typeVars decls derived := by
  cases htypeVars : resolver.provider.typeVars expr.name.text with
  | error reason =>
      rw [expandFields, Run.bind_of_error (by rw [htypeVars]; rfl)] at h
      cases h
  | ok typeVars =>
      cases hdecls : resolver.provider.fields expr.name.text with
      | error reason =>
          rw [expandFields,
            Run.bind_of_ok (a := typeVars) (by rw [htypeVars]; rfl)] at h
          dsimp only at h
          rw [Run.bind_of_error (by rw [hdecls]; rfl)] at h
          cases h
      | ok decls =>
          rw [outcome_expandFields htypeVars hdecls] at h
          obtain ⟨declared, hdeclared, hadded, -⟩ := Run.exists_of_bind_ok h
          rw [outcome_addAccessors] at hadded
          cases hderived : resolver.accessorSources expr.name.text with
          | error reason =>
              rw [hderived] at hadded
              cases hadded
          | ok derived =>
              rw [hderived] at hadded
              exact ⟨typeVars, decls, derived, htypeVars, hdecls, hderived,
                List.forall_mem_append.2 ⟨resolved_of_addFields hdeclared,
                  resolved_of_addFields hadded⟩⟩

/-- A record that is expanded has the names of its sources, each where it comes
first. -/
theorem ExpandedFrom.names {typeVars : List String} {decls : List FieldDecl}
    {derived : List FieldSource}
    (h : resolver.ExpandedFrom below expr typeVars decls derived) :
    ∃ fields, (resolver.expandFields below expr).outcome = .ok fields ∧
      fields.names = ((decls.map FieldDecl.source ++ derived).map
        FieldSource.name).eraseDups := by
  obtain ⟨shape, hshape⟩ := exists_shape_of_resolved h.resolved
  refine ⟨_, expandFields_of_resolved h.vars h.fields h.accessors hshape, ?_⟩
  exact (Table.names_ofList _).trans (congrArg List.eraseDups List.map_map)

end Expanded

/-! ### Shapes that are records -/

section Records

variable {resolver : Resolver} {left : Nat} {enclosing : List String}
  {expr : TypeExpr}

/-- Only an expression that is a record by its category has a record for its
shape. -/
theorem finds_of_record {fields : List (String × Shape)}
    (h : (resolver.resolveWithin left enclosing expr).outcome =
      .ok (.record fields)) : resolver.Finds expr (some .record) := by
  cases left with
  | zero => cases h
  | succ left =>
      rw [resolveWithin, Run.outcome_between, resolveLevel] at h
      cases helement : expr.element? with
      | some element =>
          rw [helement] at h
          obtain ⟨shape, -, hshape, -⟩ := Run.exists_of_bind_ok h
          cases hshape
      | none =>
          rw [helement] at h
          dsimp only at h
          rcases resolver.lookup_cases helement with
            ⟨kind, hscalar⟩ | ⟨hscalar, hregistry⟩ |
              ⟨hscalar, hregistry, reason, hfailed⟩ | ⟨category, hfinds⟩
          · rw [resolver.resolveName_of_scalar _ _ hscalar] at h
            cases h
          · rw [resolver.resolveName_of_registered _ _ hscalar hregistry] at h
            cases h
          · rw [resolver.resolveName_of_lookupFailed _ _ hscalar hregistry
              hfailed] at h
            cases h
          · rw [resolver.resolveName_of_finds _ _ hfinds,
              Run.bind_of_ok (a := ()) rfl] at h
            cases category with
            | none =>
                change (resolver.resolveUnknown expr).outcome = _ at h
                unfold resolveUnknown at h
                split at h <;> cases h
            | some category =>
                cases category with
                | record => exact hfinds
                | enumeration constants => cases h
                | collection =>
                    obtain ⟨element, -, hshape, -⟩ := Run.exists_of_bind_ok h
                    cases hshape
                | mapping =>
                    obtain ⟨key, -, hvalue, -⟩ := Run.exists_of_bind_ok h
                    obtain ⟨value, -, hshape, -⟩ := Run.exists_of_bind_ok hvalue
                    cases hshape

theorem exists_fields_of_finds (hfinds : resolver.Finds expr (some .record))
    {shape : Shape}
    (h : (resolver.resolveWithin left enclosing expr).outcome = .ok shape) :
    ∃ fields,
      (resolver.expandFields (resolver.belowRecord (left - 1) enclosing expr)
        expr).outcome = .ok fields ∧
      shape = .record fields.entries := by
  cases left with
  | zero => cases h
  | succ left =>
      by_cases hrefuses : resolver.Refuses enclosing expr
      · rw [resolveWithin, Run.outcome_between, resolveLevel,
          hfinds.element?] at h
        dsimp only at h
        rw [resolveName_of_finds _ _ _ hfinds, Run.bind_of_ok (a := ()) rfl,
          resolveCategory, resolveRecord_of_refuses hrefuses] at h
        cases h
      · rw [outcome_resolveWithin_of_record hfinds hrefuses] at h
        rw [Nat.add_sub_cancel]
        cases hfields : (resolver.expandFields
          (resolver.belowRecord left enclosing expr) expr).outcome with
        | error fault =>
            rw [hfields] at h
            cases h
        | ok fields =>
            rw [hfields] at h
            exact ⟨fields, rfl, (Except.ok.inj h).symm⟩

/-- The names of a record are those of its declared fields and then those from
methods. -/
theorem exists_names_of_record {fields : List (String × Shape)}
    (h : (resolver.resolveWithin left enclosing expr).outcome =
      .ok (.record fields)) :
    ∃ decls derived, resolver.provider.fields expr.name.text = .ok decls ∧
      resolver.accessorSources expr.name.text = .ok derived ∧
      entryNames fields = ((decls.map FieldDecl.source ++ derived).map
        FieldSource.name).eraseDups := by
  obtain ⟨table, htable, hshape⟩ := exists_fields_of_finds (finds_of_record h) h
  obtain ⟨typeVars, decls, derived, hexpanded⟩ :=
    exists_of_expandFields_ok htable
  obtain ⟨table', htable', hnames⟩ := hexpanded.names
  cases htable.symm.trans htable'
  cases hshape
  exact ⟨decls, derived, hexpanded.fields, hexpanded.accessors, hnames⟩

end Records

/-! ### A narrower choice of methods -/

section Choices

variable (resolver : Resolver)

theorem finds_extracting {extraction extraction' : Extraction} {expr : TypeExpr}
    {category : Option Category}
    (h : (resolver.extracting extraction).Finds expr category) :
    (resolver.extracting extraction').Finds expr category :=
  ⟨h.element?, h.scalar, h.registry, h.category⟩

theorem accessorSources_extracting {extraction : Extraction} {name : String}
    {methods : List MethodDecl}
    (h : resolver.provider.methods name = .ok methods) :
    (resolver.extracting extraction).accessorSources name =
      .ok (extraction.sources methods) := by
  unfold accessorSources
  split
  · next hunused =>
      have hextraction : extraction = .declaredOnly := hunused
      rw [hextraction, Extraction.sources_declaredOnly]
  · change (resolver.provider.methods name).map extraction.sources = _
    rw [h]
    rfl

theorem exists_methods_of_accessorSources {extraction : Extraction}
    (hused : extraction ≠ .declaredOnly) {name : String}
    {derived : List FieldSource}
    (h : (resolver.extracting extraction).accessorSources name = .ok derived) :
    ∃ methods, resolver.provider.methods name = .ok methods ∧
      derived = extraction.sources methods := by
  have hasked : ¬ (resolver.extracting extraction).settings.extraction =
      .declaredOnly := hused
  rw [accessorSources, if_neg hasked] at h
  change (resolver.provider.methods name).map extraction.sources = _ at h
  cases hmethods : resolver.provider.methods name with
  | error reason =>
      rw [hmethods] at h
      cases h
  | ok methods =>
      rw [hmethods] at h
      exact ⟨methods, rfl, (Except.ok.inj h).symm⟩

variable {narrow wide : Extraction} (hle : narrow ≤ wide)

include hle

/-- A narrower choice needs no methods that a wider one does not. -/
theorem accessorSources_extracting_of_le {name : String}
    {derived : List FieldSource}
    (h : (resolver.extracting wide).accessorSources name = .ok derived) :
    ∃ derived',
      (resolver.extracting narrow).accessorSources name = .ok derived' ∧
      derived' ⊆ derived := by
  -- where methods are not used the provider need not know them
  by_cases hunused : narrow = .declaredOnly
  · refine ⟨[], ?_, List.nil_subset _⟩
    exact if_pos hunused
  · have hused : wide ≠ .declaredOnly := by
      rintro rfl
      revert hle hunused
      cases narrow <;> decide
    obtain ⟨methods, hmethods, rfl⟩ :=
      resolver.exists_methods_of_accessorSources hused h
    exact ⟨_, resolver.accessorSources_extracting hmethods,
      Extraction.sources_subset hle methods⟩

/-- A narrower choice resolves fewer of the sources of a record. -/
theorem expandFields_extracting_succeedsWith
    {below below' : TypeExpr → Run Shape}
    (hbelow : ∀ part, (below part).SucceedsWith (fun _ _ => True) (below' part))
    (expr : TypeExpr) :
    ((resolver.extracting wide).expandFields below expr).SucceedsWith
      (fun _ _ => True)
      ((resolver.extracting narrow).expandFields below' expr) := by
  intro fields hfields
  obtain ⟨typeVars, decls, derived, hexpanded⟩ :=
    exists_of_expandFields_ok hfields
  obtain ⟨derived', hderived', hsubset⟩ :=
    resolver.accessorSources_extracting_of_le hle hexpanded.accessors
  have hresolved : ∀ source ∈ decls.map FieldDecl.source ++ derived',
      ∃ shape, (resolveSource below' (Bindings.zip typeVars expr.params)
        source).outcome = .ok shape := by
    intro source hsource
    have hwide : source ∈ decls.map FieldDecl.source ++ derived :=
      List.mem_append.2
        ((List.mem_append.1 hsource).imp_right fun hmem => hsubset hmem)
    obtain ⟨shape, hshape⟩ := hexpanded.resolved source hwide
    have hsucceeds : (resolveSource below (Bindings.zip typeVars expr.params)
        source).SucceedsWith (fun _ _ => True)
        (resolveSource below' (Bindings.zip typeVars expr.params) source) := by
      apply Run.SucceedsWith.bind (Run.succeedsWith_self _)
      rintro part _ rfl
      exact hbelow part
    obtain ⟨shape', hshape', -⟩ := hsucceeds shape hshape
    exact ⟨shape', hshape'⟩
  have hnarrow : (resolver.extracting narrow).ExpandedFrom below' expr typeVars
      decls derived' :=
    ⟨hexpanded.vars, hexpanded.fields, hderived', hresolved⟩
  obtain ⟨fields', hfields', -⟩ := hnarrow.names
  exact ⟨fields', hfields', trivial⟩

/-- With a narrower choice an expression has a shape wherever it has one with a
wider. -/
theorem resolveWithin_extracting_succeedsWith (left : Nat)
    (enclosing : List String) (expr : TypeExpr) :
    ((resolver.extracting wide).resolveWithin left enclosing expr).SucceedsWith
      (fun _ _ => True)
      ((resolver.extracting narrow).resolveWithin left enclosing expr) := by
  induction left generalizing enclosing expr with
  | zero => exact nofun
  | succ left ih =>
      have hlooks : LooksUpAlike success (fun _ _ => True)
          (resolver.extracting wide) (resolver.extracting narrow) :=
        { scalar _ := Run.succeedsWith_self _
          registry _ := rfl
          category _ := Run.succeedsWith_self _
          unknown _ shape hshape := ⟨shape, hshape, trivial⟩ }
      apply resolveLevel_holds_of_record (C := success) shapeCongruence_true
        hlooks (ih enclosing)
      apply resolveRecord_holds_of_fields (C := success) (fun _ => trivial)
        (resolver.expandFields_extracting_succeedsWith hle
          (ih (expr.signature :: enclosing)) expr)
      · exact fun _ => nofun
      · exact id

end Choices

/-! ### The names of a record -/

theorem names_isPrefix_append (sources added : List FieldSource) :
    (sources.map FieldSource.name).eraseDups <+:
      ((sources ++ added).map FieldSource.name).eraseDups := by
  rw [List.map_append, List.eraseDups_append]
  exact List.prefix_append _ _

/-- What becomes of an expression with each choice of methods that give
fields. -/
structure WidensFields (outcome : Extraction → Except ResolveFault Shape) :
    Prop where
  /-- A narrower choice gives a shape wherever a wider one does. -/
  succeeds : ∀ narrow wide shape, narrow ≤ wide → outcome wide = .ok shape →
    ∃ shape', outcome narrow = .ok shape'
  /-- Where one choice gives a record, no other gives another kind of shape. -/
  records : ∀ extraction extraction' fields shape,
    outcome extraction = .ok (.record fields) →
    outcome extraction' = .ok shape → ∃ fields', shape = .record fields'
  /-- The names of the declared fields come first. -/
  declaredFirst : ∀ extraction fields fields',
    outcome .declaredOnly = .ok (.record fields) →
    outcome extraction = .ok (.record fields') →
    entryNames fields <+: entryNames fields'
  /-- Those that setters add come after those of getters. -/
  gettersNext : ∀ fields fields', outcome .getters = .ok (.record fields) →
    outcome .both = .ok (.record fields') →
    entryNames fields <+: entryNames fields'
  /-- No name is there but for a getter or a setter or by itself. -/
  union : ∀ fields gotten set, outcome .both = .ok (.record fields) →
    outcome .getters = .ok (.record gotten) →
    outcome .setters = .ok (.record set) → ∀ name, name ∈ entryNames fields ↔
      name ∈ entryNames gotten ∨ name ∈ entryNames set

section Widening

variable (resolver : Resolver) (left : Nat) (enclosing : List String)
  (expr : TypeExpr)

/-- Where methods are used and there is a record, its names are those of its
declared fields and of the methods that are chosen. -/
theorem exists_names_of_extracting {extraction : Extraction}
    {fields : List (String × Shape)}
    (h : ((resolver.extracting extraction).resolveWithin left enclosing
      expr).outcome = .ok (.record fields))
    (hused : extraction ≠ .declaredOnly) :
    ∃ decls methods, resolver.provider.fields expr.name.text = .ok decls ∧
      resolver.provider.methods expr.name.text = .ok methods ∧
      entryNames fields =
        ((decls.map FieldDecl.source ++ extraction.sources methods).map
          FieldSource.name).eraseDups := by
  obtain ⟨decls, derived, hdecls, hderived, hnames⟩ := exists_names_of_record h
  obtain ⟨methods, hmethods, rfl⟩ :=
    resolver.exists_methods_of_accessorSources hused hderived
  exact ⟨decls, methods, hdecls, hmethods, hnames⟩

/-- Wherever in a run an expression is resolved, to use more methods only adds
fields. -/
theorem resolveWithin_widensFields :
    WidensFields
      fun extraction => ((resolver.extracting extraction).resolveWithin left
        enclosing expr).outcome where
  succeeds narrow wide shape hle hshape := by
    obtain ⟨shape', hshape', -⟩ :=
      resolver.resolveWithin_extracting_succeedsWith hle left enclosing expr
        shape hshape
    exact ⟨shape', hshape'⟩
  records extraction extraction' fields shape hrecord hshape := by
    have hfinds : (resolver.extracting extraction').Finds expr (some .record) :=
      resolver.finds_extracting (finds_of_record hrecord)
    obtain ⟨fields', -, hfields'⟩ := exists_fields_of_finds hfinds hshape
    exact ⟨fields'.entries, hfields'⟩
  declaredFirst extraction fields fields' hnarrow hwide := by
    obtain ⟨decls, derived, hdecls, hderived, hnames⟩ :=
      exists_names_of_record hnarrow
    obtain ⟨decls', derived', hdecls', -, hnames'⟩ :=
      exists_names_of_record hwide
    cases hdecls.symm.trans hdecls'
    have hnone : derived = [] := (Except.ok.inj hderived).symm
    rw [hnames, hnames', hnone, List.append_nil]
    exact names_isPrefix_append _ derived'
  gettersNext fields fields' hnarrow hwide := by
    obtain ⟨decls, methods, hdecls, hmethods, hnames⟩ :=
      resolver.exists_names_of_extracting left enclosing expr hnarrow nofun
    obtain ⟨decls', methods', hdecls', hmethods', hnames'⟩ :=
      resolver.exists_names_of_extracting left enclosing expr hwide nofun
    cases hdecls.symm.trans hdecls'
    cases hmethods.symm.trans hmethods'
    rw [hnames, hnames', Extraction.sources_both, ← List.append_assoc]
    exact names_isPrefix_append _ _
  union fields gotten set hboth hgetters hsetters name := by
    obtain ⟨decls, methods, hdecls, hmethods, hnames⟩ :=
      resolver.exists_names_of_extracting left enclosing expr hboth nofun
    obtain ⟨decls', methods', hdecls', hmethods', hgotten⟩ :=
      resolver.exists_names_of_extracting left enclosing expr hgetters nofun
    obtain ⟨decls'', methods'', hdecls'', hmethods'', hset⟩ :=
      resolver.exists_names_of_extracting left enclosing expr hsetters nofun
    cases hdecls.symm.trans hdecls'
    cases hmethods.symm.trans hmethods'
    cases hdecls.symm.trans hdecls''
    cases hmethods.symm.trans hmethods''
    simp only [hnames, hgotten, hset, Extraction.sources_both,
      List.mem_eraseDups, List.map_append, List.mem_append]
    tauto

theorem expandFields_withoutMethods (extraction : Extraction)
    {below below' : TypeExpr → Run Shape}
    (hbelow : ∀ part, ending.Holds Eq (below part) (below' part)) :
    ending.Holds (TablesRelated Eq)
      ((resolver.extracting .declaredOnly).expandFields below expr)
      ((resolver.withoutMethods.extracting extraction).expandFields below'
        expr) := by
  unfold expandFields
  apply ending.bind (ending_self _)
  rintro typeVars _ rfl
  apply ending.bind (ending_self _)
  rintro decls _ rfl
  refine ending.bind
    (ending.foldlM (addField_holds hbelow _) _ List.Forall₂.nil) ?_
  intro fields fields' hfields
  have hunused : (resolver.extracting .declaredOnly).settings.extraction =
      .declaredOnly := rfl
  rw [if_pos hunused]
  split
  · exact ending.pure hfields
  · refine Or.inl ⟨fields, fields', rfl, ?_, hfields⟩
    rw [Run.bind_of_ok (a := []) rfl]
    dsimp only
    rw [Extraction.sources_nil]
    rfl

/-- Without methods every choice does as that of the declared fields alone. -/
theorem resolveWithin_withoutMethods (extraction : Extraction) :
    Run.SameEnd Eq ((resolver.extracting .declaredOnly).resolveWithin left
      enclosing expr).outcome
      ((resolver.withoutMethods.extracting extraction).resolveWithin left
        enclosing expr).outcome := by
  induction left generalizing enclosing expr with
  | zero => exact Run.sameEnd_eq_iff.2 rfl
  | succ left ih =>
      have hlooks : LooksUpAlike ending Eq (resolver.extracting .declaredOnly)
          (resolver.withoutMethods.extracting extraction) :=
        { scalar _ := ending_self _
          registry _ := rfl
          category _ := ending_self _
          unknown _ := ending_self _ }
      apply resolveLevel_holds_of_record (C := ending) shapeCongruence_eq hlooks
        (ih enclosing)
      apply resolveRecord_holds_of_fields (C := ending) (T := TablesRelated Eq)
        (fun hfields => shapeCongruence_eq.record hfields)
        (resolver.expandFields_withoutMethods expr extraction
          (ih (expr.signature :: enclosing)))
      · exact fun hrefuses => refused_holds hrefuses (ending_self _)
      · exact id

end Widening

/-- To use more methods only adds fields, and without methods it makes no
difference. -/
theorem resolve_extracting_widensFields (resolver : Resolver)
    (expr : TypeExpr) :
    WidensFields (fun extraction =>
      ((resolver.extracting extraction).resolve expr).outcome) ∧
    ∀ extraction,
      ((resolver.withoutMethods.extracting extraction).resolve expr).outcome =
        ((resolver.extracting .declaredOnly).resolve expr).outcome := by
  refine ⟨resolver.resolveWithin_widensFields _ [] expr, fun extraction => ?_⟩
  exact (Run.sameEnd_eq_iff.1
    (resolver.resolveWithin_withoutMethods _ [] expr extraction)).symm

/-- A resolver for points, whose length has a getter and whose name has a
setter.  The setter of the place is for longer numbers than the place is
declared with. -/
def points : Resolver where
  provider :=
    { category name := .ok (if name = "Point" then some .record else none)
      typeVars _ := .ok []
      fields _ := .ok [⟨"place", "int"⟩]
      methods _ := .ok
        [⟨"setName", ["java.lang.String"], "void"⟩, ⟨"getLength", [], "double"⟩,
         ⟨"setPlace", ["long"], "void"⟩] }

/-- What a point comes to with a choice of the methods that give fields. -/
def pointOutcome (extraction : Extraction) : Except ResolveFault Shape :=
  ((points.extracting extraction).resolve ⟨⟨"Point", by decide⟩, [], 0⟩).outcome

/-- The place of a point is a longer number once setters are used, but its name
and those of getters stay where they are. -/
theorem resolve_extracting_widensFields_points :
    pointOutcome .both = .ok (.record [("place", .leaf (.scalar .long)),
      ("length", .leaf (.scalar .double)), ("name", .leaf (.scalar .string))]) ∧
    Extraction.setters ≤ .both ∧
    (∃ shape, pointOutcome .setters = .ok shape) ∧
    pointOutcome .declaredOnly =
      .ok (.record [("place", .leaf (.scalar .int))]) ∧
    ["place"] <+: ["place", "length", "name"] ∧
    pointOutcome .getters = .ok (.record
      [("place", .leaf (.scalar .int)), ("length", .leaf (.scalar .double))]) ∧
    ["place", "length"] <+: ["place", "length", "name"] ∧
    pointOutcome .setters = .ok (.record
      [("place", .leaf (.scalar .long)), ("name", .leaf (.scalar .string))]) ∧
    (∀ name, name ∈ ["place", "length", "name"] ↔
      name ∈ ["place", "length"] ∨ name ∈ ["place", "name"]) ∧
    ((points.withoutMethods.extracting .both).resolve
      ⟨⟨"Point", by decide⟩, [], 0⟩).outcome = pointOutcome .declaredOnly := by
  have hboth : pointOutcome .both = .ok (.record
      [("place", .leaf (.scalar .long)), ("length", .leaf (.scalar .double)),
       ("name", .leaf (.scalar .string))]) := by
    cbv
  have hdeclared : pointOutcome .declaredOnly =
      .ok (.record [("place", .leaf (.scalar .int))]) := by
    cbv
  have hgetters : pointOutcome .getters =
      .ok (.record [("place", .leaf (.scalar .int)),
        ("length", .leaf (.scalar .double))]) := by
    cbv
  have hsetters : pointOutcome .setters =
      .ok (.record [("place", .leaf (.scalar .long)),
        ("name", .leaf (.scalar .string))]) := by
    cbv
  obtain ⟨hwidens, hwithout⟩ :=
    resolve_extracting_widensFields points ⟨⟨"Point", by decide⟩, [], 0⟩
  have hle : Extraction.setters ≤ .both := by decide
  exact ⟨hboth, hle, hwidens.succeeds _ _ _ hle hboth, hdeclared,
    hwidens.declaredFirst _ _ _ hdeclared hboth, hgetters,
    hwidens.gettersNext _ _ hgetters hboth, hsetters,
    hwidens.union _ _ _ hboth hgetters hsetters, hwithout .both⟩

end Resolver

end TypeShape
