import Mathlib
import TypeShape.Proofs.Resolver.Lookup
import TypeShape.Proofs.Run.Gathering
import TypeShape.Proofs.Table.Entries

/-!
The fields of a record in order.  They come from the declared fields and then
from methods, and one name may come from several of these.  It stands where it
came first, with the shape of where it came last.  All of them have to be
resolved, and the first that cannot be decides how the record fails, whether or
not a later one of the same name could be.
-/
namespace TypeShape

namespace Resolver

/-! ### Sources one after another -/

section Sources

variable {below : TypeExpr → Run Shape} {bindings : Bindings}

def resolveSource (below : TypeExpr → Run Shape) (bindings : Bindings)
    (source : FieldSource) : Run Shape := do
  let expr ← .ofExcept
    ((TypeExpr.ofSignatureWith bindings source.type).mapError .badExpr)
  below expr

theorem addField_eq_gather :
    addField below bindings = Run.gather (resolveSource below bindings)
      fun source shape => [(source.name, shape)] := by
  funext fields source
  exact (bind_assoc _ _ _).symm

/-- Sources that can all be resolved are put under their names one after
another. -/
theorem addFields_of_resolved {sources : List FieldSource}
    {shape : FieldSource → Shape}
    (h : ∀ source ∈ sources,
      (resolveSource below bindings source).outcome = .ok (shape source))
    (start : Table Shape) :
    (sources.foldlM (addField below bindings) start).outcome = .ok (start.putAll
      (sources.map fun source => (source.name, shape source))) := by
  rw [addField_eq_gather, Run.gatherAll_of_resolved h, List.map_eq_flatMap]

/-- The first source that cannot be resolved decides, whatever comes after
it. -/
theorem addFields_of_fault {before after : List FieldSource}
    {source : FieldSource} {fault : ResolveFault}
    (hbefore : ∀ earlier ∈ before,
      ∃ shape, (resolveSource below bindings earlier).outcome = .ok shape)
    (hfault : (resolveSource below bindings source).outcome = .error fault)
    (start : Table Shape) :
    ((before ++ source :: after).foldlM (addField below bindings)
      start).outcome = .error fault := by
  rw [addField_eq_gather]
  exact Run.gatherAll_of_fault hbefore hfault start

theorem resolved_of_addFields {sources : List FieldSource}
    {start fields : Table Shape}
    (h : (sources.foldlM (addField below bindings) start).outcome =
      .ok fields) :
    ∀ source ∈ sources,
      ∃ shape, (resolveSource below bindings source).outcome = .ok shape := by
  rw [addField_eq_gather] at h
  exact Run.resolved_of_gatherAll h

end Sources

/-! ### The sources of a record -/

section Record

variable {resolver : Resolver} {enclosing : List String} {expr : TypeExpr}
  {typeVars : List String} {decls : List FieldDecl}

/-- An expression inside some records is expanded as a record that has these
type variables and declares these fields. -/
structure Expands (resolver : Resolver) (enclosing : List String)
    (expr : TypeExpr) (typeVars : List String) (decls : List FieldDecl) :
    Prop where
  finds : resolver.Finds expr (some .record)
  notRefused : ¬ resolver.Refuses enclosing expr
  typeVars : resolver.provider.typeVars expr.name.text = .ok typeVars
  fields : resolver.provider.fields expr.name.text = .ok decls

/-- The sources of the fields that methods stand for.  The provider is asked for
the methods only if any of them are used. -/
def accessorSources (resolver : Resolver) (name : String) :
    Except String (List FieldSource) :=
  if resolver.settings.extraction = .declaredOnly then .ok []
  else (resolver.provider.methods name).map resolver.settings.extraction.sources

/-- The fields of a record after those it declares. -/
def addAccessors (resolver : Resolver) (below : TypeExpr → Run Shape)
    (bindings : Bindings) (name : String) (fields : Table Shape) :
    Run (Table Shape) :=
  if resolver.settings.extraction = .declaredOnly then pure fields
  else do
    let methods ← .askOrFail (.methods name) (resolver.provider.methods name)
    (resolver.settings.extraction.sources methods).foldlM
      (addField below bindings) fields

/-- Without the methods, where they are used, there is no record; else the
fields go on with the sources that the methods are. -/
theorem outcome_addAccessors {below : TypeExpr → Run Shape}
    {bindings : Bindings} (name : String) (fields : Table Shape) :
    (resolver.addAccessors below bindings name fields).outcome =
      match resolver.accessorSources name with
      | .ok derived => (derived.foldlM (addField below bindings) fields).outcome
      | .error reason => .error (.lookupFailed name reason) := by
  unfold addAccessors accessorSources
  by_cases hunused : resolver.settings.extraction = .declaredOnly
  · rw [if_pos hunused, if_pos hunused]
    rfl
  · rw [if_neg hunused, if_neg hunused]
    cases resolver.provider.methods name with
    | ok methods => rfl
    | error reason => rfl

def belowRecord (resolver : Resolver) (left : Nat) (enclosing : List String)
    (expr : TypeExpr) : TypeExpr → Run Shape :=
  resolver.resolveWithin left (expr.signature :: enclosing)

/-- What the source of a field of a record comes to, with some levels left below
the record. -/
def fieldOutcome (resolver : Resolver) (left : Nat) (enclosing : List String)
    (expr : TypeExpr) (typeVars : List String) (source : FieldSource) :
    Except ResolveFault Shape :=
  (resolveSource (resolver.belowRecord left enclosing expr)
    (Bindings.zip typeVars expr.params) source).outcome

theorem outcome_expandFields {below : TypeExpr → Run Shape}
    (htypeVars : resolver.provider.typeVars expr.name.text = .ok typeVars)
    (hdecls : resolver.provider.fields expr.name.text = .ok decls) :
    (resolver.expandFields below expr).outcome =
      ((decls.map FieldDecl.source).foldlM
        (addField below (Bindings.zip typeVars expr.params)) .empty >>=
        resolver.addAccessors below (Bindings.zip typeVars expr.params)
        expr.name.text).outcome := by
  rw [expandFields, Run.bind_of_ok (a := typeVars) (by rw [htypeVars]; rfl)]
  dsimp only
  rw [Run.bind_of_ok (a := decls) (by rw [hdecls]; rfl)]
  rfl

theorem expandFields_of_resolved {below : TypeExpr → Run Shape}
    (htypeVars : resolver.provider.typeVars expr.name.text = .ok typeVars)
    (hdecls : resolver.provider.fields expr.name.text = .ok decls)
    {derived : List FieldSource}
    (hderived : resolver.accessorSources expr.name.text = .ok derived)
    {shape : FieldSource → Shape}
    (hresolved : ∀ source ∈ decls.map FieldDecl.source ++ derived,
      (resolveSource below (Bindings.zip typeVars expr.params) source).outcome =
        .ok (shape source)) :
    (resolver.expandFields below expr).outcome =
      .ok (Table.ofList ((decls.map FieldDecl.source ++ derived).map
        fun source => (source.name, shape source))) := by
  obtain ⟨hdeclared, hmethods⟩ := List.forall_mem_append.1 hresolved
  rw [outcome_expandFields htypeVars hdecls,
    Run.bind_of_ok (addFields_of_resolved hdeclared _), outcome_addAccessors,
    hderived]
  dsimp only
  rw [addFields_of_resolved hmethods, List.map_append, Table.ofList,
    Table.putAll_append]

/-- A record that is not refused comes to what its fields come to. -/
theorem outcome_resolveWithin_of_record
    (hfinds : resolver.Finds expr (some .record))
    (hnew : ¬ resolver.Refuses enclosing expr) (left : Nat) :
    (resolver.resolveWithin (left + 1) enclosing expr).outcome =
      (resolver.expandFields (resolver.belowRecord left enclosing expr)
        expr).outcome.map fun fields => .record fields.entries := by
  rw [resolveWithin, Run.outcome_between, resolveLevel, hfinds.element?]
  dsimp only
  rw [resolveName_of_finds _ _ _ hfinds, Run.bind_of_ok (a := ()) rfl,
    resolveCategory, resolveRecord_of_not_refuses hnew, Run.outcome_bind_pure,
    Run.outcome_between]
  rfl

/-- A record comes to what its declared fields and then those from methods come
to. -/
theorem Expands.outcome_resolveWithin
    (h : resolver.Expands enclosing expr typeVars decls) (left : Nat) :
    (resolver.resolveWithin (left + 1) enclosing expr).outcome =
      ((decls.map FieldDecl.source).foldlM
        (addField (resolver.belowRecord left enclosing expr)
          (Bindings.zip typeVars expr.params)) .empty >>= resolver.addAccessors
        (resolver.belowRecord left enclosing expr)
        (Bindings.zip typeVars expr.params) expr.name.text).outcome.map
        fun fields => .record fields.entries := by
  rw [outcome_resolveWithin_of_record h.finds h.notRefused,
    outcome_expandFields h.typeVars h.fields]

theorem Expands.outcome_of_resolved
    (h : resolver.Expands enclosing expr typeVars decls) {left : Nat}
    {derived : List FieldSource}
    (hderived : resolver.accessorSources expr.name.text = .ok derived)
    {shape : FieldSource → Shape}
    (hresolved : ∀ source ∈ decls.map FieldDecl.source ++ derived,
      resolver.fieldOutcome left enclosing expr typeVars source =
        .ok (shape source)) :
    (resolver.resolveWithin (left + 1) enclosing expr).outcome =
      .ok (.record (Table.ofList ((decls.map FieldDecl.source ++ derived).map
        fun source => (source.name, shape source))).entries) := by
  rw [outcome_resolveWithin_of_record h.finds h.notRefused,
    expandFields_of_resolved h.typeVars h.fields hderived hresolved]
  rfl

/-- What becomes of a record in view of what becomes of the sources of its
fields. -/
structure FieldsInOrder (resolver : Resolver) (left : Nat)
    (enclosing : List String) (expr : TypeExpr) (typeVars : List String)
    (decls : List FieldDecl) : Prop where
  /-- If all sources can be resolved, so can the record.  Its names stand in the
  order in which they come first, each with the shape of its last source. -/
  resolved : ∀ derived, resolver.accessorSources expr.name.text = .ok derived →
    (∀ source ∈ decls.map FieldDecl.source ++ derived, ∃ shape,
      resolver.fieldOutcome left enclosing expr typeVars source = .ok shape) →
    ∃ fields, (resolver.resolveWithin (left + 1) enclosing expr).outcome =
      .ok (.record fields) ∧
      entryNames fields = ((decls.map FieldDecl.source ++ derived).map
        FieldSource.name).eraseDups ∧
      ∀ before source after, decls.map FieldDecl.source ++ derived =
        before ++ source :: after → source.name ∉ after.map FieldSource.name →
        ∃ shape, resolver.fieldOutcome left enclosing expr typeVars source =
          .ok shape ∧
          fields.lookup source.name = some shape
  /-- A declared field decides if all before it can be resolved and it
  cannot. -/
  declaredFault : ∀ before source after fault,
    decls.map FieldDecl.source = before ++ source :: after →
    (∀ earlier ∈ before, ∃ shape,
      resolver.fieldOutcome left enclosing expr typeVars earlier = .ok shape) →
    resolver.fieldOutcome left enclosing expr typeVars source = .error fault →
    (resolver.resolveWithin (left + 1) enclosing expr).outcome = .error fault
  /-- The methods decide if all declared fields can be resolved and they are not
  given. -/
  methodsFault : ∀ reason,
    resolver.accessorSources expr.name.text = .error reason →
    (∀ source ∈ decls.map FieldDecl.source, ∃ shape,
      resolver.fieldOutcome left enclosing expr typeVars source = .ok shape) →
    (resolver.resolveWithin (left + 1) enclosing expr).outcome =
      .error (.lookupFailed expr.name.text reason)
  /-- A field from a method decides if all before it can be resolved and it
  cannot. -/
  derivedFault : ∀ before source after fault,
    resolver.accessorSources expr.name.text = .ok (before ++ source :: after) →
    (∀ earlier ∈ decls.map FieldDecl.source ++ before, ∃ shape,
      resolver.fieldOutcome left enclosing expr typeVars earlier = .ok shape) →
    resolver.fieldOutcome left enclosing expr typeVars source = .error fault →
    (resolver.resolveWithin (left + 1) enclosing expr).outcome = .error fault

/-- The fields of a record obey first position and last type, wherever in a run
the record is expanded. -/
theorem resolveWithin_fieldsInOrder
    (h : resolver.Expands enclosing expr typeVars decls) (left : Nat) :
    resolver.FieldsInOrder left enclosing expr typeVars decls := by
  constructor
  · intro derived hderived hresolved
    obtain ⟨shape, hshape⟩ := exists_shape_of_resolved hresolved
    refine ⟨_, h.outcome_of_resolved hderived hshape, ?_, ?_⟩
    · exact (Table.names_ofList _).trans (congrArg List.eraseDups List.map_map)
    · intro before source after hsources hlast
      refine ⟨shape source,
        hshape source (hsources ▸ List.mem_append_cons_self), ?_⟩
      rw [hsources, List.map_append, List.map_cons]
      apply Table.get?_ofList_of_last
      rwa [entryNames, List.map_map]
  · intro before source after fault hdecls hbefore hfault
    rw [h.outcome_resolveWithin, hdecls,
      Run.bind_of_error (addFields_of_fault hbefore hfault _)]
    rfl
  · intro reason hreason hresolved
    obtain ⟨shape, hshape⟩ := exists_shape_of_resolved hresolved
    rw [h.outcome_resolveWithin,
      Run.bind_of_ok (addFields_of_resolved hshape _), outcome_addAccessors,
      hreason]
    rfl
  · intro before source after fault hderived hearlier hfault
    obtain ⟨hdeclared, hbefore⟩ := List.forall_mem_append.1 hearlier
    obtain ⟨shape, hshape⟩ := exists_shape_of_resolved hdeclared
    rw [h.outcome_resolveWithin,
      Run.bind_of_ok (addFields_of_resolved hshape _), outcome_addAccessors,
      hderived]
    dsimp only
    rw [addFields_of_fault hbefore hfault]
    rfl

/-- A resolver for cells, whose value has the type of the variable, of a getter
and of a setter. -/
def cells : Resolver where
  provider :=
    { category name := .ok (if name = "Cell" then some .record else none)
      typeVars _ := .ok ["T"]
      fields _ := .ok [⟨"value", "T"⟩, ⟨"other", "int"⟩]
      methods _ := .ok
        [⟨"setValue", ["java.lang.String"], "void"⟩, ⟨"getValue", [], "long"⟩] }

def cellOf (name : TypeName) : TypeExpr :=
  ⟨⟨"Cell", by decide⟩, [⟨name, [], 0⟩], 0⟩

/-- The value of a cell stands first and has the type of the setter; but the
cell fails if the type for the variable is unknown, which the setter would have
replaced. -/
theorem resolveWithin_fieldsInOrder_cells :
    (∀ name,
      cells.Expands [] (cellOf name) ["T"] [⟨"value", "T"⟩, ⟨"other", "int"⟩]) ∧
    (∃ fields, (cells.resolveWithin 2 [] (cellOf ⟨"int", by decide⟩)).outcome =
      .ok (.record fields) ∧
      entryNames fields = ["value", "other"] ∧
      fields.lookup "value" = some (.leaf (.scalar .string))) ∧
    (cells.resolveWithin 2 [] (cellOf ⟨"Nowhere", by decide⟩)).outcome =
      .error (.unknownType "Nowhere") := by
  have hscalar : cells.provider.scalar "Cell" = none := by decide +kernel
  have hexpands (name : TypeName) :
      cells.Expands [] (cellOf name) ["T"] [⟨"value", "T"⟩, ⟨"other", "int"⟩] :=
    ⟨⟨rfl, hscalar, rfl, rfl⟩, fun hrefuses => List.not_mem_nil hrefuses.2, rfl,
      rfl⟩
  have horder (name : TypeName) := resolveWithin_fieldsInOrder (hexpands name) 1
  refine ⟨hexpands, ?_, ?_⟩
  · have hderived : cells.accessorSources "Cell" =
        .ok [⟨"value", "long"⟩, ⟨"value", "java.lang.String"⟩] := by
      cbv
    have hvalue : cells.fieldOutcome 1 [] (cellOf ⟨"int", by decide⟩) ["T"]
        ⟨"value", "java.lang.String"⟩ = .ok (.leaf (.scalar .string)) := by
      cbv
    have hresolved : ∀ source ∈ ([⟨"value", "T"⟩, ⟨"other", "int"⟩,
        ⟨"value", "long"⟩, ⟨"value", "java.lang.String"⟩] : List FieldSource),
        ∃ shape,
          cells.fieldOutcome 1 [] (cellOf ⟨"int", by decide⟩) ["T"] source =
            .ok shape := by
      simp only [List.forall_mem_cons]
      refine ⟨⟨.leaf (.scalar .int), ?_⟩, ⟨.leaf (.scalar .int), ?_⟩,
        ⟨.leaf (.scalar .long), ?_⟩, ⟨_, hvalue⟩, List.forall_mem_nil _⟩
      · cbv
      · cbv
      · cbv
    obtain ⟨fields, houtcome, hnames, hlast⟩ :=
      (horder ⟨"int", by decide⟩).resolved _ hderived hresolved
    obtain ⟨shape, hshape, hfound⟩ :=
      hlast [⟨"value", "T"⟩, ⟨"other", "int"⟩, ⟨"value", "long"⟩]
        ⟨"value", "java.lang.String"⟩ [] rfl List.not_mem_nil
    obtain rfl := Except.ok.inj (hvalue.symm.trans hshape)
    exact ⟨fields, houtcome, hnames.trans (by decide), hfound⟩
  · refine (horder ⟨"Nowhere", by decide⟩).declaredFault [] ⟨"value", "T"⟩
      [⟨"other", "int"⟩] (.unknownType "Nowhere") rfl (List.forall_mem_nil _) ?_
    cbv

end Record

end Resolver

end TypeShape
