import Mathlib
import TypeShape.Catalog
import TypeShape.Proofs.Resolver.DepthLimit
import TypeShape.Proofs.Resolver.Invariant
import TypeShape.Proofs.TypeExpr.Reading

/-!
Types without generics.  If no record has type variables, the fields of all
records have their types from one list.  From one record to the next, arrays and
parameters make an expression smaller; and a record is not expanded again inside
itself, so at most as many records lie around one another as there are records
in the list.  Hence a resolution needs no more levels than a number that does
not depend on the limit, and under a limit from this number on it is not cut.
-/
namespace TypeShape

namespace TypeExpr

/-! ### How deep an expression is -/

mutual

/-- The levels that an expression takes before any field: one for each
dimension, one for itself, and those of its deepest parameter, or of the most
general type where a parameter is missing. -/
def levels : TypeExpr → Nat
  | ⟨_, params, dim⟩ => dim + 2 + levelsAll params

def levelsAll : List TypeExpr → Nat
  | [] => 0
  | first :: rest => max first.levels (levelsAll rest)

end

theorem levels_eq (e : TypeExpr) :
    e.levels = e.dim + 2 + levelsAll e.params := by
  obtain ⟨name, params, dim⟩ := e
  rw [levels]

theorem levels_le_levelsAll {e : TypeExpr} {types : List TypeExpr}
    (h : e ∈ types) : e.levels ≤ levelsAll types := by
  induction types with
  | nil => cases h
  | cons first rest ih =>
      rw [levelsAll]
      rcases List.mem_cons.1 h with rfl | hrest
      · exact Nat.le_max_left _ _
      · exact Nat.le_trans (ih hrest) (Nat.le_max_right _ _)

theorem levels_of_element? {e element : TypeExpr}
    (h : e.element? = some element) : element.levels < e.levels := by
  have hdim := dim_of_element? h
  rw [levels_eq, levels_eq, params_of_element? h]
  omega

theorem levels_lt_of_mem_params {e param : TypeExpr} (h : param ∈ e.params) :
    param.levels < e.levels := by
  have hle := levels_le_levelsAll h
  rw [e.levels_eq]
  omega

/-! ### Where an expression occurs -/

def bare (e : TypeExpr) : TypeExpr :=
  { e with dim := 0 }

theorem bare_of_element? {e element : TypeExpr}
    (h : e.element? = some element) : element.bare = e.bare := by
  unfold element? at h
  split at h
  · cases h
  · cases h
    rfl

theorem bare_of_element?_eq_none {e : TypeExpr} (h : e.element? = none) :
    e.bare = e := by
  obtain ⟨name, params, dim⟩ := e
  cases dim with
  | zero => rfl
  | succ dim => cases h

/-- The parameters of what an expression is or holds are held by it. -/
theorem mem_preorderAll_params {outer e param : TypeExpr}
    (hparam : param ∈ e.params) (h : e = outer ∨ e ∈ preorderAll outer.params) :
    param ∈ preorderAll outer.params := by
  induction outer with
  | mk name params dim ih =>
      rcases h with rfl | hmem
      · exact mem_preorderAll_iff.2 ⟨param, hparam, Or.inl rfl⟩
      · obtain ⟨inner, hinner, hwithin⟩ := mem_preorderAll_iff.1 hmem
        exact mem_preorderAll_iff.2
          ⟨inner, hinner, Or.inr (ih inner hinner hwithin)⟩

/-- The expression is, but for its dimensions, one of the types or held by one
of them. -/
def OccursIn (types : List TypeExpr) (e : TypeExpr) : Prop :=
  ∃ inner ∈ preorderAll types, inner.bare = e.bare

variable {types : List TypeExpr} {e : TypeExpr}

theorem occursIn_of_mem (h : e ∈ types) : e.OccursIn types :=
  ⟨e, mem_preorderAll_iff.2 ⟨e, h, Or.inl rfl⟩, rfl⟩

theorem OccursIn.element? {element : TypeExpr} (h : e.OccursIn types)
    (helement : e.element? = some element) : element.OccursIn types := by
  obtain ⟨inner, hinner, hbare⟩ := h
  exact ⟨inner, hinner, hbare.trans (bare_of_element? helement).symm⟩

theorem OccursIn.param {param : TypeExpr} (h : e.OccursIn types)
    (hparam : param ∈ e.params) : param.OccursIn types := by
  obtain ⟨inner, hinner, hbare⟩ := h
  have hparams : inner.params = e.params := (TypeExpr.mk.inj hbare).2.1
  obtain ⟨outer, houter, hwithin⟩ := mem_preorderAll_iff.1 hinner
  have hmem := mem_preorderAll_params (hparams ▸ hparam) hwithin
  exact ⟨param, mem_preorderAll_iff.2 ⟨outer, houter, Or.inr hmem⟩, rfl⟩

/-- The signatures that what occurs in the types can have without dimensions. -/
def bareSignatures (types : List TypeExpr) : List String :=
  (preorderAll types).map (·.bare.signature)

theorem OccursIn.signature_mem (h : e.OccursIn types)
    (helement : e.element? = none) : e.signature ∈ bareSignatures types := by
  obtain ⟨inner, hinner, hbare⟩ := h
  rw [bare_of_element?_eq_none helement] at hbare
  exact List.mem_map.2 ⟨inner, hinner, by rw [hbare]⟩

end TypeExpr

/-- Faults that have nothing to do with the limit. -/
def limitlessTerms : Terms where
  step _ := True
  fault fault := fault.isTooDeep = false

namespace Resolver

variable {resolver : Resolver} {types : List TypeExpr}

/-- Every field of every record has one of these types, and the most general
type is a scalar, as which it has no parts. -/
structure TypesFrom (resolver : Resolver) (types : List TypeExpr) : Prop where
  object :
    ∃ kind, resolver.provider.scalar TypeExpr.object.name.text = some kind
  field : ∀ {expr type typeVars source},
    resolver.HasField expr type typeVars source → type ∈ types

/-- The levels that suffice for an expression inside some records: its own, and
those of the deepest field type for each record that is not among those around
it. -/
def levelsWithin (types roots : List TypeExpr) (enclosing : List String)
    (expr : TypeExpr) : Nat :=
  expr.levels + ((TypeExpr.bareSignatures roots).length - enclosing.length) *
    TypeExpr.levelsAll types

/-- The levels that are left suffice for an expression, and the records around
it are different ones that occur in the roots, as it does itself. -/
structure Suffices (types roots : List TypeExpr) (left : Nat)
    (enclosing : List String) (expr : TypeExpr) : Prop where
  nodup : enclosing.Nodup
  subset : enclosing ⊆ TypeExpr.bareSignatures roots
  occurs : expr.OccursIn roots
  levels : levelsWithin types roots enclosing expr ≤ left

/-- The levels left suffice for the expression, or it stands in for a missing
parameter and there is one level left. -/
def Affords (types roots : List TypeExpr) (left : Nat) (enclosing : List String)
    (expr : TypeExpr) : Prop :=
  expr = .object ∧ 0 < left ∨ Suffices types roots left enclosing expr

theorem Affords.pos {roots : List TypeExpr} {left : Nat}
    {enclosing : List String} {expr : TypeExpr}
    (h : Affords types roots left enclosing expr) : 0 < left := by
  rcases h with ⟨_, hleft⟩ | hsuffices
  · exact hleft
  · have hlevels := hsuffices.levels
    rw [levelsWithin, expr.levels_eq] at hlevels
    omega

/-- The most general type has no parts and no fields. -/
theorem TypesFrom.not_finds_object (htypes : resolver.TypesFrom types)
    (category : Option Category) : ¬ resolver.Finds .object category := by
  intro hfinds
  obtain ⟨kind, hkind⟩ := htypes.object
  rw [hfinds.scalar] at hkind
  cases hkind

theorem TypesFrom.not_hasPart_object (htypes : resolver.TypesFrom types)
    (part : TypeExpr) : ¬ resolver.HasPart .object part := by
  intro hpart
  cases hpart with
  | element helement => cases helement
  | collection hfinds => exact htypes.not_finds_object _ hfinds
  | key hfinds => exact htypes.not_finds_object _ hfinds
  | value hfinds => exact htypes.not_finds_object _ hfinds

theorem Suffices.smaller {roots : List TypeExpr} {left : Nat}
    {enclosing : List String} {expr part : TypeExpr}
    (h : Suffices types roots (left + 1) enclosing expr)
    (hoccurs : part.OccursIn roots) (hlevels : part.levels < expr.levels) :
    Suffices types roots left enclosing part where
  nodup := h.nodup
  subset := h.subset
  occurs := hoccurs
  levels := by
    have hle := h.levels
    rw [levelsWithin] at hle ⊢
    omega

theorem Suffices.paramOrObject {roots : List TypeExpr} {left : Nat}
    {enclosing : List String} {expr : TypeExpr}
    (h : Suffices types roots (left + 1) enclosing expr) (index : Nat) :
    Affords types roots left enclosing (expr.paramOrObject index) := by
  unfold TypeExpr.paramOrObject
  cases hparam : expr.params[index]? with
  | none =>
      have hlevels := h.levels
      rw [levelsWithin, expr.levels_eq] at hlevels
      exact Or.inl ⟨rfl, by omega⟩
  | some param =>
      have hmem := List.mem_of_getElem? hparam
      exact Or.inr (h.smaller (h.occurs.param hmem)
        (TypeExpr.levels_lt_of_mem_params hmem))

theorem Suffices.hasPart {roots : List TypeExpr} {left : Nat}
    {enclosing : List String} {expr part : TypeExpr}
    (h : Suffices types roots (left + 1) enclosing expr)
    (hpart : resolver.HasPart expr part) :
    Affords types roots left enclosing part := by
  cases hpart with
  | element helement =>
      exact Or.inr (h.smaller (h.occurs.element? helement)
        (TypeExpr.levels_of_element? helement))
  | collection _ => exact h.paramOrObject 0
  | key _ => exact h.paramOrObject 0
  | value _ => exact h.paramOrObject 1

/-- A record that is expanded is one more of those around its fields.  There
cannot be more of them than occur in the roots. -/
theorem Suffices.inner {roots : List TypeExpr} {left : Nat}
    {enclosing : List String} {expr type : TypeExpr}
    (h : Suffices types roots (left + 1) enclosing expr)
    (helement : expr.element? = none) (hnew : expr.signature ∉ enclosing)
    (hroots : types ⊆ roots) (htype : type ∈ types) :
    Suffices types roots left (expr.signature :: enclosing) type := by
  have hnodup : (expr.signature :: enclosing).Nodup :=
    List.nodup_cons.2 ⟨hnew, h.nodup⟩
  have hsubset : expr.signature :: enclosing ⊆ TypeExpr.bareSignatures roots :=
    List.cons_subset.2 ⟨h.occurs.signature_mem helement, h.subset⟩
  refine ⟨hnodup, hsubset, TypeExpr.occursIn_of_mem (hroots htype), ?_⟩
  have hcount := (List.subperm_of_subset hnodup hsubset).length_le
  -- one record fewer can follow, and its share of the levels pays for the
  -- field's type
  have hlevels := h.levels
  have htop := TypeExpr.levels_le_levelsAll htype
  rw [levelsWithin, expr.levels_eq] at hlevels
  rw [levelsWithin]
  rw [List.length_cons] at hcount ⊢
  obtain ⟨others, hothers⟩ := Nat.exists_eq_add_of_le hcount
  have hbefore : (TypeExpr.bareSignatures roots).length - enclosing.length =
      others + 1 := by
    omega
  have hafter : (TypeExpr.bareSignatures roots).length -
      (enclosing.length + 1) = others := by
    omega
  rw [hbefore, Nat.succ_mul] at hlevels
  rw [hafter]
  omega

/-- As long as the levels that are left suffice, the limit is not met. -/
theorem invariant_affords {roots : List TypeExpr}
    (htypes : resolver.TypesFrom types) (hguard : resolver.refusesCycles = true)
    (hroots : types ⊆ roots) :
    resolver.Invariant limitlessTerms (Affords types roots)
      (fun _ _ => True) where
  liberal := ⟨fun _ => trivial, fun _ => trivial, fun _ => trivial,
    fun _ => rfl, fun _ => rfl, fun _ _ => rfl⟩
  enter _ _ := trivial
  leave _ _ := trivial
  tooDeep hexpr := absurd hexpr.pos (Nat.lt_irrefl 0)
  cyclic _ _ _ := rfl
  part hexpr hpart := by
    -- what stands in for a missing parameter is a scalar, so nothing lies below
    -- it
    rcases hexpr with ⟨rfl, _⟩ | hsuffices
    · exact absurd hpart (htypes.not_hasPart_object _)
    · exact hsuffices.hasPart hpart
  field hexpr hnew hfield := by
    rcases hexpr with ⟨rfl, _⟩ | hsuffices
    · exact absurd hfield.finds (htypes.not_finds_object _)
    · exact Or.inr (hsuffices.inner hfield.finds.element?
        (fun hmem => hnew ⟨hguard, hmem⟩) hroots (htypes.field hfield))
  leaf _ _ := trivial
  sequence _ _ := trivial
  mapping _ _ := trivial
  record _ := trivial

/-- Where all field types come from a list, no resolution is cut under a limit
that suffices for the expression. -/
theorem TypesFrom.not_tooDeep (htypes : resolver.TypesFrom types)
    (hguard : resolver.refusesCycles = true) {expr : TypeExpr}
    (hlevels : levelsWithin types (expr :: types) [] expr ≤
      resolver.settings.maxDepth)
    (limit : Nat) (signature : String) :
    (resolver.resolve expr).outcome ≠ .error (.tooDeep limit signature) := by
  intro hcut
  have hinv :=
    invariant_affords htypes hguard (List.subset_cons_self expr types)
  have hsuffices : Suffices types (expr :: types) resolver.settings.maxDepth []
      expr :=
    ⟨List.nodup_nil, List.nil_subset _,
      TypeExpr.occursIn_of_mem List.mem_cons_self, hlevels⟩
  have hfault := (hinv.resolve (Or.inr hsuffices)).fault _ hcut
  cases hfault

end Resolver

/-! ### Catalogs without type variables -/

theorem MethodDecl.type_of_getterSource? {method : MethodDecl}
    {source : FieldSource} (h : method.getterSource? = some source) :
    source.type = method.returns := by
  unfold getterSource? at h
  split at h
  · dsimp only at h
    split at h
    · obtain ⟨name, _, rfl⟩ := Option.map_eq_some_iff.1 h
      rfl
    · cases h
  · cases h

theorem MethodDecl.type_of_setterSource? {method : MethodDecl}
    {source : FieldSource} (h : method.setterSource? = some source) :
    source.type ∈ method.params := by
  unfold setterSource? at h
  split at h
  · next param hparams =>
      split at h
      · split at h
        · obtain ⟨name, _, rfl⟩ := Option.map_eq_some_iff.1 h
          rw [hparams]
          exact List.mem_singleton_self param
        · cases h
      · cases h
  · cases h

def MethodDecl.signatures (method : MethodDecl) : List String :=
  method.returns :: method.params

theorem Extraction.mem_signatures_of_mem_sources {extraction : Extraction}
    {methods : List MethodDecl} {source : FieldSource}
    (h : source ∈ extraction.sources methods) :
    ∃ method ∈ methods, source.type ∈ method.signatures := by
  rcases List.mem_append.1 h with hgetter | hsetter
  · split at hgetter
    · obtain ⟨method, hmethod, hsource⟩ := List.mem_filterMap.1 hgetter
      exact ⟨method, hmethod,
        MethodDecl.type_of_getterSource? hsource ▸ List.mem_cons_self⟩
    · cases hgetter
  · split at hsetter
    · obtain ⟨method, hmethod, hsource⟩ := List.mem_filterMap.1 hsetter
      exact ⟨method, hmethod,
        List.mem_cons_of_mem _ (MethodDecl.type_of_setterSource? hsource)⟩
    · cases hsetter

def RecordDecl.signatures (decl : RecordDecl) : List String :=
  decl.fields.map FieldDecl.type ++ decl.methods.flatMap MethodDecl.signatures

/-- Without variables nothing is bound, and what is read is what is written. -/
theorem TypeExpr.ofSignatureWith_zip_nil (params : List TypeExpr)
    (text : String) :
    ofSignatureWith (Bindings.zip [] params) text = ofSignature text := rfl

namespace Catalog

/-- The types that the signatures in a catalog stand for as they are written. -/
def fieldTypes (catalog : Catalog) : List TypeExpr :=
  (catalog.types.entries.flatMap (·.2.recordDecl.signatures)).filterMap
    fun text => (TypeExpr.ofSignature text).toOption

/-- No record of the catalog has type variables. -/
def Monomorphic (catalog : Catalog) : Prop :=
  ∀ name decl, catalog.get? name = some (.record decl) → decl.typeVars = []

/-- A name has the category of a record just where a record is declared, and
then the answers about it are taken from that declaration. -/
theorem exists_decl_of_category {catalog : Catalog} {name : String}
    (h : catalog.provider.category name = .ok (some .record)) :
    ∃ decl, catalog.get? name = some (.record decl) ∧
      catalog.recordDecl name = decl := by
  obtain ⟨decl, hget, hcategory⟩ := Option.map_eq_some_iff.1 (Except.ok.inj h)
  cases decl with
  | record decl => exact ⟨decl, hget, by rw [recordDecl, hget]; rfl⟩
  | enumeration constants => cases hcategory
  | collection => cases hcategory
  | mapping => cases hcategory

/-- The type of a field is named by the declaration of its record. -/
theorem type_mem_signatures {catalog : Catalog} {resolver : Resolver}
    (hprovider : resolver.provider = catalog.provider) {name : String}
    {source : FieldSource} (h : resolver.HasSource name source) :
    source.type ∈ (catalog.recordDecl name).signatures := by
  cases h with
  | declared hfields hsource =>
      rw [hprovider] at hfields
      cases hfields
      obtain ⟨field, hfield, rfl⟩ := List.mem_map.1 hsource
      exact List.mem_append_left _ (List.mem_map_of_mem hfield)
  | accessor hmethods hsource =>
      rw [hprovider] at hmethods
      cases hmethods
      exact List.mem_append_right _
        (List.mem_flatMap.2 (Extraction.mem_signatures_of_mem_sources hsource))

theorem mem_fieldTypes {catalog : Catalog} {name text : String}
    {decl : RecordDecl} {type : TypeExpr}
    (hdecl : catalog.get? name = some (.record decl))
    (htext : text ∈ decl.signatures)
    (hread : TypeExpr.ofSignature text = .ok type) :
    type ∈ catalog.fieldTypes := by
  have hentry := Table.mem_entries_of_get? hdecl
  exact List.mem_filterMap.2
    ⟨text, List.mem_flatMap.2 ⟨_, hentry, htext⟩, by rw [hread]; rfl⟩

/-- In a catalog without type variables every field has the type that its
signature stands for by itself. -/
theorem Monomorphic.typesFrom {catalog : Catalog} (h : catalog.Monomorphic)
    {resolver : Resolver} (hprovider : resolver.provider = catalog.provider) :
    resolver.TypesFrom catalog.fieldTypes where
  object := ⟨.object, by rw [hprovider]; rfl⟩
  field := by
    intro expr type typeVars source hfield
    obtain ⟨decl, hget, hdecl⟩ :=
      exists_decl_of_category (hprovider ▸ hfield.finds.category)
    have hvars : decl.typeVars = typeVars := by
      rw [← hdecl]
      exact Except.ok.inj (hprovider ▸ hfield.vars)
    -- actual parameters are bound to no variable, so they do not come into the
    -- field's type
    have hread := hfield.reads
    rw [← hvars, h _ _ hget, TypeExpr.ofSignatureWith_zip_nil] at hread
    exact mem_fieldTypes hget
      (hdecl ▸ type_mem_signatures hprovider hfield.origin) hread

end Catalog

namespace Resolver

/-- In a catalog without type variables the guard catches every type without
end.  For every expression there is a number of levels such that under no limit
from this number on its resolution is cut, whatever is registered, extracted or
done with unknown names: it has a shape, or it fails for another reason, such as
a record inside itself. -/
theorem resolve_ne_tooDeep_of_monomorphic (catalog : Catalog)
    (hplain : catalog.Monomorphic) (expr : TypeExpr) :
    ∃ levels, ∀ (registry : Registry) (settings : Settings),
      levels ≤ settings.maxDepth → ∀ limit signature,
        (({ provider := catalog.provider, settings, registry } :
          Resolver).resolve expr).outcome ≠
          .error (.tooDeep limit signature) := by
  refine ⟨levelsWithin catalog.fieldTypes (expr :: catalog.fieldTypes) [] expr,
    ?_⟩
  intro registry settings hlevels
  exact (hplain.typesFrom rfl).not_tooDeep rfl hlevels

/-- A catalog in which a ring holds another ring, in a list, and parameters that
no variable takes. -/
def rings : Catalog :=
  Catalog.empty.declareAll
    [("Ring", .record { fields := [⟨"next", "List<Ring<Ring, int>[]>"⟩] }),
     ("List", .collection)]

/-- Rings have no end.  The ring without parameters is not met again, but the
one with parameters that it holds is, inside itself, and is refused there. -/
theorem resolve_ne_tooDeep_rings :
    rings.Monomorphic ∧
    (∃ levels, ∀ (registry : Registry) (settings : Settings),
      levels ≤ settings.maxDepth → ∀ limit signature,
        (({ provider := rings.provider, settings, registry } :
          Resolver).resolve ⟨⟨"Ring", by decide⟩, [], 2⟩).outcome ≠
          .error (.tooDeep limit signature)) ∧
    (({ provider := rings.provider } : Resolver).resolve
      ⟨⟨"Ring", by decide⟩, [], 2⟩).outcome =
      .error (.cyclic "Ring<Ring, int>") := by
  have hplain : rings.Monomorphic := by
    intro name decl hget
    have hentry : (name, Declaration.record decl) ∈
        [("Ring", .record { fields := [⟨"next", "List<Ring<Ring, int>[]>"⟩] }),
          ("List", .collection)] := Table.mem_entries_of_get? hget
    have hdecl : name = "Ring" ∧
        decl = { fields := [⟨"next", "List<Ring<Ring, int>[]>"⟩] } := by
      simpa using hentry
    rw [hdecl.2]
  refine ⟨hplain, resolve_ne_tooDeep_of_monomorphic rings hplain _, ?_⟩
  cbv

end Resolver

end TypeShape
