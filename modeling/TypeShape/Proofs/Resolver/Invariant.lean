import TypeShape.Proofs.Resolver.Congruence
import TypeShape.Proofs.Run.Terms

/-!
Invariants of resolution.  What an expression is resolved by is said here once:
its leaf, or the parts one level deeper, or the fields of the record it names.
An invariant is something that is known of every expression when it is
resolved, is handed down to what it is resolved by, and tells what its shape is
from what is known of the shapes below.  It then holds in the whole of every
run.
-/
namespace TypeShape

def FieldsAll (kind : Shape → Prop) (fields : List (String × Shape)) : Prop :=
  ∀ field ∈ fields, kind field.2

theorem FieldsAll.put {kind : Shape → Prop} {fields : Table Shape}
    {name : String} {shape : Shape} (hfields : FieldsAll kind fields.entries)
    (hshape : kind shape) : FieldsAll kind (fields.put name shape).entries := by
  intro field hfield
  rcases mem_of_mem_putEntry hfield with rfl | hbefore
  · exact hshape
  · exact hfields field hbefore

theorem FieldsAll.putAll {kind : Shape → Prop} {fields : Table Shape}
    {entries : List (String × Shape)} (hfields : FieldsAll kind fields.entries)
    (hentries : FieldsAll kind entries) :
    FieldsAll kind (fields.putAll entries).entries := by
  induction entries generalizing fields with
  | nil => exact hfields
  | cons entry rest ih =>
      rw [Table.putAll_cons]
      obtain ⟨hentry, hrest⟩ := List.forall_mem_cons.1 hentries
      exact ih (hfields.put hentry) hrest

namespace Resolver

variable (resolver : Resolver) (expr : TypeExpr)

/-! ### What an expression is resolved by -/

/-- The name of an expression that is no array is looked up, because it is
neither a scalar's nor registered, and has this category. -/
structure Finds (category : Option Category) : Prop where
  element? : expr.element? = none
  scalar : resolver.provider.scalar expr.name.text = none
  registry : resolver.registry.contains expr.name.text = false
  category : resolver.provider.category expr.name.text = .ok category

/-- The expression has this leaf for its shape. -/
inductive HasLeaf : Leaf → Prop
  | scalar {kind : Scalar} (helement : expr.element? = none)
      (hscalar : resolver.provider.scalar expr.name.text = some kind) :
      HasLeaf (.scalar kind)
  | registered (helement : expr.element? = none)
      (hscalar : resolver.provider.scalar expr.name.text = none)
      (hregistry : resolver.registry.contains expr.name.text = true) :
      HasLeaf (.custom expr)
  | enumeration {constants : List String}
      (hfinds : resolver.Finds expr (some (.enumeration constants))) :
      HasLeaf (.enumeration constants)
  | custom (hfinds : resolver.Finds expr none)
      (hpolicy : resolver.settings.unknown = .asCustom) : HasLeaf (.custom expr)
  | unknown (hfinds : resolver.Finds expr none)
      (hpolicy : resolver.settings.unknown = .asUnknown) :
      HasLeaf (.unknown expr)

/-- The expression is resolved by this one, inside the same records. -/
inductive HasPart : TypeExpr → Prop
  | element {part : TypeExpr} (helement : expr.element? = some part) :
      HasPart part
  | collection (hfinds : resolver.Finds expr (some .collection)) :
      HasPart (expr.paramOrObject 0)
  | key (hfinds : resolver.Finds expr (some .mapping)) :
      HasPart (expr.paramOrObject 0)
  | value (hfinds : resolver.Finds expr (some .mapping)) :
      HasPart (expr.paramOrObject 1)

/-- The source is one of the fields of the record with this name. -/
inductive HasSource (name : String) : FieldSource → Prop
  | declared {decls : List FieldDecl} {source : FieldSource}
      (hfields : resolver.provider.fields name = .ok decls)
      (hsource : source ∈ decls.map FieldDecl.source) : HasSource name source
  | accessor {methods : List MethodDecl} {source : FieldSource}
      (hmethods : resolver.provider.methods name = .ok methods)
      (hsource : source ∈ resolver.settings.extraction.sources methods) :
      HasSource name source

/-- The expression is a record that has a field with this type. -/
structure HasField (type : TypeExpr) (typeVars : List String)
    (source : FieldSource) : Prop where
  finds : resolver.Finds expr (some .record)
  vars : resolver.provider.typeVars expr.name.text = .ok typeVars
  origin : resolver.HasSource expr.name.text source
  reads : TypeExpr.ofSignatureWith (Bindings.zip typeVars expr.params)
    source.type = .ok type

/-! ### What is handed down -/

/-- Something that is known of every expression when it is resolved with a
number of levels left inside some records, and of every shape that is found with
a number of levels left. -/
structure Invariant (terms : Terms)
    (known : Nat → List String → TypeExpr → Prop) (kind : Nat → Shape → Prop) :
    Prop where
  liberal : terms.Liberal
  enter : ∀ {left enclosing expr}, known left enclosing expr →
    ∀ depth, terms.step (.enter expr depth enclosing)
  leave : ∀ {left enclosing expr}, known left enclosing expr →
    ∀ depth, terms.step (.leave expr depth enclosing)
  tooDeep : ∀ {enclosing expr}, known 0 enclosing expr →
    terms.fault (.tooDeep resolver.settings.maxDepth expr.signature)
  cyclic : ∀ {left enclosing expr}, known (left + 1) enclosing expr →
    resolver.Finds expr (some .record) → resolver.Refuses enclosing expr →
      terms.fault (.cyclic expr.signature)
  part : ∀ {left enclosing expr part}, known (left + 1) enclosing expr →
    resolver.HasPart expr part → known left enclosing part
  field : ∀ {left enclosing expr type typeVars source},
    known (left + 1) enclosing expr → ¬ resolver.Refuses enclosing expr →
    resolver.HasField expr type typeVars source →
    known left (expr.signature :: enclosing) type
  leaf : ∀ {left enclosing expr leaf}, known (left + 1) enclosing expr →
    resolver.HasLeaf expr leaf → kind (left + 1) (.leaf leaf)
  sequence : ∀ {left element} sequenceKind, kind left element →
    kind (left + 1) (.sequence sequenceKind element)
  mapping : ∀ {left key value}, kind left key → kind left value →
    kind (left + 1) (.mapping key value)
  record : ∀ {left} {fields : Table Shape},
    FieldsAll (kind left) fields.entries →
    kind (left + 1) (.record fields.entries)

section Level

variable {resolver : Resolver} {expr : TypeExpr} {terms : Terms}
  {known : Nat → List String → TypeExpr → Prop} {kind : Nat → Shape → Prop}
  {left : Nat} {enclosing : List String}
  {below : List String → TypeExpr → Run Shape}

theorem addField_meets {kind : Shape → Prop} (hterms : terms.Liberal)
    {below : TypeExpr → Run Shape} {bindings : Bindings} {source : FieldSource}
    (hbelow : ∀ type, TypeExpr.ofSignatureWith bindings source.type = .ok type →
      (below type).Meets terms kind)
    (fields : Table Shape) (hfields : FieldsAll kind fields.entries) :
    (addField below bindings fields source).Meets terms
      (FieldsAll kind ·.entries) := by
  unfold addField
  apply Run.Meets.bind (Run.Meets.ofExcept hterms _)
  intro type hread
  apply Run.Meets.bind (hbelow type hread)
  intro shape hshape
  exact Run.Meets.pure (hfields.put hshape)

theorem expandFields_meets {kind : Shape → Prop} (hterms : terms.Liberal)
    (hfinds : resolver.Finds expr (some .record)) {below : TypeExpr → Run Shape}
    (hbelow : ∀ type typeVars source, resolver.HasField expr type typeVars
      source → (below type).Meets terms kind) :
    (resolver.expandFields below expr).Meets terms
      (FieldsAll kind ·.entries) := by
  unfold expandFields
  apply Run.Meets.bind (Run.Meets.askOrFail hterms _ _)
  intro typeVars htypeVars
  apply Run.Meets.bind (Run.Meets.askOrFail hterms _ _)
  intro decls hdecls
  -- declared fields and those that methods stand for are put in alike
  have hadd : ∀ source, resolver.HasSource expr.name.text source →
      ∀ fields : Table Shape, FieldsAll kind fields.entries →
        (addField below (Bindings.zip typeVars expr.params) fields source).Meets
          terms (FieldsAll kind ·.entries) := by
    intro source hsource
    apply addField_meets hterms
    intro type hread
    exact hbelow type typeVars source ⟨hfinds, htypeVars, hsource, hread⟩
  have hnone : FieldsAll kind (Table.empty : Table Shape).entries := nofun
  have hdeclared := Run.Meets.foldlM
    (fun source hsource => hadd source (.declared hdecls hsource)) hnone
  apply Run.Meets.bind hdeclared
  intro fields hfields
  split
  · exact Run.Meets.pure hfields
  · apply Run.Meets.bind (Run.Meets.askOrFail hterms _ _)
    intro methods hmethods
    exact Run.Meets.foldlM
      (fun source hsource => hadd source (.accessor hmethods hsource)) hfields

variable (hinv : resolver.Invariant terms known kind)
  (hexpr : known (left + 1) enclosing expr)
  (hbelow : ∀ enclosing part,
    known left enclosing part → (below enclosing part).Meets terms (kind left))

include hinv hexpr

theorem Invariant.resolveUnknown (hfinds : resolver.Finds expr none) :
    (resolver.resolveUnknown expr).Meets terms (kind (left + 1)) := by
  unfold Resolver.resolveUnknown
  split
  · exact Run.Meets.fail (hinv.liberal.unknownType _)
  · next hpolicy =>
      exact Run.Meets.pure (hinv.leaf hexpr (.custom hfinds hpolicy))
  · next hpolicy =>
      exact Run.Meets.pure (hinv.leaf hexpr (.unknown hfinds hpolicy))

include hbelow

theorem Invariant.resolveRecord (hfinds : resolver.Finds expr (some .record)) :
    (resolver.resolveRecord below enclosing expr).Meets terms
      (kind (left + 1)) := by
  by_cases hrefuses : resolver.Refuses enclosing expr
  · rw [resolveRecord_of_refuses hrefuses]
    exact Run.Meets.fail (hinv.cyclic hexpr hfinds hrefuses)
  · rw [resolveRecord_of_not_refuses hrefuses]
    have hfields := expandFields_meets hinv.liberal hfinds
      (fun type _ _ hfield => hbelow _ type (hinv.field hexpr hrefuses hfield))
    apply Run.Meets.bind
      (hfields.between (hinv.liberal.expand _) (hinv.liberal.expanded _))
    intro fields hall
    exact Run.Meets.pure (hinv.record hall)

theorem Invariant.resolveCategory {category : Option Category}
    (hfinds : resolver.Finds expr category) :
    (resolver.resolveCategory below enclosing expr category).Meets terms
      (kind (left + 1)) := by
  cases category with
  | none => exact hinv.resolveUnknown hexpr hfinds
  | some category =>
      cases category with
      | enumeration constants =>
          exact Run.Meets.pure (hinv.leaf hexpr (.enumeration hfinds))
      | collection =>
          apply Run.Meets.bind
            (hbelow _ _ (hinv.part hexpr (.collection hfinds)))
          intro element helement
          exact Run.Meets.pure (hinv.sequence _ helement)
      | mapping =>
          apply Run.Meets.bind (hbelow _ _ (hinv.part hexpr (.key hfinds)))
          intro key hkey
          apply Run.Meets.bind (hbelow _ _ (hinv.part hexpr (.value hfinds)))
          intro value hvalue
          exact Run.Meets.pure (hinv.mapping hkey hvalue)
      | record => exact hinv.resolveRecord hexpr hbelow hfinds

theorem Invariant.resolveName (helement : expr.element? = none) :
    (resolver.resolveName below enclosing expr).Meets terms
      (kind (left + 1)) := by
  unfold Resolver.resolveName
  apply Run.Meets.bind (Run.Meets.ask hinv.liberal _ _)
  intro kind? hscalar
  cases kind? with
  | some scalar =>
      exact Run.Meets.pure (hinv.leaf hexpr (.scalar helement hscalar))
  | none =>
      dsimp only
      split
      · next hregistry =>
          exact Run.Meets.pure
            (hinv.leaf hexpr (.registered helement hscalar hregistry))
      · next hregistry =>
          apply Run.Meets.bind (Run.Meets.askOrFail hinv.liberal _ _)
          intro category hcategory
          exact hinv.resolveCategory hexpr hbelow
            ⟨helement, hscalar, Bool.eq_false_iff.2 hregistry, hcategory⟩

/-- One level of resolution keeps an invariant if what lies below it does. -/
theorem Invariant.resolveLevel :
    (resolver.resolveLevel below enclosing expr).Meets terms
      (kind (left + 1)) := by
  unfold Resolver.resolveLevel
  split
  · next part helement =>
      apply Run.Meets.bind (hbelow _ _ (hinv.part hexpr (.element helement)))
      intro shape hshape
      exact Run.Meets.pure (hinv.sequence _ hshape)
  · next helement => exact hinv.resolveName hexpr hbelow helement

end Level

section Runs

variable {resolver : Resolver} {terms : Terms}
  {known : Nat → List String → TypeExpr → Prop} {kind : Nat → Shape → Prop}
  (hinv : resolver.Invariant terms known kind)

include hinv

/-- An invariant that holds of an expression holds in the whole run that
resolves it. -/
theorem Invariant.resolveWithin {left : Nat} {enclosing : List String}
    {expr : TypeExpr} (hexpr : known left enclosing expr) :
    (resolver.resolveWithin left enclosing expr).Meets terms (kind left) := by
  induction left generalizing enclosing expr with
  | zero =>
      exact (Run.Meets.fail (hinv.tooDeep hexpr)).between (hinv.enter hexpr _)
        (hinv.leave hexpr _)
  | succ left ih =>
      have hlevel := hinv.resolveLevel hexpr (fun _ _ hpart => ih hpart)
      exact hlevel.between (hinv.enter hexpr _) (hinv.leave hexpr _)

theorem Invariant.resolve {expr : TypeExpr}
    (hexpr : known resolver.settings.maxDepth [] expr) :
    (resolver.resolve expr).Meets terms (kind resolver.settings.maxDepth) :=
  hinv.resolveWithin hexpr

theorem Invariant.resolveSignature {text : String}
    (hexpr : ∀ expr, TypeExpr.ofSignature text = .ok expr →
      known resolver.settings.maxDepth [] expr) :
    (resolver.resolveSignature text).Meets terms
      (kind resolver.settings.maxDepth) := by
  apply Run.Meets.bind (Run.Meets.ofExcept hinv.liberal _)
  intro expr hread
  exact hinv.resolve (hexpr expr hread)

/-- A record of roots holds what they contribute, so it lies one level above
them. -/
theorem Invariant.resolveRoots {roots : List (String × TypeExpr)}
    (hroots : ∀ root ∈ roots, known resolver.settings.maxDepth [] root.2)
    (hcontribution : ∀ name shape, kind resolver.settings.maxDepth shape →
      FieldsAll (kind resolver.settings.maxDepth) (contribution name shape)) :
    (resolver.resolveRoots roots).Meets terms
      (kind (resolver.settings.maxDepth + 1)) := by
  have hadd : ∀ root ∈ roots, ∀ fields : Table Shape,
      FieldsAll (kind resolver.settings.maxDepth) fields.entries →
        (resolver.addRoot fields root).Meets terms
          (FieldsAll (kind resolver.settings.maxDepth) ·.entries) := by
    intro root hroot fields hfields
    apply Run.Meets.bind (hinv.resolve (hroots root hroot))
    intro shape hshape
    exact Run.Meets.pure (hfields.putAll (hcontribution root.1 shape hshape))
  have hnone : FieldsAll (kind resolver.settings.maxDepth)
      (Table.empty : Table Shape).entries :=
    nofun
  apply Run.Meets.bind (Run.Meets.foldlM hadd hnone)
  intro fields hfields
  exact Run.Meets.pure (hinv.record hfields)

end Runs

end Resolver

end TypeShape
