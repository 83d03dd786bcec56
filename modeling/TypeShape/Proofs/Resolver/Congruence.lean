import Mathlib.Data.List.Forall2
import TypeShape.Proofs.Run.Comparison
import TypeShape.Resolver

/-!
Comparing two resolutions level by level.  If two resolvers ask and decide
alike, and what lies one level deeper compares, then the level compares.  The
statements follow the functions of the resolver one by one, so that a
comparison of resolvers that differ in one of them can use the others.
-/
namespace TypeShape

def FieldsRelated (S : Shape → Shape → Prop) :
    List (String × Shape) → List (String × Shape) → Prop :=
  List.Forall₂ (fun field field' => field.1 = field'.1 ∧ S field.2 field'.2)

def TablesRelated (S : Shape → Shape → Prop) (fields fields' : Table Shape) :
    Prop :=
  FieldsRelated S fields.entries fields'.entries

/-- A relation of shapes that is kept when shapes are built from related
parts. -/
structure ShapeCongruence (S : Shape → Shape → Prop) : Prop where
  scalar : ∀ kind, S (.leaf (.scalar kind)) (.leaf (.scalar kind))
  enumeration : ∀ constants,
    S (.leaf (.enumeration constants)) (.leaf (.enumeration constants))
  custom : ∀ expr, S (.leaf (.custom expr)) (.leaf (.custom expr))
  sequence : ∀ kind {a b}, S a b → S (.sequence kind a) (.sequence kind b)
  mapping : ∀ {key key' value value'}, S key key' → S value value' →
    S (.mapping key value) (.mapping key' value')
  record : ∀ {fields fields'}, FieldsRelated S fields fields' →
    S (.record fields) (.record fields')

theorem fieldsRelated_eq_iff {fields fields' : List (String × Shape)} :
    FieldsRelated Eq fields fields' ↔ fields = fields' := by
  have hpair : (fun field field' : String × Shape =>
      field.1 = field'.1 ∧ field.2 = field'.2) = Eq := by
    funext field field'
    exact propext Prod.ext_iff.symm
  rw [FieldsRelated, hpair, List.forall₂_eq_eq_eq]

theorem shapeCongruence_eq : ShapeCongruence Eq where
  scalar _ := rfl
  enumeration _ := rfl
  custom _ := rfl
  sequence kind _ _ h := by rw [h]
  mapping hkey hvalue := by rw [hkey, hvalue]
  record hfields := by rw [fieldsRelated_eq_iff.1 hfields]

theorem FieldsRelated.putEntry {S : Shape → Shape → Prop} {name : String}
    {shape shape' : Shape} {fields fields' : List (String × Shape)}
    (hfields : FieldsRelated S fields fields') (hshape : S shape shape') :
    FieldsRelated S (putEntry name shape fields)
      (putEntry name shape' fields') := by
  induction hfields with
  | nil => exact List.Forall₂.cons ⟨rfl, hshape⟩ List.Forall₂.nil
  | @cons field field' rest rest' hfield hrest ih =>
      by_cases hname : field.1 = name
      · have hname' : field'.1 = name := hfield.1 ▸ hname
        simp only [TypeShape.putEntry, hname, hname', if_true]
        exact List.Forall₂.cons ⟨rfl, hshape⟩ hrest
      · have hname' : ¬ field'.1 = name := fun h => hname (hfield.1.trans h)
        simp only [TypeShape.putEntry, hname, hname', if_false]
        exact List.Forall₂.cons hfield ih

theorem TablesRelated.put {S : Shape → Shape → Prop}
    {fields fields' : Table Shape} (hfields : TablesRelated S fields fields')
    (name : String) {shape shape' : Shape} (hshape : S shape shape') :
    TablesRelated S (fields.put name shape) (fields'.put name shape') :=
  FieldsRelated.putEntry hfields hshape

theorem TablesRelated.putAll {S : Shape → Shape → Prop}
    {fields fields' : Table Shape} {entries entries' : List (String × Shape)}
    (hfields : TablesRelated S fields fields')
    (hentries : FieldsRelated S entries entries') :
    TablesRelated S (fields.putAll entries) (fields'.putAll entries') := by
  induction hentries generalizing fields fields' with
  | nil => exact hfields
  | @cons entry entry' rest rest' hentry _ ih =>
      rw [Table.putAll_cons, Table.putAll_cons, ← hentry.1]
      exact ih (hfields.put entry.1 hentry.2)

namespace Resolver

/-- A comparison under which two resolvers are told alike what records consist
of, and take fields from the same methods. -/
structure DescribesAlike (C : Comparison) (left right : Resolver) : Prop where
  typeVars : ∀ name,
    C.Holds Eq (Run.askOrFail (.typeVars name) (left.provider.typeVars name))
      (Run.askOrFail (.typeVars name) (right.provider.typeVars name))
  fields : ∀ name,
    C.Holds Eq (Run.askOrFail (.fields name) (left.provider.fields name))
      (Run.askOrFail (.fields name) (right.provider.fields name))
  methods : ∀ name,
    C.Holds Eq (Run.askOrFail (.methods name) (left.provider.methods name))
      (Run.askOrFail (.methods name) (right.provider.methods name))
  extraction : left.settings.extraction = right.settings.extraction

/-- A comparison and a relation of shapes under which two resolvers ask their
questions alike, extract the same fields and treat unknown names alike,
whichever names they register. -/
structure AsksAlike (C : Comparison) (S : Shape → Shape → Prop)
    (left right : Resolver) : Prop extends DescribesAlike C left right where
  scalar : ∀ name,
    C.Holds Eq (Run.ask (.scalar name) (left.provider.scalar name))
      (Run.ask (.scalar name) (right.provider.scalar name))
  category : ∀ name,
    C.Holds Eq (Run.askOrFail (.category name) (left.provider.category name))
      (Run.askOrFail (.category name) (right.provider.category name))
  unknown :
    ∀ expr, C.Holds S (left.resolveUnknown expr) (right.resolveUnknown expr)

/-- A comparison and a relation of shapes suit two resolvers that ask their
questions alike and register the same names. -/
structure Suits (C : Comparison) (S : Shape → Shape → Prop)
    (left right : Resolver) : Prop extends AsksAlike C S left right where
  registry : ∀ name, left.registry.contains name = right.registry.contains name

/-- A comparison and a relation of shapes under which two resolvers look names
up alike and treat unknown ones alike, whatever they make of records. -/
structure LooksUpAlike (C : Comparison) (S : Shape → Shape → Prop)
    (left right : Resolver) : Prop where
  scalar : ∀ name,
    C.Holds Eq (Run.ask (.scalar name) (left.provider.scalar name))
      (Run.ask (.scalar name) (right.provider.scalar name))
  registry : ∀ name, left.registry.contains name = right.registry.contains name
  category : ∀ name,
    C.Holds Eq (Run.askOrFail (.category name) (left.provider.category name))
      (Run.askOrFail (.category name) (right.provider.category name))
  unknown :
    ∀ expr, C.Holds S (left.resolveUnknown expr) (right.resolveUnknown expr)

theorem Suits.looksUpAlike {C : Comparison} {S : Shape → Shape → Prop}
    {left right : Resolver} (h : Suits C S left right) :
    LooksUpAlike C S left right where
  scalar := h.scalar
  registry := h.registry
  category := h.category
  unknown := h.unknown

/-- Whether a record is refused because it is being expanded already. -/
def Refuses (resolver : Resolver) (enclosing : List String) (expr : TypeExpr) :
    Prop :=
  resolver.refusesCycles = true ∧ expr.signature ∈ enclosing

section Level

variable {C : Comparison} {S : Shape → Shape → Prop} {left right : Resolver}

theorem addField_holds {below below' : TypeExpr → Run Shape}
    (hbelow : ∀ expr, C.Holds S (below expr) (below' expr))
    (bindings : Bindings) (fields fields' : Table Shape) (source : FieldSource)
    (hfields : TablesRelated S fields fields') :
    C.Holds (TablesRelated S) (addField below bindings fields source)
      (addField below' bindings fields' source) := by
  unfold addField
  apply C.bind (C.ofExcept_badExpr _)
  rintro expr _ rfl
  apply C.bind (hbelow expr)
  intro shape shape' hshape
  exact C.pure (hfields.put source.name hshape)

theorem expandFields_holds (hdescribes : DescribesAlike C left right)
    {below below' : TypeExpr → Run Shape}
    (hbelow : ∀ expr, C.Holds S (below expr) (below' expr)) (expr : TypeExpr) :
    C.Holds (TablesRelated S) (left.expandFields below expr)
      (right.expandFields below' expr) := by
  unfold expandFields
  apply C.bind (hdescribes.typeVars _)
  rintro typeVars _ rfl
  apply C.bind (hdescribes.fields _)
  rintro declared _ rfl
  refine C.bind (C.foldlM (addField_holds hbelow _) _ List.Forall₂.nil) ?_
  intro fields fields' hfields
  rw [← hdescribes.extraction]
  split
  · exact C.pure hfields
  · apply C.bind (hdescribes.methods _)
    rintro methods _ rfl
    exact C.foldlM (addField_holds hbelow _) _ hfields

theorem resolveRecord_of_refuses {resolver : Resolver}
    {below : List String → TypeExpr → Run Shape} {enclosing : List String}
    {expr : TypeExpr} (h : resolver.Refuses enclosing expr) :
    resolver.resolveRecord below enclosing expr =
      .fail (.cyclic expr.signature) :=
  if_pos h

theorem resolveRecord_of_not_refuses {resolver : Resolver}
    {below : List String → TypeExpr → Run Shape} {enclosing : List String}
    {expr : TypeExpr} (h : ¬ resolver.Refuses enclosing expr) :
    resolver.resolveRecord below enclosing expr =
      Run.between (.expand expr.signature) (.expanded expr.signature)
        (resolver.expandFields (below (expr.signature :: enclosing)) expr) >>=
        fun fields => pure (.record fields.entries) :=
  if_neg h

variable {below below' : List String → TypeExpr → Run Shape}
  {enclosing enclosing' : List String} {expr : TypeExpr}

/-- Where the second resolver refuses a record as well, the refusals are
compared. -/
theorem refused_holds (hright : right.Refuses enclosing' expr)
    (hfail : C.Holds S (.fail (.cyclic expr.signature))
      (.fail (.cyclic expr.signature))) :
    C.Holds S (.fail (.cyclic expr.signature))
      (right.resolveRecord below' enclosing' expr) := by
  rwa [resolveRecord_of_refuses hright]

/-- A record compares if its fields do.  What is to be shown where one of the
resolvers refuses the record is left open. -/
theorem resolveRecord_holds_of_fields {T : Table Shape → Table Shape → Prop}
    (hrecord : ∀ {fields fields'},
      T fields fields' → S (.record fields.entries) (.record fields'.entries))
    (hexpand : C.Holds T
      (left.expandFields (below (expr.signature :: enclosing)) expr)
      (right.expandFields (below' (expr.signature :: enclosing')) expr))
    (hrefused : left.Refuses enclosing expr →
      C.Holds S (.fail (.cyclic expr.signature))
        (right.resolveRecord below' enclosing' expr))
    (hrefuses : right.Refuses enclosing' expr → left.Refuses enclosing expr) :
    C.Holds S (left.resolveRecord below enclosing expr)
      (right.resolveRecord below' enclosing' expr) := by
  by_cases hleft : left.Refuses enclosing expr
  · rw [resolveRecord_of_refuses hleft]
    exact hrefused hleft
  · rw [resolveRecord_of_not_refuses hleft,
      resolveRecord_of_not_refuses (fun hright => hleft (hrefuses hright))]
    apply C.bind (C.expanding _ hexpand)
    intro fields fields' hfields
    exact C.pure (hrecord hfields)

/-- A record compares if what its fields consist of does. -/
theorem resolveRecord_holds (hshape : ShapeCongruence S)
    (hdescribes : DescribesAlike C left right)
    (hinner : ∀ inner, C.Holds S (below (expr.signature :: enclosing) inner)
      (below' (expr.signature :: enclosing') inner))
    (hrefused : left.Refuses enclosing expr →
      C.Holds S (.fail (.cyclic expr.signature))
        (right.resolveRecord below' enclosing' expr))
    (hrefuses : right.Refuses enclosing' expr → left.Refuses enclosing expr) :
    C.Holds S (left.resolveRecord below enclosing expr)
      (right.resolveRecord below' enclosing' expr) :=
  resolveRecord_holds_of_fields (fun hfields => hshape.record hfields)
    (expandFields_holds hdescribes hinner expr) hrefused hrefuses

theorem resolveCategory_holds (hshape : ShapeCongruence S)
    {category : Option Category}
    (hunknown : category = none →
      C.Holds S (left.resolveUnknown expr) (right.resolveUnknown expr))
    (hbelow : ∀ part, C.Holds S (below enclosing part) (below' enclosing' part))
    (hrecord : C.Holds S (left.resolveRecord below enclosing expr)
      (right.resolveRecord below' enclosing' expr)) :
    C.Holds S (left.resolveCategory below enclosing expr category)
      (right.resolveCategory below' enclosing' expr category) := by
  cases category with
  | none => exact hunknown rfl
  | some category =>
      cases category with
      | enumeration constants => exact C.pure (hshape.enumeration constants)
      | collection =>
          apply C.bind (hbelow _)
          intro element element' helement
          exact C.pure (hshape.sequence _ helement)
      | mapping =>
          apply C.bind (hbelow _)
          intro key key' hkey
          apply C.bind (hbelow _)
          intro value value' hvalue
          exact C.pure (hshape.mapping hkey hvalue)
      | record => exact hrecord

/-- A name is looked up in the registry only where it is no scalar, so only
there do the registries have to agree about it. -/
theorem resolveName_holds (hshape : ShapeCongruence S)
    (hscalar : C.Holds (fun kind? kind?' => kind? = kind?' ∧
      (kind? = none → left.registry.contains expr.name.text =
        right.registry.contains expr.name.text))
      (Run.ask (.scalar expr.name.text) (left.provider.scalar expr.name.text))
      (Run.ask (.scalar expr.name.text) (right.provider.scalar expr.name.text)))
    (hasked : C.Holds Eq (Run.askOrFail (.category expr.name.text)
      (left.provider.category expr.name.text)) (Run.askOrFail
        (.category expr.name.text) (right.provider.category expr.name.text)))
    (hcategory : ∀ category,
      C.Holds S (left.resolveCategory below enclosing expr category)
        (right.resolveCategory below' enclosing' expr category)) :
    C.Holds S (left.resolveName below enclosing expr)
      (right.resolveName below' enclosing' expr) := by
  unfold resolveName
  apply C.bind hscalar
  rintro kind? _ ⟨rfl, hregistry⟩
  cases kind? with
  | some kind => exact C.pure (hshape.scalar kind)
  | none =>
      simp only [← hregistry rfl]
      split
      · exact C.pure (hshape.custom expr)
      · apply C.bind hasked
        rintro category _ rfl
        exact hcategory category

/-- One level of resolution compares if what lies below it does and if names
are resolved alike. -/
theorem resolveLevel_holds_of_name (hshape : ShapeCongruence S)
    (hbelow : ∀ part, C.Holds S (below enclosing part) (below' enclosing' part))
    (hname : expr.element? = none →
      C.Holds S (left.resolveName below enclosing expr)
        (right.resolveName below' enclosing' expr)) :
    C.Holds S (left.resolveLevel below enclosing expr)
      (right.resolveLevel below' enclosing' expr) := by
  unfold resolveLevel
  split
  · apply C.bind (hbelow _)
    intro shape shape' hrelated
    exact C.pure (hshape.sequence _ hrelated)
  · next helement => exact hname helement

/-- One level of resolution compares if what lies below it does and if records
are resolved alike. -/
theorem resolveLevel_holds_of_record (hshape : ShapeCongruence S)
    (hlooks : LooksUpAlike C S left right)
    (hbelow : ∀ part, C.Holds S (below enclosing part) (below' enclosing' part))
    (hrecord : C.Holds S (left.resolveRecord below enclosing expr)
      (right.resolveRecord below' enclosing' expr)) :
    C.Holds S (left.resolveLevel below enclosing expr)
      (right.resolveLevel below' enclosing' expr) := by
  apply resolveLevel_holds_of_name hshape hbelow
  intro _
  apply resolveName_holds hshape _ (hlooks.category _)
  · exact fun _ =>
      resolveCategory_holds hshape (fun _ => hlooks.unknown expr) hbelow hrecord
  · apply C.imp (hlooks.scalar expr.name.text)
    intro kind? kind?' heq
    exact ⟨heq, fun _ => hlooks.registry expr.name.text⟩

theorem resolveLevel_holds (hshape : ShapeCongruence S)
    (hsuits : Suits C S left right)
    (hbelow : ∀ part, C.Holds S (below enclosing part) (below' enclosing' part))
    (hinner : ∀ inner, C.Holds S (below (expr.signature :: enclosing) inner)
      (below' (expr.signature :: enclosing') inner))
    (hrefused : left.Refuses enclosing expr →
      C.Holds S (.fail (.cyclic expr.signature))
        (right.resolveRecord below' enclosing' expr))
    (hrefuses : right.Refuses enclosing' expr → left.Refuses enclosing expr) :
    C.Holds S (left.resolveLevel below enclosing expr)
      (right.resolveLevel below' enclosing' expr) :=
  resolveLevel_holds_of_record hshape hsuits.looksUpAlike hbelow
    (resolveRecord_holds hshape hsuits.toDescribesAlike hinner hrefused
      hrefuses)

end Level

section Requests

variable {C : Comparison} {S : Shape → Shape → Prop} {left right : Resolver}

/-- A request compares if every expression does and if related shapes
contribute related fields. -/
theorem run_holds (hshape : ShapeCongruence S)
    (hcontribution : ∀ name shape shape', S shape shape' →
      FieldsRelated S (contribution name shape) (contribution name shape'))
    (hresolve : ∀ expr, C.Holds S (left.resolve expr) (right.resolve expr))
    (request : Request) : C.Holds S (left.run request) (right.run request) := by
  cases request with
  | expr expr => exact hresolve expr
  | signature text =>
      apply C.bind (C.ofExcept_badExpr _)
      rintro expr _ rfl
      exact hresolve expr
  | roots roots =>
      refine C.bind (C.foldlM (S := TablesRelated S) ?_ roots List.Forall₂.nil)
        ?_
      · intro fields fields' root hfields
        apply C.bind (hresolve root.2)
        intro shape shape' hrelated
        exact C.pure (TablesRelated.putAll hfields
          (hcontribution root.1 shape shape' hrelated))
      · intro fields fields' hfields
        exact C.pure (hshape.record hfields)

theorem contribution_related_eq (name : String) (shape shape' : Shape)
    (h : shape = shape') :
    FieldsRelated Eq (contribution name shape) (contribution name shape') := by
  rw [h, fieldsRelated_eq_iff]

end Requests

end Resolver

end TypeShape
