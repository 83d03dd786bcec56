import Mathlib
import TypeShape.Proofs.Resolver.Consultation
import TypeShape.Proofs.Resolver.Lookup
import TypeShape.Session

/-!
Registering names only prunes.  A name that is registered is kept as a custom
leaf instead of being looked into, so with more names registered a resolution
visits less of a type.  Where the smaller registry gives a shape, the larger one
gives a shape as well: the same one, but for custom leaves in place of what lies
at and below the new names.
-/
namespace TypeShape

/-- The second shape is the first one with some parts cut down to custom leaves
whose names may be cut, and which are no arrays. -/
inductive Pruned (mayCut : String → Prop) : Shape → Shape → Prop
  | cut (shape : Shape) {type : TypeExpr} (hdim : type.dim = 0)
      (hname : mayCut type.name.text) :
      Pruned mayCut shape (.leaf (.custom type))
  | leaf (content : Leaf) : Pruned mayCut (.leaf content) (.leaf content)
  | sequence (kind : SequenceKind) {element element' : Shape}
      (helement : Pruned mayCut element element') :
      Pruned mayCut (.sequence kind element) (.sequence kind element')
  | mapping {key key' value value' : Shape} (hkey : Pruned mayCut key key')
      (hvalue : Pruned mayCut value value') :
      Pruned mayCut (.mapping key value) (.mapping key' value')
  | record {fields fields' : List (String × Shape)}
      (hnames : fields.map Prod.fst = fields'.map Prod.fst)
      (hshapes : List.Forall₂ (Pruned mayCut) (fields.map Prod.snd)
        (fields'.map Prod.snd)) :
      Pruned mayCut (.record fields) (.record fields')

theorem FieldsRelated.names_eq {S : Shape → Shape → Prop}
    {fields fields' : List (String × Shape)}
    (h : FieldsRelated S fields fields') :
    fields.map Prod.fst = fields'.map Prod.fst := by
  induction h with
  | nil => rfl
  | cons hfield _ ih => rw [List.map_cons, List.map_cons, hfield.1, ih]

theorem FieldsRelated.shapes {S : Shape → Shape → Prop}
    {fields fields' : List (String × Shape)}
    (h : FieldsRelated S fields fields') :
    List.Forall₂ S (fields.map Prod.snd) (fields'.map Prod.snd) := by
  rw [List.forall₂_map_left_iff, List.forall₂_map_right_iff]
  exact h.imp fun _ _ hfield => hfield.2

theorem shapeCongruence_pruned (mayCut : String → Prop) :
    ShapeCongruence (Pruned mayCut) where
  scalar _ := .leaf _
  enumeration _ := .leaf _
  custom _ := .leaf _
  sequence kind _ _ h := .sequence kind h
  mapping hkey hvalue := .mapping hkey hvalue
  record hfields := .record hfields.names_eq hfields.shapes

namespace Run

variable {α β γ δ : Type}

/-- The second run has a value if the first one has, and the values are
related. -/
def SucceedsWith (S : α → β → Prop) (run : Run α) (run' : Run β) : Prop :=
  ∀ a, run.outcome = .ok a → ∃ b, run'.outcome = .ok b ∧ S a b

theorem SucceedsWith.bind {S : α → β → Prop} {T : γ → δ → Prop} {run : Run α}
    {run' : Run β} {next : α → Run γ} {next' : β → Run δ}
    (h : run.SucceedsWith S run')
    (hnext : ∀ a b, S a b → (next a).SucceedsWith T (next' b)) :
    (run >>= next).SucceedsWith T (run' >>= next') := by
  rcases run.ok_or_error with ⟨a, ha⟩ | ⟨fault, hfault⟩
  · obtain ⟨b, hb, hab⟩ := h a ha
    rw [bind_of_ok ha, bind_of_ok hb]
    exact hnext a b hab
  · rw [bind_of_error hfault]
    exact nofun

theorem succeedsWith_self (run : Run α) : run.SucceedsWith Eq run :=
  fun a ha => ⟨a, ha, rfl⟩

end Run

/-- A run compared with another one as far as it succeeds. -/
def success : Comparison where
  Holds := Run.SucceedsWith
  pure h _ ha := by
    cases ha
    exact ⟨_, rfl, h⟩
  bind h hnext := h.bind hnext
  badExpr _ := nofun
  expanding _ h := h

namespace Resolver

variable (resolver : Resolver) (registry : Registry)

/-- The name is no scalar's and stands in the other registry only. -/
structure NewlyCustom (name : String) : Prop where
  scalar : resolver.provider.scalar name = none
  before : resolver.registry.contains name = false
  after : registry.contains name = true

def registering : Resolver :=
  resolver.consulting resolver.provider registry

theorem asksAlike_success :
    AsksAlike success (Pruned (resolver.NewlyCustom registry)) resolver
      (resolver.registering registry) where
  scalar _ := Run.succeedsWith_self _
  category _ := Run.succeedsWith_self _
  typeVars _ := Run.succeedsWith_self _
  fields _ := Run.succeedsWith_self _
  methods _ := Run.succeedsWith_self _
  extraction := rfl
  unknown expr := by
    intro shape hshape
    refine ⟨shape, hshape, ?_⟩
    unfold resolveUnknown at hshape
    split at hshape
    · cases hshape
    · cases hshape
      exact .leaf _
    · cases hshape
      exact .leaf _

variable {resolver registry}
  (hmore : ∀ name,
    resolver.registry.contains name = true → registry.contains name = true)

include hmore

/-- A name about which the registries agree is resolved alike.  One that is new
in the larger registry becomes a leaf there, whatever it was before. -/
theorem resolveName_succeedsWith
    {below below' : List String → TypeExpr → Run Shape}
    {enclosing : List String} {expr : TypeExpr}
    (helement : expr.element? = none)
    (hcategory : ∀ category,
      (resolver.resolveCategory below enclosing expr category).SucceedsWith
        (Pruned (resolver.NewlyCustom registry))
        ((resolver.registering registry).resolveCategory below' enclosing expr
          category)) :
    (resolver.resolveName below enclosing expr).SucceedsWith
      (Pruned (resolver.NewlyCustom registry))
      ((resolver.registering registry).resolveName below' enclosing expr) := by
  by_cases hnew : resolver.NewlyCustom registry expr.name.text
  · intro shape _
    rw [(resolver.registering registry).resolveName_of_registered below'
      enclosing hnew.scalar hnew.after]
    exact ⟨_, rfl, .cut shape (TypeExpr.element?_eq_none_iff.1 helement) hnew⟩
  · apply resolveName_holds (C := success) (shapeCongruence_pruned _) _
      ((resolver.asksAlike_success registry).category _) hcategory
    intro kind? hkind?
    refine ⟨kind?, hkind?, rfl, ?_⟩
    rintro rfl
    have hscalar : resolver.provider.scalar expr.name.text = none :=
      Except.ok.inj hkind?
    cases hbefore : resolver.registry.contains expr.name.text with
    | true => exact (hmore _ hbefore).symm
    | false =>
        cases hafter : registry.contains expr.name.text with
        | true => exact absurd ⟨hscalar, hbefore, hafter⟩ hnew
        | false => exact hafter.symm

/-- With as many levels left and inside the same records, the larger registry
gives a pruned shape wherever the smaller one gives a shape. -/
theorem resolveWithin_succeedsWith (left : Nat) (enclosing : List String)
    (expr : TypeExpr) :
    (resolver.resolveWithin left enclosing expr).SucceedsWith
      (Pruned (resolver.NewlyCustom registry))
      ((resolver.registering registry).resolveWithin left enclosing expr) := by
  induction left generalizing enclosing expr with
  | zero => exact nofun
  | succ left ih =>
      have hshape := shapeCongruence_pruned (resolver.NewlyCustom registry)
      have hasks := resolver.asksAlike_success registry
      have hrecord : success.Holds (Pruned (resolver.NewlyCustom registry))
          (resolver.resolveRecord (resolver.resolveWithin left) enclosing expr)
          ((resolver.registering registry).resolveRecord
            ((resolver.registering registry).resolveWithin left) enclosing
            expr) := by
        -- both runs are inside the same records, so the guard refuses in both
        -- or in none
        apply resolveRecord_holds hshape hasks.toDescribesAlike
          (ih (expr.signature :: enclosing))
        · exact fun _ => nofun
        · exact id
      apply resolveLevel_holds_of_name (C := success) hshape (ih enclosing)
      intro helement
      apply resolveName_succeedsWith hmore helement
      intro category
      exact resolveCategory_holds (C := success) hshape
        (fun _ => hasks.unknown expr) (ih enclosing) hrecord

omit hmore

/-- A larger registry only prunes.  If an expression has a shape, it has one
with any registry that holds more names, and that is the same shape with some
parts cut down to custom leaves, no arrays, whose names are no scalars' and were
not registered before.  So to register a name never makes a resolution fail. -/
theorem resolve_registering_pruned (resolver : Resolver) (expr : TypeExpr)
    {shape : Shape} (hshape : (resolver.resolve expr).outcome = .ok shape) :
    (∀ registry : Registry,
      (∀ name, resolver.registry.contains name = true →
        registry.contains name = true) →
      ∃ shape',
        ((resolver.registering registry).resolve expr).outcome = .ok shape' ∧
        Pruned (resolver.NewlyCustom registry) shape shape') ∧
    ∀ name, ∃ shape',
      ((resolver.perform (.register name)).resolver.resolve expr).outcome =
        .ok shape' ∧
      Pruned (resolver.NewlyCustom (resolver.registry.register name)) shape
        shape' := by
  have hpruned : ∀ registry : Registry,
      (∀ name, resolver.registry.contains name = true →
        registry.contains name = true) → ∃ shape',
          ((resolver.registering registry).resolve expr).outcome = .ok shape' ∧
          Pruned (resolver.NewlyCustom registry) shape shape' :=
    fun registry hmore =>
      resolveWithin_succeedsWith hmore _ [] expr shape hshape
  refine ⟨hpruned, fun name => hpruned (resolver.registry.register name) ?_⟩
  intro other hother
  rw [Registry.contains_register, hother, Bool.or_true]

/-- The tags of a node are cut once their type is registered, the scalar is
not. -/
theorem resolve_registering_nodes :
    (nodes.resolve ⟨⟨"Node", by decide⟩, [], 0⟩).outcome =
      .ok (.record [("id", .leaf (.scalar .int)),
        ("tags", .sequence .array (.leaf (.enumeration ["NEW"])))]) ∧
    (∀ name, nodes.registry.contains name = true →
      (Registry.ofList ["int", "Tag"]).contains name = true) ∧
    ((nodes.registering (.ofList ["int", "Tag"])).resolve
      ⟨⟨"Node", by decide⟩, [], 0⟩).outcome =
      .ok (.record [("id", .leaf (.scalar .int)), ("tags",
        .sequence .array (.leaf (.custom ⟨⟨"Tag", by decide⟩, [], 0⟩)))]) ∧
    Pruned (nodes.NewlyCustom (.ofList ["int", "Tag"]))
      (.record [("id", .leaf (.scalar .int)),
        ("tags", .sequence .array (.leaf (.enumeration ["NEW"])))])
      (.record [("id", .leaf (.scalar .int)), ("tags",
        .sequence .array (.leaf (.custom ⟨⟨"Tag", by decide⟩, [], 0⟩)))]) := by
  have hshape : (nodes.resolve ⟨⟨"Node", by decide⟩, [], 0⟩).outcome =
      .ok (.record [("id", .leaf (.scalar .int)),
        ("tags", .sequence .array (.leaf (.enumeration ["NEW"])))]) := by
    cbv
  have hcut : ((nodes.registering (.ofList ["int", "Tag"])).resolve
      ⟨⟨"Node", by decide⟩, [], 0⟩).outcome =
      .ok (.record [("id", .leaf (.scalar .int)), ("tags",
        .sequence .array (.leaf (.custom ⟨⟨"Tag", by decide⟩, [], 0⟩)))]) := by
    cbv
  have hmore : ∀ name, nodes.registry.contains name = true →
      (Registry.ofList ["int", "Tag"]).contains name = true := by
    intro name hname
    cases hname
  obtain ⟨shape', hshape', hpruned⟩ :=
    (nodes.resolve_registering_pruned _ hshape).1 _ hmore
  rw [hcut] at hshape'
  cases hshape'
  exact ⟨hshape, hmore, hcut, hpruned⟩

end Resolver

end TypeShape
