import Mathlib
import TypeShape.Proofs.Resolver.Lookup
import TypeShape.Proofs.Shape.Leaves

/-!
What becomes of unknown names.  The three policies differ only where a run looks
up a name that is no scalar's, not registered and not known to the provider.
Custom leaves there instead of unknown ones make no other difference.  To reject
such a name makes none either up to the first of them, where the run ends.
-/
namespace TypeShape

/-- The name that is looked up, if a question begins to look one up. -/
def Question.lookedUp? : Question → Option String
  | scalar name => some name
  | _ => none

/-- A leaf of an unknown type, kept as a custom one. -/
def Leaf.unknownAsCustom : Leaf → Leaf
  | unknown type => custom type
  | content => content

namespace Shape

/-- The shape with all unknown types kept as custom ones. -/
def unknownAsCustom (shape : Shape) : Shape :=
  shape.mapLeaves Leaf.unknownAsCustom

/-- No leaf of the shape is of an unknown type. -/
def AllKnown (shape : Shape) : Prop :=
  ∀ type, .unknown type ∉ shape.leaves

theorem AllKnown.unknownAsCustom_eq {shape : Shape} (h : shape.AllKnown) :
    shape.unknownAsCustom = shape := by
  apply mapLeaves_eq_self
  intro content hcontent
  cases content with
  | unknown type => exact absurd hcontent (h type)
  | scalar | enumeration | custom => rfl

theorem allKnown_record {fields : List (String × Shape)} :
    (record fields).AllKnown ↔ FieldsAll AllKnown fields := by
  constructor
  · intro h field hfield type htype
    exact h type (mem_leavesOfFields.2 ⟨field, hfield, htype⟩)
  · intro h type htype
    obtain ⟨field, hfield, hmem⟩ := mem_leavesOfFields.1 htype
    exact h field hfield type hmem

end Shape

theorem fieldsRelated_mapLeaves_iff {f : Leaf → Leaf}
    {fields fields' : List (String × Shape)} :
    FieldsRelated (fun shape shape' => shape.mapLeaves f = shape') fields
      fields' ↔ Shape.mapLeavesOfFields f fields = fields' := by
  rw [Shape.mapLeavesOfFields_eq_map, ← fieldsRelated_eq_iff, FieldsRelated,
    FieldsRelated, List.forall₂_map_left_iff]

theorem fieldsRelated_and_iff {kind : Shape → Prop}
    {fields fields' : List (String × Shape)} :
    FieldsRelated (fun shape shape' => shape = shape' ∧ kind shape) fields
      fields' ↔ fields = fields' ∧ FieldsAll kind fields := by
  rw [← fieldsRelated_eq_iff, and_comm (b := FieldsAll kind fields)]
  refine Iff.trans ?_ (List.forall₂_and_left _ _)
  simp only [FieldsRelated, and_left_comm, and_comm]

theorem shapeCongruence_unknownAsCustom :
    ShapeCongruence (fun shape shape' => shape.unknownAsCustom = shape') where
  scalar _ := rfl
  enumeration _ := rfl
  custom _ := rfl
  sequence kind _ _ h := congrArg (Shape.sequence kind) h
  mapping hkey hvalue := congrArg₂ Shape.mapping hkey hvalue
  record hfields :=
    congrArg Shape.record (fieldsRelated_mapLeaves_iff.1 hfields)

theorem shapeCongruence_allKnown :
    ShapeCongruence (fun shape shape' => shape = shape' ∧ shape.AllKnown) where
  scalar _ := ⟨rfl, by simp [Shape.AllKnown, Shape.leaves]⟩
  enumeration _ := ⟨rfl, by simp [Shape.AllKnown, Shape.leaves]⟩
  custom _ := ⟨rfl, by simp [Shape.AllKnown, Shape.leaves]⟩
  sequence kind _ _ h := ⟨congrArg (Shape.sequence kind) h.1, h.2⟩
  mapping hkey hvalue := by
    refine ⟨congrArg₂ Shape.mapping hkey.1 hvalue.1, fun type htype => ?_⟩
    rcases List.mem_append.1 htype with hmem | hmem
    · exact hkey.2 type hmem
    · exact hvalue.2 type hmem
  record hfields := by
    obtain ⟨rfl, hknown⟩ := fieldsRelated_and_iff.1 hfields
    exact ⟨rfl, Shape.allKnown_record.2 hknown⟩

namespace Run

variable {α β γ δ : Type}

/-- The names that a run looks up, in the order in which it meets them. -/
def names (run : Run α) : List String :=
  run.questions.filterMap Question.lookedUp?

theorem names_bind_of_ok {run : Run α} {a : α} (h : run.outcome = .ok a)
    (next : α → Run β) :
    (run >>= next).names = run.names ++ (next a).names := by
  rw [names, questions_bind_of_ok h, List.filterMap_append]
  rfl

theorem names_isPrefix_bind (run : Run α) (next : α → Run β) :
    run.names <+: (run >>= next).names :=
  (run.questions_isPrefix_bind next).filterMap Question.lookedUp?

theorem names_between {first last : Step} (hfirst : first.question? = none)
    (hlast : last.question? = none) (run : Run α) :
    (run.between first last).names = run.names := by
  rw [names, questions_between hfirst hlast]
  rfl

/-- A lenient run and a strict one.  The strict run fails at the first unknown
name that the lenient run looks up; if that looks up none, both come to the same
end, and that is not that a name is unknown. -/
def StrictFor (unknown : String → Bool) (S : α → β → Prop) (strict : Run α)
    (lenient : Run β) : Prop :=
  (lenient.names.find? unknown = none ∧
    SameEnd S strict.outcome lenient.outcome ∧
    ∀ name, strict.outcome ≠ .error (.unknownType name)) ∨
  ∃ name, lenient.names.find? unknown = some name ∧
    strict.outcome = .error (.unknownType name)

variable {unknown : String → Bool}

theorem StrictFor.bind {S : α → β → Prop} {T : γ → δ → Prop} {strict : Run α}
    {lenient : Run β} {next : α → Run γ} {next' : β → Run δ}
    (h : strict.StrictFor unknown S lenient)
    (hnext : ∀ a b, S a b → (next a).StrictFor unknown T (next' b)) :
    (strict >>= next).StrictFor unknown T (lenient >>= next') := by
  rcases h with
    ⟨hnone, ⟨a, b, ha, hb, hab⟩ | ⟨fault, hf, hf'⟩, hknown⟩ |
      ⟨name, hname, hfault⟩
  · rw [StrictFor, names_bind_of_ok hb, List.find?_append, hnone,
      Option.none_or, bind_of_ok ha, bind_of_ok hb]
    exact hnext a b hab
  · refine Or.inl ⟨?_, Or.inr ⟨fault, ?_, ?_⟩, ?_⟩
    · rw [names, questions_bind_of_error hf']
      exact hnone
    · rw [bind_of_error hf]
    · rw [bind_of_error hf']
    · intro name hname
      rw [bind_of_error hf] at hname
      cases hname
      exact hknown name hf
  · refine Or.inr ⟨name, ?_, ?_⟩
    · exact (lenient.names_isPrefix_bind next').find?_eq_some hname
    · rw [bind_of_error hfault]

theorem StrictFor.between {S : α → β → Prop} {strict : Run α} {lenient : Run β}
    (h : strict.StrictFor unknown S lenient) {first last : Step}
    (hfirst : first.question? = none) (hlast : last.question? = none) :
    (strict.between first last).StrictFor unknown S
      (lenient.between first last) := by
  rw [StrictFor, names_between hfirst hlast]
  exact h

/-- A run that looks up no unknown name and does not fail at one. -/
theorem strictFor_self {run : Run α} (hnames : run.names.find? unknown = none)
    (hknown : ∀ name, run.outcome ≠ .error (.unknownType name)) :
    run.StrictFor unknown Eq run :=
  Or.inl ⟨hnames, sameEnd_eq_iff.2 rfl, hknown⟩

theorem askOrFail_ne_unknownType (question : Question)
    (answer : Except String α) (name : String) :
    (askOrFail question answer).outcome ≠ .error (.unknownType name) := by
  cases answer <;> simp [askOrFail, Except.mapError]

end Run

/-- A run that rejects unknown names compared with one that goes on after
them. -/
def strictness (unknown : String → Bool) : Comparison where
  Holds := Run.StrictFor unknown
  pure h := Or.inl ⟨rfl, Or.inl ⟨_, _, rfl, rfl, h⟩, nofun⟩
  bind h hnext := h.bind hnext
  badExpr fault := Or.inl ⟨rfl, Or.inr ⟨.badExpr fault, rfl, rfl⟩, nofun⟩
  expanding _ h := h.between rfl rfl

/-- A run compared with one that makes the same steps. -/
def sameSteps : Comparison where
  Holds := Run.SameButFor
  pure h := ⟨rfl, Or.inl ⟨_, _, rfl, rfl, h⟩⟩
  bind h hnext := h.bind fun a b _ hab => hnext a b hab
  badExpr fault := ⟨rfl, Or.inr ⟨.badExpr fault, rfl, rfl⟩⟩
  expanding _ h := h.between _ _

namespace Resolver

variable (resolver : Resolver)

def treating (policy : UnknownPolicy) : Resolver :=
  { resolver with settings := { resolver.settings with unknown := policy } }

/-- Whether a name is no scalar's, not registered, and not known to the
provider. -/
def isUnknown (name : String) : Bool :=
  match resolver.provider.scalar name, resolver.registry.contains name,
    resolver.provider.category name with
  | none, false, .ok none => true
  | _, _, _ => false

variable {resolver}

theorem isUnknown_of_scalar {name : String} {kind : Scalar}
    (hscalar : resolver.provider.scalar name = some kind) :
    resolver.isUnknown name = false := by
  simp [isUnknown, hscalar]

theorem isUnknown_of_registered {name : String}
    (hregistry : resolver.registry.contains name = true) :
    resolver.isUnknown name = false := by
  unfold isUnknown
  split
  · next h _ => rw [hregistry] at h; cases h
  · rfl

theorem isUnknown_of_lookupFailed {name reason : String}
    (hcategory : resolver.provider.category name = .error reason) :
    resolver.isUnknown name = false := by
  unfold isUnknown
  split
  · next h => rw [hcategory] at h; cases h
  · rfl

theorem isUnknown_of_finds {expr : TypeExpr} {category : Option Category}
    (hfinds : resolver.Finds expr category) :
    resolver.isUnknown expr.name.text = category.isNone := by
  unfold isUnknown
  rw [hfinds.scalar, hfinds.registry, hfinds.category]
  cases category <;> rfl

/-- What a name is found as does not depend on the policy. -/
theorem Finds.treating {expr : TypeExpr} {category : Option Category}
    (hfinds : resolver.Finds expr category) (policy : UnknownPolicy) :
    (resolver.treating policy).Finds expr category :=
  ⟨hfinds.element?, hfinds.scalar, hfinds.registry, hfinds.category⟩

variable (resolver)

theorem suits_sameSteps :
    Suits sameSteps (fun shape shape' => shape.unknownAsCustom = shape')
      (resolver.treating .asUnknown) (resolver.treating .asCustom) where
  scalar _ := Run.sameButFor_eq_iff.2 rfl
  category _ := Run.sameButFor_eq_iff.2 rfl
  typeVars _ := Run.sameButFor_eq_iff.2 rfl
  fields _ := Run.sameButFor_eq_iff.2 rfl
  methods _ := Run.sameButFor_eq_iff.2 rfl
  extraction := rfl
  registry _ := rfl
  unknown _ := ⟨rfl, Or.inl ⟨_, _, rfl, rfl, rfl⟩⟩

theorem describesAlike_strictness :
    DescribesAlike (strictness resolver.isUnknown) (resolver.treating .reject)
      (resolver.treating .asUnknown) where
  typeVars _ := Run.strictFor_self rfl (Run.askOrFail_ne_unknownType _ _)
  fields _ := Run.strictFor_self rfl (Run.askOrFail_ne_unknownType _ _)
  methods _ := Run.strictFor_self rfl (Run.askOrFail_ne_unknownType _ _)
  extraction := rfl

/-- Custom leaves instead of unknown ones change nothing on the way. -/
theorem resolveWithin_sameSteps (left : Nat) (enclosing : List String)
    (expr : TypeExpr) :
    ((resolver.treating .asUnknown).resolveWithin left enclosing
      expr).SameButFor (fun shape shape' => shape.unknownAsCustom = shape')
      ((resolver.treating .asCustom).resolveWithin left enclosing expr) := by
  induction left generalizing enclosing expr with
  | zero => exact ⟨rfl, Or.inr ⟨_, rfl, rfl⟩⟩
  | succ left ih =>
      refine Run.SameButFor.between ?_ _ _
      apply resolveLevel_holds (C := sameSteps) shapeCongruence_unknownAsCustom
        resolver.suits_sameSteps (ih enclosing)
        (ih (expr.signature :: enclosing))
      · exact fun hrefuses => refused_holds hrefuses ⟨rfl, Or.inr ⟨_, rfl, rfl⟩⟩
      · exact id

/-- An unknown name ends the strict run; every other name is looked up alike. -/
theorem resolveName_strictFor
    {below below' : List String → TypeExpr → Run Shape}
    {enclosing : List String} {expr : TypeExpr}
    (helement : expr.element? = none)
    (hcategory : ∀ category : Category,
      ((resolver.treating .reject).resolveCategory below enclosing expr
        category).StrictFor resolver.isUnknown
        (fun shape shape' => shape = shape' ∧ shape.AllKnown)
        ((resolver.treating .asUnknown).resolveCategory below' enclosing expr
          category)) :
    ((resolver.treating .reject).resolveName below enclosing expr).StrictFor
      resolver.isUnknown (fun shape shape' => shape = shape' ∧ shape.AllKnown)
      ((resolver.treating .asUnknown).resolveName below' enclosing expr) := by
  have hshape := shapeCongruence_allKnown
  have hfind : ∀ {names : List String},
      resolver.isUnknown expr.name.text = false → names = [expr.name.text] →
      names.find? resolver.isUnknown = none := by
    rintro _ hname rfl
    exact List.find?_cons_of_neg (by simp [hname])
  rcases resolver.lookup_cases helement with
    ⟨kind, hscalar⟩ | ⟨hscalar, hregistry⟩ |
      ⟨hscalar, hregistry, reason, hfailed⟩ | ⟨category, hfinds⟩
  · rw [(resolver.treating .reject).resolveName_of_scalar below enclosing
      hscalar, (resolver.treating .asUnknown).resolveName_of_scalar below'
        enclosing hscalar]
    exact Or.inl ⟨hfind (isUnknown_of_scalar hscalar) rfl,
      Or.inl ⟨_, _, rfl, rfl, hshape.scalar kind⟩, nofun⟩
  · rw [(resolver.treating .reject).resolveName_of_registered below enclosing
      hscalar hregistry,
      (resolver.treating .asUnknown).resolveName_of_registered below' enclosing
        hscalar hregistry]
    exact Or.inl ⟨hfind (isUnknown_of_registered hregistry) rfl,
      Or.inl ⟨_, _, rfl, rfl, hshape.custom expr⟩, nofun⟩
  · rw [(resolver.treating .reject).resolveName_of_lookupFailed below enclosing
      hscalar hregistry hfailed,
      (resolver.treating .asUnknown).resolveName_of_lookupFailed below'
        enclosing hscalar hregistry hfailed]
    exact Or.inl ⟨hfind (isUnknown_of_lookupFailed hfailed) rfl,
      Or.inr ⟨_, rfl, rfl⟩, nofun⟩
  · have hname := isUnknown_of_finds hfinds
    rw [(resolver.treating .reject).resolveName_of_finds below enclosing
      (hfinds.treating .reject),
      (resolver.treating .asUnknown).resolveName_of_finds below' enclosing
        (hfinds.treating .asUnknown)]
    cases category with
    | none => exact Or.inr ⟨expr.name.text, List.find?_cons_of_pos hname, rfl⟩
    | some category =>
        apply Run.StrictFor.bind (S := Eq)
        · exact Run.strictFor_self (hfind hname rfl) nofun
        · exact fun _ _ _ => hcategory category

/-- With as many levels left and inside the same records, rejecting unknown
names ends a run at the first of them and changes nothing otherwise. -/
theorem resolveWithin_strictFor (left : Nat) (enclosing : List String)
    (expr : TypeExpr) :
    ((resolver.treating .reject).resolveWithin left enclosing expr).StrictFor
      resolver.isUnknown (fun shape shape' => shape = shape' ∧ shape.AllKnown)
      ((resolver.treating .asUnknown).resolveWithin left enclosing expr) := by
  induction left generalizing enclosing expr with
  | zero => exact Or.inl ⟨rfl, Or.inr ⟨_, rfl, rfl⟩, nofun⟩
  | succ left ih =>
      refine Run.StrictFor.between ?_ rfl rfl
      have hshape := shapeCongruence_allKnown
      have hrecord : (strictness resolver.isUnknown).Holds
          (fun shape shape' => shape = shape' ∧ shape.AllKnown)
          ((resolver.treating .reject).resolveRecord
            ((resolver.treating .reject).resolveWithin left) enclosing expr)
          ((resolver.treating .asUnknown).resolveRecord
            ((resolver.treating .asUnknown).resolveWithin left) enclosing
            expr) := by
        apply resolveRecord_holds hshape resolver.describesAlike_strictness
          (ih (expr.signature :: enclosing))
        · exact fun hrefuses =>
            refused_holds hrefuses (Or.inl ⟨rfl, Or.inr ⟨_, rfl, rfl⟩, nofun⟩)
        · exact id
      apply resolveLevel_holds_of_name (C := strictness resolver.isUnknown)
        hshape (ih enclosing)
      intro helement
      apply resolver.resolveName_strictFor helement
      intro category
      exact resolveCategory_holds (C := strictness resolver.isUnknown) hshape
        nofun (ih enclosing) hrecord

theorem run_sameSteps (request : Request) :
    ((resolver.treating .asUnknown).run request).SameButFor
      (fun shape shape' => shape.unknownAsCustom = shape')
      ((resolver.treating .asCustom).run request) := by
  apply run_holds (C := sameSteps) shapeCongruence_unknownAsCustom
  · rintro name shape _ rfl
    cases shape with
    | record fields => exact fieldsRelated_mapLeaves_iff.2 rfl
    | leaf | sequence | mapping =>
        exact List.Forall₂.cons ⟨rfl, rfl⟩ List.Forall₂.nil
  · exact fun expr => resolver.resolveWithin_sameSteps _ [] expr

theorem run_strictFor (request : Request) :
    ((resolver.treating .reject).run request).StrictFor resolver.isUnknown
      (fun shape shape' => shape = shape' ∧ shape.AllKnown)
      ((resolver.treating .asUnknown).run request) := by
  apply run_holds (C := strictness resolver.isUnknown) shapeCongruence_allKnown
  · rintro name shape _ ⟨rfl, hknown⟩
    cases shape with
    | record fields =>
        exact fieldsRelated_and_iff.2 ⟨rfl, Shape.allKnown_record.1 hknown⟩
    | leaf | sequence | mapping =>
        exact List.Forall₂.cons ⟨rfl, rfl, hknown⟩ List.Forall₂.nil
  · exact fun expr => resolver.resolveWithin_strictFor _ [] expr

/-- The policies for unknown names agree except at unknown names.  To keep
unknown types as custom ones changes just the leaves of unknown types.  If
rejecting them leaves a shape or another fault, the other policies have the
same, and the shape has no unknown leaf.  And a run is rejected because of a
name just if that is the first unknown name that the run which rejects none
looks up. -/
theorem run_treating (request : Request) :
    ((resolver.treating .asCustom).run request).outcome =
      ((resolver.treating .asUnknown).run request).outcome.map
        Shape.unknownAsCustom ∧
    (∀ shape, ((resolver.treating .reject).run request).outcome = .ok shape →
      ((resolver.treating .asUnknown).run request).outcome = .ok shape ∧
      ((resolver.treating .asCustom).run request).outcome = .ok shape ∧
      shape.AllKnown) ∧
    (∀ fault, ((resolver.treating .reject).run request).outcome = .error fault →
      (∀ name, fault ≠ .unknownType name) →
      ((resolver.treating .asUnknown).run request).outcome = .error fault ∧
      ((resolver.treating .asCustom).run request).outcome = .error fault) ∧
    ∀ name,
      ((resolver.treating .reject).run request).outcome =
        .error (.unknownType name) ↔
      ((resolver.treating .asUnknown).run request).names.find?
        resolver.isUnknown = some name := by
  have hcustom : ((resolver.treating .asCustom).run request).outcome =
      ((resolver.treating .asUnknown).run request).outcome.map
        Shape.unknownAsCustom := by
    rcases (resolver.run_sameSteps request).2 with
      ⟨_, _, ha, hb, rfl⟩ | ⟨fault, hf, hf'⟩
    · rw [ha, hb]
      rfl
    · rw [hf, hf']
      rfl
  rcases resolver.run_strictFor request with
    ⟨hnone, hend, hknown⟩ | ⟨first, hfirst, hrejected⟩
  · refine ⟨hcustom, ?_, ?_, ?_⟩
    · intro shape hshape
      rcases hend with ⟨_, _, ha, hb, rfl, hall⟩ | ⟨fault, hf, _⟩
      · rw [hshape] at ha
        cases ha
        refine ⟨hb, ?_, hall⟩
        rw [hcustom, hb, Except.map, hall.unknownAsCustom_eq]
      · rw [hshape] at hf
        cases hf
    · intro fault hfault _
      rcases hend with ⟨_, _, ha, _, _⟩ | ⟨_, hf, hf'⟩
      · rw [hfault] at ha
        cases ha
      · rw [hfault] at hf
        cases hf
        exact ⟨hf', by rw [hcustom, hf']; rfl⟩
    · intro name
      rw [hnone]
      exact ⟨fun hrejected => absurd hrejected (hknown name), nofun⟩
  · refine ⟨hcustom, ?_, ?_, ?_⟩
    · intro shape hshape
      rw [hrejected] at hshape
      cases hshape
    · intro fault hfault hother
      rw [hrejected] at hfault
      cases hfault
      exact absurd rfl (hother first)
    · intro name
      rw [hrejected, hfirst]
      simp

/-- A resolver for orders with a note of an unknown type, which a getter says is
a number, and with items that have a tag of another unknown type. -/
def orders : Resolver where
  provider :=
    { category name := .ok
        (if name = "Order" ∨ name = "Item" then some .record else none)
      typeVars _ := .ok []
      fields name := .ok
        (if name = "Order" then [⟨"note", "Note"⟩, ⟨"items", "Item[]"⟩]
        else [⟨"count", "int"⟩, ⟨"tag", "Tag"⟩])
      methods name := .ok
        (if name = "Order" then [⟨"getNote", [], "int"⟩] else []) }

/-- An order is rejected because of its note, although the note is a number in
the end.  What holds no unknown name has the same shape or fault throughout. -/
theorem run_treating_orders :
    ((orders.treating .reject).run (.signature "Order")).outcome =
      .error (.unknownType "Note") ∧
    ((orders.treating .asCustom).run (.signature "Order")).outcome =
      .ok (.record [("note", .leaf (.scalar .int)),
        ("items", .sequence .array (.record [("count", .leaf (.scalar .int)),
          ("tag", .leaf (.custom ⟨⟨"Tag", by decide⟩, [], 0⟩))]))]) ∧
    ((orders.treating .reject).run (.signature "int[]")).outcome =
      .ok (.sequence .array (.leaf (.scalar .int))) ∧
    ((orders.treating .asCustom).run (.signature "int[]")).outcome =
      .ok (.sequence .array (.leaf (.scalar .int))) ∧
    ((orders.treating .reject).run (.signature "a b")).outcome =
      .error (.badExpr (.invalidName "a b")) ∧
    ((orders.treating .asUnknown).run (.signature "a b")).outcome =
      .error (.badExpr (.invalidName "a b")) := by
  have hfirst :
      ((orders.treating .asUnknown).run (.signature "Order")).names.find?
        orders.isUnknown = some "Note" := by
    cbv
  have hunknown :
      ((orders.treating .asUnknown).run (.signature "Order")).outcome =
        .ok (.record [("note", .leaf (.scalar .int)),
          ("items", .sequence .array (.record [("count", .leaf (.scalar .int)),
            ("tag", .leaf (.unknown ⟨⟨"Tag", by decide⟩, [], 0⟩))]))]) := by
    cbv
  have harray : ((orders.treating .reject).run (.signature "int[]")).outcome =
      .ok (.sequence .array (.leaf (.scalar .int))) := by
    cbv
  have hbad : ((orders.treating .reject).run (.signature "a b")).outcome =
      .error (.badExpr (.invalidName "a b")) := by
    cbv
  have hother : ∀ name,
      ResolveFault.badExpr (.invalidName "a b") ≠ .unknownType name := by
    intro name hname
    cases hname
  obtain ⟨hcustom, -, -, hrejects⟩ := orders.run_treating (.signature "Order")
  refine ⟨(hrejects "Note").2 hfirst, ?_, harray, ?_, hbad, ?_⟩
  · rw [hcustom, hunknown]
    rfl
  · exact ((orders.run_treating (.signature "int[]")).2.1 _ harray).2.1
  · exact ((orders.run_treating (.signature "a b")).2.2.1 _ hbad hother).1

end Resolver

end TypeShape
