import Mathlib
import TypeShape.Proofs.Resolver.Consultation
import TypeShape.Proofs.Resolver.Invariant

/-!
Where leaves come from.  Every leaf of a shape is that of an expression which
the run came to, so a leaf that keeps an expression keeps one whose name is no
scalar's.  What the other leaves hold was answered to a question of the run:
with a provider who has forgotten all other answers the run is the same, and
that one answers nothing else.
-/
namespace TypeShape

/-- The provider who has forgotten which other names are scalars or enumerations
than those of some questions. -/
def Provider.remembering (provider : Provider) (questions : List Question) :
    Provider :=
  { provider with
    scalar name :=
      if .scalar name ∈ questions then provider.scalar name else none
    category name :=
      if .category name ∈ questions then provider.category name else .ok none }

theorem Provider.answersAlike_remembering (provider : Provider)
    {questions : List Question} {question : Question}
    (h : question ∈ questions) :
    provider.AnswersAlike (provider.remembering questions) question := by
  cases question with
  | scalar name => exact (if_pos h).symm
  | category name => exact (if_pos h).symm
  | typeVars | fields | methods => rfl

theorem Provider.scalar_remembering {provider : Provider}
    {questions : List Question} {name : String} {kind : Scalar}
    (h : (provider.remembering questions).scalar name = some kind) :
    .scalar name ∈ questions ∧ provider.scalar name = some kind := by
  by_cases hasked : .scalar name ∈ questions
  · exact ⟨hasked, (if_pos hasked).symm.trans h⟩
  · exact absurd ((if_neg hasked).symm.trans h) nofun

theorem Provider.category_remembering {provider : Provider}
    {questions : List Question} {name : String} {category : Category}
    (h : (provider.remembering questions).category name = .ok (some category)) :
    .category name ∈ questions ∧
    provider.category name = .ok (some category) := by
  by_cases hasked : .category name ∈ questions
  · exact ⟨hasked, (if_pos hasked).symm.trans h⟩
  · exact absurd (Except.ok.inj ((if_neg hasked).symm.trans h)) nofun

/-- The leaves of a record are those of its fields. -/
theorem fieldsAll_leaves_iff {kind : Leaf → Prop}
    {fields : List (String × Shape)} :
    FieldsAll (fun shape => ∀ content ∈ shape.leaves, kind content) fields ↔
      ∀ content ∈ (Shape.record fields).leaves, kind content := by
  constructor
  · intro h content hcontent
    obtain ⟨field, hfield, hmem⟩ := Shape.mem_leavesOfFields.1 hcontent
    exact h field hfield content hmem
  · intro h field hfield content hcontent
    exact h content (Shape.mem_leavesOfFields.2 ⟨field, hfield, hcontent⟩)

namespace Resolver

variable (resolver : Resolver)

/-- Every leaf is that of some expression. -/
theorem invariant_hasLeaf :
    resolver.Invariant anyTerms (fun _ _ _ => True) (fun _ shape =>
      ∀ content ∈ shape.leaves, ∃ expr, resolver.HasLeaf expr content) where
  liberal := liberal_anyTerms
  enter _ _ := trivial
  leave _ _ := trivial
  tooDeep _ := trivial
  cyclic _ _ _ := trivial
  part _ _ := trivial
  field _ _ _ := trivial
  leaf {_ _ expr _} _ hleaf := by
    intro content hcontent
    rw [List.mem_singleton.1 hcontent]
    exact ⟨expr, hleaf⟩
  sequence _ helement := helement
  mapping hkey hvalue := List.forall_mem_append.2 ⟨hkey, hvalue⟩
  record hfields := fieldsAll_leaves_iff.1 hfields

theorem exists_hasLeaf_of_run {request : Request} {shape : Shape}
    (h : (resolver.run request).outcome = .ok shape) {content : Leaf}
    (hcontent : content ∈ shape.leaves) :
    ∃ expr, resolver.HasLeaf expr content := by
  have hinv := resolver.invariant_hasLeaf
  cases request with
  | expr expr => exact (hinv.resolve trivial).value shape h content hcontent
  | signature text =>
      exact (hinv.resolveSignature fun _ _ => trivial).value shape h content
        hcontent
  | roots roots =>
      refine (hinv.resolveRoots (fun _ _ => trivial) ?_).value shape h content
        hcontent
      -- a root contributes its shape, or the fields of its record: the same
      -- leaves
      intro name shape hshape
      cases shape with
      | record fields => exact fieldsAll_leaves_iff.2 hshape
      | leaf | sequence | mapping =>
          intro field hfield
          rw [List.mem_singleton.1 hfield]
          exact hshape

/-- The run is the same if all but the answers to its questions is forgotten. -/
theorem run_remembering (request : Request) :
    (resolver.consulting
      (resolver.provider.remembering (resolver.run request).questions)
      resolver.registry).run request = resolver.run request := by
  refine (Run.sameButFor_eq_iff.1
    (resolver.run_replayedBy _ _ request ⟨?_, ?_⟩)).symm
  · exact fun question hquestion =>
      resolver.provider.answersAlike_remembering hquestion
  · exact fun _ _ _ => rfl

/-- A name that is no scalar's, not registered and not known to the provider. -/
structure MeetsUnknown (name : String) : Prop where
  scalar : resolver.provider.scalar name = none
  registry : resolver.registry.contains name = false
  category : resolver.provider.category name = .ok none

theorem Finds.meetsUnknown {resolver : Resolver} {expr : TypeExpr}
    (hfinds : resolver.Finds expr none) :
    resolver.MeetsUnknown expr.name.text :=
  ⟨hfinds.scalar, hfinds.registry, hfinds.category⟩

/-- A leaf is justified by the answers to some questions.  A scalar and the
constants of an enumeration are such an answer.  An expression that is kept is
no array and its name no scalar's; and it is kept because its name is
registered, or because that is unknown and the settings say so. -/
def Justifies (questions : List Question) : Leaf → Prop
  | .scalar kind =>
      ∃ name,
        .scalar name ∈ questions ∧ resolver.provider.scalar name = some kind
  | .enumeration constants => ∃ name, .category name ∈ questions ∧
      resolver.provider.category name = .ok (some (.enumeration constants)) ∧
      resolver.registry.contains name = false
  | .custom type =>
      type.dim = 0 ∧
      resolver.provider.scalar type.name.text = none ∧
      (resolver.registry.contains type.name.text = true ∨
        resolver.settings.unknown = .asCustom ∧
        resolver.MeetsUnknown type.name.text)
  | .unknown type => type.dim = 0 ∧ resolver.settings.unknown = .asUnknown ∧
      resolver.MeetsUnknown type.name.text

theorem justifies_of_mem_leaves {request : Request} {shape : Shape}
    (h : (resolver.run request).outcome = .ok shape) {content : Leaf}
    (hcontent : content ∈ shape.leaves) :
    resolver.Justifies (resolver.run request).questions content := by
  obtain ⟨expr, hleaf⟩ := resolver.exists_hasLeaf_of_run h hcontent
  -- what the leaf is that of with everything but the answers forgotten
  have hsame := resolver.run_remembering request
  rw [← hsame] at h
  obtain ⟨expr', hleaf'⟩ := exists_hasLeaf_of_run _ h hcontent
  cases hleaf with
  | scalar _ _ =>
      cases hleaf' with
      | scalar _ hscalar => exact ⟨_, Provider.scalar_remembering hscalar⟩
  | enumeration _ =>
      cases hleaf' with
      | enumeration hfinds =>
          obtain ⟨hasked, hcategory⟩ :=
            Provider.category_remembering hfinds.category
          exact ⟨_, hasked, hcategory, hfinds.registry⟩
  | registered helement hscalar hregistry =>
      exact ⟨TypeExpr.element?_eq_none_iff.1 helement, hscalar,
        Or.inl hregistry⟩
  | custom hfinds hpolicy =>
      exact ⟨TypeExpr.element?_eq_none_iff.1 hfinds.element?, hfinds.scalar,
        Or.inr ⟨hpolicy, hfinds.meetsUnknown⟩⟩
  | unknown hfinds hpolicy =>
      exact ⟨TypeExpr.element?_eq_none_iff.1 hfinds.element?, hpolicy,
        hfinds.meetsUnknown⟩

/-- Every leaf of a shape is justified by the answers that the run got.  So
where unknown names are rejected a shape has no unknown leaf, and all its custom
leaves are of registered names. -/
theorem run_leaves_justified {request : Request} {shape : Shape}
    (h : (resolver.run request).outcome = .ok shape) :
    (∀ content ∈ shape.leaves,
      resolver.Justifies (resolver.run request).questions content) ∧
    (resolver.settings.unknown = .reject →
      ∀ type, .unknown type ∉ shape.leaves ∧
        (.custom type ∈ shape.leaves →
          resolver.registry.contains type.name.text = true)) := by
  refine ⟨fun content hcontent => resolver.justifies_of_mem_leaves h hcontent,
    ?_⟩
  intro hreject type
  refine ⟨fun hunknown => ?_, fun hcustom => ?_⟩
  · obtain ⟨-, hpolicy, -⟩ := resolver.justifies_of_mem_leaves h hunknown
    rw [hreject] at hpolicy
    cases hpolicy
  · obtain ⟨-, -, hregistered | ⟨hpolicy, -⟩⟩ :=
      resolver.justifies_of_mem_leaves h hcustom
    · exact hregistered
    · rw [hreject] at hpolicy
      cases hpolicy

/-- A resolver for parcels, with labels that are kept as they are and with notes
of an unknown type. -/
def parcels (policy : UnknownPolicy) : Resolver where
  provider :=
    { category name := .ok (if name = "Parcel" then some .record else
        if name = "State" then some (.enumeration ["SENT", "LOST"]) else none)
      typeVars _ := .ok []
      fields _ := .ok
        [⟨"weight", "int"⟩, ⟨"states", "State[]"⟩, ⟨"label", "Label<int>"⟩,
         ⟨"note", "Note"⟩] }
  settings := { unknown := policy }
  registry := .ofList ["Label"]

/-- A parcel has leaves of all four kinds.  Where unknown names are rejected, an
array of labels still has a custom leaf, without the dimension of the array. -/
theorem run_leaves_justified_parcels :
    ((parcels .asUnknown).run (.signature "Parcel")).outcome =
      .ok (.record [("weight", .leaf (.scalar .int)),
        ("states", .sequence .array (.leaf (.enumeration ["SENT", "LOST"]))),
        ("label", .leaf
          (.custom ⟨⟨"Label", by decide⟩, [⟨⟨"int", by decide⟩, [], 0⟩], 0⟩)),
        ("note", .leaf (.unknown ⟨⟨"Note", by decide⟩, [], 0⟩))]) ∧
    (∀ content ∈ [.scalar .int, .enumeration ["SENT", "LOST"],
      .custom ⟨⟨"Label", by decide⟩, [⟨⟨"int", by decide⟩, [], 0⟩], 0⟩,
      .unknown ⟨⟨"Note", by decide⟩, [], 0⟩], (parcels .asUnknown).Justifies
        ((parcels .asUnknown).run (.signature "Parcel")).questions content) ∧
    ((parcels .reject).run (.signature "Label<int>[]")).outcome =
      .ok (.sequence .array (.leaf
        (.custom ⟨⟨"Label", by decide⟩, [⟨⟨"int", by decide⟩, [], 0⟩], 0⟩))) ∧
    (parcels .reject).registry.contains "Label" = true := by
  have hparcel : ((parcels .asUnknown).run (.signature "Parcel")).outcome =
      .ok (.record [("weight", .leaf (.scalar .int)),
        ("states", .sequence .array (.leaf (.enumeration ["SENT", "LOST"]))),
        ("label", .leaf
          (.custom ⟨⟨"Label", by decide⟩, [⟨⟨"int", by decide⟩, [], 0⟩], 0⟩)),
        ("note", .leaf (.unknown ⟨⟨"Note", by decide⟩, [], 0⟩))]) := by
    cbv
  have hlabels : ((parcels .reject).run (.signature "Label<int>[]")).outcome =
      .ok (.sequence .array (.leaf (.custom
        ⟨⟨"Label", by decide⟩, [⟨⟨"int", by decide⟩, [], 0⟩], 0⟩))) := by
    cbv
  have hregistered := ((parcels .reject).run_leaves_justified hlabels).2 rfl
    ⟨⟨"Label", by decide⟩, [⟨⟨"int", by decide⟩, [], 0⟩], 0⟩
  exact ⟨hparcel, ((parcels .asUnknown).run_leaves_justified hparcel).1,
    hlabels, hregistered.2 List.mem_cons_self⟩

end Resolver

end TypeShape
