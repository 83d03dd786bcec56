import TypeShape.Shape

/-!
Shapes by their leaves.  A function of leaves acts on a shape at all depths and
leaves everything else as it is; so it does nothing to a shape if it does
nothing to any of the leaves.
-/
namespace TypeShape

namespace Shape

/-- Induction from the parts of a shape to the shape. -/
@[elab_as_elim, induction_eliminator]
theorem inductionOnParts {motive : Shape → Prop}
    (leaf : ∀ content, motive (.leaf content))
    (sequence : ∀ kind element,
      motive element → motive (.sequence kind element))
    (mapping : ∀ key value,
      motive key → motive value → motive (.mapping key value))
    (record : ∀ fields,
      (∀ field ∈ fields, motive field.2) → motive (.record fields))
    (shape : Shape) : motive shape := by
  match shape with
  | .leaf content => exact leaf content
  | .sequence kind element =>
      exact sequence kind element
        (inductionOnParts leaf sequence mapping record element)
  | .mapping key value =>
      exact mapping key value
        (inductionOnParts leaf sequence mapping record key)
        (inductionOnParts leaf sequence mapping record value)
  | .record fields =>
      exact record fields
        (fun field _ => inductionOnParts leaf sequence mapping record field.2)
termination_by sizeOf shape
decreasing_by
  · simp only [Shape.sequence.sizeOf_spec]
    omega
  · simp only [Shape.mapping.sizeOf_spec]
    omega
  · simp only [Shape.mapping.sizeOf_spec]
    omega
  · have hmem : field ∈ fields := by assumption
    have hfield := List.sizeOf_lt_of_mem hmem
    obtain ⟨name, part⟩ := field
    simp only [Prod.mk.sizeOf_spec] at hfield
    simp only [Shape.record.sizeOf_spec]
    omega

mutual

/-- The shape with a function applied to each of its leaves. -/
def mapLeaves (f : Leaf → Leaf) : Shape → Shape
  | leaf content => leaf (f content)
  | sequence kind element => sequence kind (element.mapLeaves f)
  | mapping key value => mapping (key.mapLeaves f) (value.mapLeaves f)
  | record fields => record (mapLeavesOfFields f fields)

def mapLeavesOfFields (f : Leaf → Leaf) :
    List (String × Shape) → List (String × Shape)
  | [] => []
  | (name, shape) :: rest =>
      (name, shape.mapLeaves f) :: mapLeavesOfFields f rest

end

theorem mapLeavesOfFields_eq_map (f : Leaf → Leaf)
    (fields : List (String × Shape)) :
    mapLeavesOfFields f fields =
      fields.map fun field => (field.1, field.2.mapLeaves f) := by
  induction fields with
  | nil => rfl
  | cons field rest ih => rw [mapLeavesOfFields, ih, List.map_cons]

theorem mapLeaves_eq_self {f : Leaf → Leaf} {shape : Shape}
    (h : ∀ content ∈ shape.leaves, f content = content) :
    shape.mapLeaves f = shape := by
  induction shape with
  | leaf content => rw [mapLeaves, h content List.mem_cons_self]
  | sequence kind element ih => rw [mapLeaves, ih h]
  | mapping key value ihkey ihvalue =>
      obtain ⟨hkey, hvalue⟩ := List.forall_mem_append.1 h
      rw [mapLeaves, ihkey hkey, ihvalue hvalue]
  | record fields ih =>
      rw [mapLeaves, mapLeavesOfFields_eq_map]
      have hsame : fields.map (fun field => (field.1, field.2.mapLeaves f)) =
          fields.map id := by
        apply List.map_congr_left
        intro field hfield
        have hleaves : ∀ content ∈ field.2.leaves, f content = content :=
          fun content hcontent =>
            h content (mem_leavesOfFields.2 ⟨field, hfield, hcontent⟩)
        rw [ih field hfield hleaves]
        rfl
      rw [hsame, List.map_id]

end Shape

end TypeShape
