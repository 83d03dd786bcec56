import Mathlib.Data.List.Nodup
import TypeShape.Proofs.Table.Entries
import TypeShape.Shape

/-!
Shapes that differ in the order of fields only.  To be alike is to have the same
fields up to their order, as long as no record has two fields of one name, which
is so for every shape whose records come from tables.
-/
namespace TypeShape

namespace Shape

/-- No record at any depth has two fields of one name. -/
inductive WellNamed : Shape → Prop
  | leaf (content : Leaf) : WellNamed (.leaf content)
  | sequence (kind : SequenceKind) {element : Shape}
      (helement : WellNamed element) : WellNamed (.sequence kind element)
  | mapping {key value : Shape} (hkey : WellNamed key)
      (hvalue : WellNamed value) : WellNamed (.mapping key value)
  | record {fields : List (String × Shape)} (hnames : (entryNames fields).Nodup)
      (hshapes : ∀ field ∈ fields, WellNamed field.2) :
      WellNamed (.record fields)

theorem alikeFields_iff {fields fields' : List (String × Shape)} :
    alikeFields fields fields' = true ↔
      ∀ field ∈ fields, ∃ shape', fields'.lookup field.1 = some shape' ∧
        field.2.alike shape' = true := by
  induction fields with
  | nil => simp [alikeFields]
  | cons field rest ih =>
      rw [List.forall_mem_cons, ← ih, alikeFields, Bool.and_eq_true]
      refine and_congr_left fun _ => ?_
      cases fields'.lookup field.1 with
      | none => simp
      | some shape' => simp

/-- Records with the same fields in another order are alike. -/
theorem alike_record_of_perm {fields fields' : List (String × Shape)}
    (hperm : fields.Perm fields') (hnames : (entryNames fields).Nodup)
    (hshapes : ∀ field ∈ fields, field.2.alike field.2 = true) :
    (record fields).alike (record fields') = true := by
  have hlength : (fields.length == fields'.length) = true :=
    beq_iff_eq.2 hperm.length_eq
  rw [alike, hlength, Bool.true_and, alikeFields_iff]
  intro field hfield
  have hfound : fields.lookup field.1 = some field.2 :=
    lookup_of_mem hnames hfield
  rw [lookup_eq_of_perm hperm hnames] at hfound
  exact ⟨field.2, hfound, hshapes field hfield⟩

theorem WellNamed.alike_self {shape : Shape} (h : shape.WellNamed) :
    shape.alike shape = true := by
  induction h with
  | leaf content => simp [alike]
  | sequence kind _ ih => simp [alike, ih]
  | mapping _ _ ihkey ihvalue => simp [alike, ihkey, ihvalue]
  -- a field is looked up by its name, so it has to be the only one of that name
  | record hnames _ ih =>
      exact alike_record_of_perm (List.Perm.refl _) hnames ih

end Shape

end TypeShape
