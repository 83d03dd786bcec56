import Mathlib
import TypeShape.Proofs.Shape.Alike
import TypeShape.Proofs.Shape.Leaves

/-!
Shapes with the fields of every record sorted.  Two shapes are alike just if
nothing but the order of fields tells them apart, that is, if they are the same
shape once the fields are sorted by name in all records at all depths.  So to be
alike is an equivalence, and it does not see in which order the fields of a
record stand.  Every other order, that of constants and that of a key and its
value, and every kind is seen.
-/
namespace TypeShape

/-! ### Entries in the order of their names -/

section Sorting

variable {α : Type} {entries entries' : List (String × α)}

def sortEntries (entries : List (String × α)) : List (String × α) :=
  entries.mergeSort fun entry entry' => decide (entry.1 ≤ entry'.1)

theorem sortEntries_perm (entries : List (String × α)) :
    (sortEntries entries).Perm entries :=
  List.mergeSort_perm _ _

theorem pairwise_sortEntries (entries : List (String × α)) :
    (sortEntries entries).Pairwise fun entry entry' => entry.1 ≤ entry'.1 := by
  have htrans : ∀ a b c : String × α,
      decide (a.1 ≤ b.1) = true → decide (b.1 ≤ c.1) = true → decide (a.1 ≤ c.1)
          = true := by
    simp only [decide_eq_true_eq]
    exact fun a b c => le_trans
  have htotal : ∀ a b : String × α,
      (decide (a.1 ≤ b.1) || decide (b.1 ≤ a.1)) = true := by
    simp only [Bool.or_eq_true, decide_eq_true_eq]
    exact fun a b => le_total a.1 b.1
  exact (List.pairwise_mergeSort htrans htotal entries).imp of_decide_eq_true

/-- Where each name has one entry, the names fix the order of the sorted
entries. -/
theorem sortEntries_eq_iff_perm (hdistinct : (entryNames entries).Nodup) :
    sortEntries entries = sortEntries entries' ↔ entries.Perm entries' := by
  constructor
  · intro h
    exact (sortEntries_perm entries).symm.trans (h ▸ sortEntries_perm entries')
  · intro hperm
    have hmem : ∀ entry ∈ sortEntries entries', entry ∈ entries :=
      fun entry hentry =>
        hperm.mem_iff.2 ((sortEntries_perm entries').mem_iff.1 hentry)
    refine List.Perm.eq_of_pairwise ?_ (pairwise_sortEntries entries)
      (pairwise_sortEntries entries')
      (((sortEntries_perm entries).trans hperm).trans
        (sortEntries_perm entries').symm)
    -- two entries that may stand either way round have one name, and so are one
    -- entry
    rintro ⟨name, value⟩ ⟨name', value'⟩ hentry hentry' hle hle'
    obtain rfl : name = name' := le_antisymm hle hle'
    have hfound :=
      lookup_of_mem hdistinct ((sortEntries_perm entries).mem_iff.1 hentry)
    have hfound' := lookup_of_mem hdistinct (hmem _ hentry')
    rw [Option.some.inj (hfound.symm.trans hfound')]

end Sorting

namespace Shape

/-! ### Sorted fields -/

mutual

/-- The shape with the fields of every record, at all depths, sorted by name. -/
def sortFields : Shape → Shape
  | leaf content => leaf content
  | sequence kind element => sequence kind element.sortFields
  | mapping key value => mapping key.sortFields value.sortFields
  | record fields => record (sortEntries (sortBelow fields))

def sortBelow : List (String × Shape) → List (String × Shape)
  | [] => []
  | (name, shape) :: rest => (name, shape.sortFields) :: sortBelow rest

end

theorem sortBelow_eq_map (fields : List (String × Shape)) :
    sortBelow fields =
      fields.map fun field => (field.1, field.2.sortFields) := by
  induction fields with
  | nil => rfl
  | cons field rest ih => rw [sortBelow, ih, List.map_cons]

theorem entryNames_sortBelow (fields : List (String × Shape)) :
    entryNames (sortBelow fields) = entryNames fields := by
  rw [sortBelow_eq_map, entryNames, List.map_map]
  rfl

/-- Fields of different names are the same up to their order if there are as
many of them, and each has one of the same name that is the same. -/
theorem sortBelow_perm_iff {fields fields' : List (String × Shape)}
    (hnames : (entryNames fields).Nodup)
    (hnames' : (entryNames fields').Nodup) :
    (sortBelow fields).Perm (sortBelow fields') ↔
      fields.length = fields'.length ∧
      ∀ field ∈ fields, ∃ shape', fields'.lookup field.1 = some shape' ∧
        field.2.sortFields = shape'.sortFields := by
  have hmem (field : String × Shape) : (field.1, field.2.sortFields) ∈
      sortBelow fields' ↔ ∃ shape', fields'.lookup field.1 = some shape' ∧
        field.2.sortFields = shape'.sortFields := by
    rw [sortBelow_eq_map, List.mem_map]
    constructor
    · rintro ⟨⟨name, shape'⟩, hfield', hsame⟩
      obtain ⟨rfl, hshape⟩ := Prod.mk.inj hsame
      exact ⟨shape', lookup_of_mem hnames' hfield', hshape.symm⟩
    · rintro ⟨shape', hfound, hshape⟩
      exact ⟨(field.1, shape'), mem_of_lookup hfound, by rw [hshape]⟩
  have hlength (fields : List (String × Shape)) : (sortBelow fields).length =
      fields.length := by
    rw [sortBelow_eq_map, List.length_map]
  simp only [← hmem]
  constructor
  · intro hperm
    refine ⟨by simpa only [hlength] using hperm.length_eq,
      fun field hfield => ?_⟩
    apply hperm.mem_iff.1
    rw [sortBelow_eq_map]
    exact List.mem_map_of_mem hfield
  · rintro ⟨hsize, hall⟩
    have hdistinct : (sortBelow fields).Nodup := by
      apply List.Nodup.of_map Prod.fst
      rw [← entryNames, entryNames_sortBelow]
      exact hnames
    have hsubset : sortBelow fields ⊆ sortBelow fields' := by
      intro field hfield
      rw [sortBelow_eq_map fields] at hfield
      obtain ⟨original, horiginal, rfl⟩ := List.mem_map.1 hfield
      exact hall original horiginal
    apply (List.subperm_of_subset hdistinct hsubset).perm_of_length_le
    rw [hlength, hlength, hsize]

/-- To be alike is to be the same with sorted fields. -/
theorem alike_iff_sortFields_eq {a b : Shape} (ha : a.WellNamed)
    (hb : b.WellNamed) : a.alike b = true ↔ a.sortFields = b.sortFields := by
  induction ha generalizing b with
  | leaf content =>
      cases hb <;> simp [alike, sortFields]
  | sequence kind _ ih =>
      cases hb with
      | sequence kind' hb => simp [alike, sortFields, ih hb]
      | _ => simp [alike, sortFields]
  | mapping _ _ ihkey ihvalue =>
      cases hb with
      | mapping hkey hvalue =>
          simp [alike, sortFields, ihkey hkey, ihvalue hvalue]
      | _ => simp [alike, sortFields]
  | @record fields hnames _ ih =>
      cases hb with
      | @record fields' hnames' hshapes' =>
          have hsorted : (entryNames (sortBelow fields)).Nodup := by
            rwa [entryNames_sortBelow]
          rw [alike, Bool.and_eq_true, beq_iff_eq, alikeFields_iff, sortFields,
            sortFields, record.injEq, sortEntries_eq_iff_perm hsorted,
            sortBelow_perm_iff hnames hnames']
          refine and_congr_right fun _ => forall₂_congr fun field hfield =>
            exists_congr fun shape' => and_congr_right fun hfound => ?_
          exact ih field hfield (hshapes' _ (mem_of_lookup hfound))
      | _ => simp [alike, sortFields]

/-! ### Fields in another order -/

/-- The second shape is the first with the fields of one record, at any depth,
in another order. -/
inductive Reordered : Shape → Shape → Prop
  | here {fields fields' : List (String × Shape)}
      (hperm : fields.Perm fields') :
      Reordered (.record fields) (.record fields')
  | element (kind : SequenceKind) {a b : Shape} (h : Reordered a b) :
      Reordered (.sequence kind a) (.sequence kind b)
  | key {a b : Shape} (h : Reordered a b) (value : Shape) :
      Reordered (.mapping a value) (.mapping b value)
  | value (key : Shape) {a b : Shape} (h : Reordered a b) :
      Reordered (.mapping key a) (.mapping key b)
  | field (before : List (String × Shape)) (name : String) {a b : Shape}
      (h : Reordered a b) (after : List (String × Shape)) :
      Reordered (.record (before ++ (name, a) :: after))
        (.record (before ++ (name, b) :: after))

theorem Reordered.wellNamed {a b : Shape} (h : Reordered a b)
    (ha : a.WellNamed) : b.WellNamed := by
  induction h with
  | here hperm =>
      cases ha with
      | record hnames hshapes =>
          exact .record ((hperm.map Prod.fst).nodup_iff.1 hnames)
            fun field hfield => hshapes field (hperm.mem_iff.2 hfield)
  | element kind _ ih =>
      cases ha with
      | sequence _ helement => exact .sequence kind (ih helement)
  | key _ value ih =>
      cases ha with
      | mapping hkey hvalue => exact .mapping (ih hkey) hvalue
  | value key _ ih =>
      cases ha with
      | mapping hkey hvalue => exact .mapping hkey (ih hvalue)
  | field before name _ after ih =>
      cases ha with
      | record hnames hshapes =>
          refine .record (by simpa [entryNames] using hnames) ?_
          simp only [List.forall_mem_append, List.forall_mem_cons] at hshapes ⊢
          exact ⟨hshapes.1, ih hshapes.2.1, hshapes.2.2⟩

theorem Reordered.sortFields_eq {a b : Shape} (h : Reordered a b)
    (ha : a.WellNamed) : a.sortFields = b.sortFields := by
  induction h with
  | @here fields fields' hperm =>
      cases ha with
      | record hnames _ =>
          have hsorted : (entryNames (sortBelow fields)).Nodup := by
            rwa [entryNames_sortBelow]
          rw [sortFields, sortFields, (sortEntries_eq_iff_perm hsorted).2]
          rw [sortBelow_eq_map, sortBelow_eq_map]
          exact hperm.map _
  | element kind _ ih =>
      cases ha with
      | sequence _ helement => rw [sortFields, sortFields, ih helement]
  | key _ value ih =>
      cases ha with
      | mapping hkey _ => rw [sortFields, sortFields, ih hkey]
  | value key _ ih =>
      cases ha with
      | mapping _ hvalue => rw [sortFields, sortFields, ih hvalue]
  | @field before name a b _ after ih =>
      cases ha with
      | record _ hshapes =>
          have hfield : a.WellNamed := hshapes (name, a) (by simp)
          simp only [sortFields, sortBelow_eq_map, List.map_append,
            List.map_cons, ih hfield]

/-! ### What is seen -/

/-- To be alike is to be the same but for the order of fields.  So it is an
equivalence on shapes whose records have each name once, and to put the fields
of a record in another order, at any depth, changes neither what a shape is
alike to nor what is alike to it.  The order of constants, that of a key and its
value, and the kinds of leaves and of sequences are told apart. -/
theorem alike_upToFieldOrder :
    (∀ a b : Shape, a.WellNamed → b.WellNamed →
      (a.alike b = true ↔ a.sortFields = b.sortFields)) ∧
    Equivalence
      (fun a b : {shape : Shape // shape.WellNamed} => a.1.alike b.1 = true) ∧
    (∀ a b c : Shape, a.WellNamed → c.WellNamed → Reordered a b →
      a.alike b = true ∧ a.alike c = b.alike c ∧ c.alike a = c.alike b) ∧
    (∀ constants constants',
      (leaf (.enumeration constants)).alike
        (leaf (.enumeration constants')) = true ↔ constants = constants') ∧
    (∀ key value : Shape, key.WellNamed → value.WellNamed →
      ((mapping key value).alike (mapping value key) = true ↔
        key.alike value = true)) ∧
    (∀ type type',
      (leaf (.custom type)).alike (leaf (.unknown type')) = false) ∧
    ∀ a b : Shape,
      (sequence .array a).alike (sequence .collection b) = false := by
  refine ⟨fun a b ha hb => alike_iff_sortFields_eq ha hb, ⟨?_, ?_, ?_⟩, ?_, ?_,
    ?_, ?_, ?_⟩
  · intro a
    exact a.2.alike_self
  · intro a b hab
    rw [alike_iff_sortFields_eq a.2 b.2] at hab
    exact (alike_iff_sortFields_eq b.2 a.2).2 hab.symm
  · intro a b c hab hbc
    rw [alike_iff_sortFields_eq a.2 b.2] at hab
    rw [alike_iff_sortFields_eq b.2 c.2] at hbc
    exact (alike_iff_sortFields_eq a.2 c.2).2 (hab.trans hbc)
  · intro a b c ha hc hreordered
    have hb : b.WellNamed := hreordered.wellNamed ha
    have hsame : a.sortFields = b.sortFields := hreordered.sortFields_eq ha
    refine ⟨(alike_iff_sortFields_eq ha hb).2 hsame, ?_, ?_⟩
    · rw [Bool.eq_iff_iff, alike_iff_sortFields_eq ha hc,
        alike_iff_sortFields_eq hb hc, hsame]
    · rw [Bool.eq_iff_iff, alike_iff_sortFields_eq hc ha,
        alike_iff_sortFields_eq hc hb, hsame]
  · simp [alike]
  · intro key value hkey hvalue
    rw [alike_iff_sortFields_eq (.mapping hkey hvalue) (.mapping hvalue hkey),
      alike_iff_sortFields_eq hkey hvalue]
    simp only [sortFields, mapping.injEq]
    exact ⟨And.left, fun h => ⟨h, h.symm⟩⟩
  · simp [alike]
  · simp [alike]

/-- A point, with its coordinates in a given order, as the value of a table. -/
def tableOfPoints (fields : List (String × Shape)) : Shape :=
  .record [("rows", .leaf (.scalar .int)),
    ("cells", .mapping (.leaf (.scalar .string)) (.record fields))]

/-- The points of a table may list their coordinates either way round, but a
table with keys for values is another. -/
theorem alike_upToFieldOrder_points :
    let x : String × Shape := ("x", .leaf (.scalar .long))
    let y : String × Shape := ("y", .leaf (.enumeration ["UP", "DOWN"]))
    (tableOfPoints [x, y]).WellNamed ∧
    (tableOfPoints [x, y]).alike (tableOfPoints [y, x]) = true ∧
    (tableOfPoints [x, y]).sortFields = (tableOfPoints [y, x]).sortFields ∧
    (mapping (.leaf (.scalar .string)) (.record [x, y])).alike
      (mapping (.record [x, y]) (.leaf (.scalar .string))) = false := by
  intro x y
  have hleaf (kind : Scalar) : (leaf (.scalar kind)).WellNamed := .leaf _
  have hpoint : (record [x, y]).WellNamed := by
    refine .record (by decide) ?_
    simp only [List.forall_mem_cons]
    exact ⟨.leaf _, .leaf _, List.forall_mem_nil _⟩
  have htable : (tableOfPoints [x, y]).WellNamed := by
    refine .record (by decide) ?_
    simp only [List.forall_mem_cons]
    exact ⟨hleaf .int, .mapping (hleaf .string) hpoint, List.forall_mem_nil _⟩
  have hreordered : Reordered (tableOfPoints [x, y]) (tableOfPoints [y, x]) :=
    .field [("rows", .leaf (.scalar .int))] "cells"
      (.value _ (.here (List.Perm.swap y x []))) []
  obtain ⟨hsorted, -, hunaffected, -, hswapped, -⟩ := alike_upToFieldOrder
  have halike := (hunaffected _ _ _ htable htable hreordered).1
  refine ⟨htable, halike,
    (hsorted _ _ htable (hreordered.wellNamed htable)).1 halike, ?_⟩
  rw [Bool.eq_false_iff, Ne, hswapped _ _ (hleaf .string) hpoint]
  decide

end Shape

end TypeShape
