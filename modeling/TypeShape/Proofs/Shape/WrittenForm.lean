import TypeShape.Proofs.Shape.Leaves
import TypeShape.Proofs.Text.Literal
import TypeShape.Proofs.TypeExpr.UniqueReading
import TypeShape.Shape.Json

/-!
Written forms are uniquely readable.  An object begins with its kind as a
string, and what it is made of ends before what follows the object; so the
written form of a shape tells the shape, also inside that of another one.
-/
namespace TypeShape

/-! ### Lists -/

theorem flatten_intersperse_cons (first : List Char) (rest : List (List Char)) :
    ((first :: rest).intersperse [',']).flatten =
      first ++ rest.flatMap (',' :: ·) := by
  induction rest generalizing first with
  | nil => simp
  | cons second rest ih =>
      rw [List.intersperse_cons_cons, List.flatten_cons, List.flatten_cons, ih,
        List.flatMap_cons]
      rfl

section Separated

/-! Items that begin with a quote, with commas between them and something after
them that is not a comma or a quote. -/

variable {α : Type} {write : α → List Char}

/-- The item can be told from every other by what is written for it, also when
something follows. -/
def ReadsOff (write : α → List Char) (item : α) : Prop :=
  ∀ item' tail tail',
    write item ++ tail = write item' ++ tail' → item = item' ∧ tail = tail'

variable {close : Char} {tail tail' : List Char}

theorem separatedRest_append_inj {items items' : List α}
    (hreads : ∀ item ∈ items, ReadsOff write item) (hcomma : close ≠ ',')
    (h : (items.map write).flatMap (',' :: ·) ++ close :: tail =
      (items'.map write).flatMap (',' :: ·) ++ close :: tail') :
    items = items' ∧ tail = tail' := by
  induction items generalizing items' with
  | nil =>
      cases items' with
      | nil => exact ⟨rfl, (List.cons.inj h).2⟩
      | cons item' items' => exact absurd (List.cons.inj h).1 hcomma
  | cons item items ih =>
      cases items' with
      | nil => exact absurd (List.cons.inj h).1.symm hcomma
      | cons item' items' =>
          simp only [List.map_cons, List.flatMap_cons, List.cons_append,
            List.append_assoc, List.cons.injEq, true_and] at h
          obtain ⟨rfl, hrest⟩ := hreads item List.mem_cons_self item' _ _ h
          obtain ⟨rfl, htail⟩ := ih
            (fun other hother => hreads other (List.mem_cons_of_mem _ hother))
            hrest
          exact ⟨rfl, htail⟩

theorem separated_append_inj {items items' : List α}
    (hreads : ∀ item ∈ items, ReadsOff write item)
    (hquote : ∀ item, ∃ rest, write item = '"' :: rest)
    (hclose : close ≠ '"') (hcomma : close ≠ ',')
    (h : ((items.map write).intersperse [',']).flatten ++ close :: tail =
      ((items'.map write).intersperse [',']).flatten ++ close :: tail') :
    items = items' ∧ tail = tail' := by
  cases items with
  | nil =>
      cases items' with
      | nil => exact ⟨rfl, (List.cons.inj h).2⟩
      | cons item' items' =>
          obtain ⟨rest, hwritten⟩ := hquote item'
          rw [List.map_cons, flatten_intersperse_cons, hwritten] at h
          exact absurd (List.cons.inj h).1 hclose
  | cons item items =>
      cases items' with
      | nil =>
          obtain ⟨rest, hwritten⟩ := hquote item
          rw [List.map_cons, flatten_intersperse_cons, hwritten] at h
          exact absurd (List.cons.inj h).1.symm hclose
      | cons item' items' =>
          simp only [List.map_cons, flatten_intersperse_cons,
            List.append_assoc] at h
          obtain ⟨rfl, hrest⟩ := hreads item List.mem_cons_self item' _ _ h
          obtain ⟨rfl, htail⟩ := separatedRest_append_inj
            (fun other hother => hreads other (List.mem_cons_of_mem _ hother))
            hcomma hrest
          exact ⟨rfl, htail⟩

end Separated

theorem readsOff_literal (text : String) : ReadsOff Text.literal text :=
  fun _ _ _ h => Text.literal_append_inj h

theorem readsOff_writtenStrings (strings : List String) :
    ReadsOff writtenStrings strings := by
  intro strings' tail tail' h
  simp only [writtenStrings, Text.bracketed, List.cons_append,
    List.append_assoc, List.nil_append, List.cons.injEq, true_and] at h
  exact separated_append_inj (fun text _ => readsOff_literal text)
    (fun _ => ⟨_, rfl⟩) (by decide) (by decide) h

/-! ### Objects -/

theorem writtenAs_append {kind : String}
    (hplain : Text.literal kind = '"' :: kind.toList ++ ['"'])
    (content tail : List Char) :
    writtenAs kind content ++ tail = "\x7b\"kind\":".toList ++ (Text.literal
      kind ++ (",\"of\":".toList ++ (content ++ '}' :: tail))) := by
  have hbefore : "\x7b\"kind\":\"".toList =
      "\x7b\"kind\":".toList ++ ['"'] := by
    decide
  have hafter : "\",\"of\":".toList = '"' :: ",\"of\":".toList := by decide
  unfold writtenAs
  rw [hplain, hbefore, hafter]
  simp only [List.append_assoc, List.cons_append, List.nil_append]

/-- An object tells its kind, and where what it is made of begins. -/
theorem writtenAs_append_inj {kind kind' : String}
    {content content' tail tail' : List Char}
    (hplain : Text.literal kind = '"' :: kind.toList ++ ['"'])
    (hplain' : Text.literal kind' = '"' :: kind'.toList ++ ['"'])
    (h : writtenAs kind content ++ tail = writtenAs kind' content' ++ tail') :
    kind = kind' ∧ content ++ '}' :: tail = content' ++ '}' :: tail' := by
  rw [writtenAs_append hplain, writtenAs_append hplain'] at h
  obtain ⟨rfl, hrest⟩ := Text.literal_append_inj ((List.append_right_inj _).1 h)
  exact ⟨rfl, (List.append_right_inj _).1 hrest⟩

theorem Leaf.writtenContent_append_inj {content content' : Leaf}
    {tail tail' : List Char} (hkind : content.kindText = content'.kindText)
    (h : content.writtenContent ++ tail = content'.writtenContent ++ tail') :
    content = content' ∧ tail = tail' := by
  cases content with
  | scalar kind =>
      cases content' with
      | scalar kind' =>
          obtain ⟨htext, htail⟩ := Text.literal_append_inj h
          exact ⟨by rw [Scalar.text_injective htext], htail⟩
      | _ => simp [Leaf.kindText] at hkind
  | enumeration constants =>
      cases content' with
      | enumeration constants' =>
          obtain ⟨rfl, htail⟩ :=
            readsOff_writtenStrings constants constants' _ _ h
          exact ⟨rfl, htail⟩
      | _ => simp [Leaf.kindText] at hkind
  | custom type =>
      cases content' with
      | custom type' =>
          obtain ⟨htype, htail⟩ := Text.literal_append_inj h
          exact ⟨by rw [TypeExpr.signature_injective htype], htail⟩
      | _ => simp [Leaf.kindText] at hkind
  | unknown type =>
      cases content' with
      | unknown type' =>
          obtain ⟨htype, htail⟩ := Text.literal_append_inj h
          exact ⟨by rw [TypeExpr.signature_injective htype], htail⟩
      | _ => simp [Leaf.kindText] at hkind

namespace Shape

def writtenField (field : String × Shape) : List Char :=
  Text.literal field.1 ++ ':' :: field.2.written

theorem writtenRest_eq (fields : List (String × Shape)) :
    writtenRest fields = (fields.map writtenField).flatMap (',' :: ·) := by
  induction fields with
  | nil => rfl
  | cons field rest ih =>
      obtain ⟨name, shape⟩ := field
      simp [writtenRest, writtenField, ih]

theorem writtenFields_eq (fields : List (String × Shape)) :
    writtenFields fields =
      ((fields.map writtenField).intersperse [',']).flatten := by
  cases fields with
  | nil => rfl
  | cons field rest =>
      obtain ⟨name, shape⟩ := field
      rw [List.map_cons, flatten_intersperse_cons, ← writtenRest_eq]
      simp [writtenFields, writtenField]

/-- What a shape is made of, as it is written. -/
def writtenContent : Shape → List Char
  | leaf content => content.writtenContent
  | sequence _ element => element.written
  | mapping key value =>
      "\x7b\"key\":".toList ++ key.written ++ ",\"value\":".toList ++
        value.written ++ ['}']
  | record fields => '{' :: writtenFields fields ++ ['}']

theorem writtenContent_mapping (key value : Shape) (tail : List Char) :
    (mapping key value).writtenContent ++ tail =
      "\x7b\"key\":".toList ++ (key.written ++
        (",\"value\":".toList ++ (value.written ++ '}' :: tail))) := by
  unfold writtenContent
  simp only [List.append_assoc, List.cons_append, List.nil_append]

theorem written_eq (shape : Shape) :
    shape.written = writtenAs shape.kindText shape.writtenContent := by
  cases shape <;> rw [written] <;> rfl

theorem literal_kindText (shape : Shape) :
    Text.literal shape.kindText = '"' :: shape.kindText.toList ++ ['"'] := by
  cases shape with
  | leaf content =>
      cases content <;> (simp only [kindText, Leaf.kindText]; decide)
  | sequence kind element =>
      cases kind <;> (simp only [kindText, SequenceKind.text]; decide)
  | mapping key value => rw [kindText]; decide
  | record fields => rw [kindText]; decide

/-! Each kind is that of one constructor. -/

section Kinds

variable {shape : Shape}

theorem exists_leaf_of_kindText {content : Leaf}
    (h : content.kindText = shape.kindText) :
    ∃ content', shape = leaf content' := by
  cases shape with
  | leaf content' => exact ⟨content', rfl⟩
  | sequence kind element =>
      cases content <;> cases kind <;>
        simp [kindText, Leaf.kindText, SequenceKind.text] at h
  | mapping key value => cases content <;> simp [kindText, Leaf.kindText] at h
  | record fields => cases content <;> simp [kindText, Leaf.kindText] at h

theorem exists_sequence_of_kindText {kind : SequenceKind}
    (h : kind.text = shape.kindText) :
    ∃ element, shape = sequence kind element := by
  cases shape with
  | leaf content =>
      cases content <;> cases kind <;>
        simp [kindText, Leaf.kindText, SequenceKind.text] at h
  | sequence kind' element =>
      have hkind : kind = kind' := by
        cases kind <;> cases kind' <;> simp [kindText, SequenceKind.text] at h ⊢
      exact ⟨element, by rw [hkind]⟩
  | mapping key value => cases kind <;> simp [kindText, SequenceKind.text] at h
  | record fields => cases kind <;> simp [kindText, SequenceKind.text] at h

theorem exists_mapping_of_kindText (h : "map" = shape.kindText) :
    ∃ key value, shape = mapping key value := by
  cases shape with
  | leaf content => cases content <;> simp [kindText, Leaf.kindText] at h
  | sequence kind element =>
      cases kind <;> simp [kindText, SequenceKind.text] at h
  | mapping key value => exact ⟨key, value, rfl⟩
  | record fields => simp [kindText] at h

theorem exists_record_of_kindText (h : "complex" = shape.kindText) :
    ∃ fields, shape = record fields := by
  cases shape with
  | leaf content => cases content <;> simp [kindText, Leaf.kindText] at h
  | sequence kind element =>
      cases kind <;> simp [kindText, SequenceKind.text] at h
  | mapping key value => simp [kindText] at h
  | record fields => exact ⟨fields, rfl⟩

end Kinds

theorem readsOff_writtenField {field : String × Shape}
    (h : ReadsOff written field.2) : ReadsOff writtenField field := by
  obtain ⟨name, shape⟩ := field
  rintro ⟨name', shape'⟩ tail tail' hwritten
  simp only [writtenField, List.append_assoc, List.cons_append] at hwritten
  obtain ⟨rfl, hrest⟩ := Text.literal_append_inj hwritten
  obtain ⟨rfl, htail⟩ := h shape' tail tail' (List.cons.inj hrest).2
  exact ⟨rfl, htail⟩

theorem readsOff_writtenFields {fields fields' : List (String × Shape)}
    {tail tail' : List Char}
    (hreads : ∀ field ∈ fields, ReadsOff written field.2)
    (h : writtenFields fields ++ '}' :: tail =
      writtenFields fields' ++ '}' :: tail') :
    fields = fields' ∧ tail = tail' := by
  rw [writtenFields_eq, writtenFields_eq] at h
  exact separated_append_inj
    (fun field hfield => readsOff_writtenField (hreads field hfield))
    (fun _ => ⟨_, rfl⟩) (by decide) (by decide) h

theorem written_append_cases {a b : Shape} {tail tail' : List Char}
    (h : a.written ++ tail = b.written ++ tail') :
    a.kindText = b.kindText ∧
      a.writtenContent ++ '}' :: tail = b.writtenContent ++ '}' :: tail' := by
  rw [written_eq, written_eq] at h
  exact writtenAs_append_inj (literal_kindText a) (literal_kindText b) h

/-- Every shape can be told by its written form, whatever follows that. -/
theorem readsOff_written (shape : Shape) : ReadsOff written shape := by
  induction shape with
  | leaf content =>
      intro shape' tail tail' h
      obtain ⟨hkind, hcontent⟩ := written_append_cases h
      obtain ⟨content', rfl⟩ := exists_leaf_of_kindText hkind
      obtain ⟨rfl, htail⟩ := Leaf.writtenContent_append_inj hkind hcontent
      exact ⟨rfl, (List.cons.inj htail).2⟩
  | sequence kind element ih =>
      intro shape' tail tail' h
      obtain ⟨hkind, hcontent⟩ := written_append_cases h
      obtain ⟨element', rfl⟩ := exists_sequence_of_kindText hkind
      obtain ⟨rfl, htail⟩ := ih element' _ _ hcontent
      exact ⟨rfl, (List.cons.inj htail).2⟩
  | mapping key value ihkey ihvalue =>
      intro shape' tail tail' h
      obtain ⟨hkind, hcontent⟩ := written_append_cases h
      obtain ⟨key', value', rfl⟩ := exists_mapping_of_kindText hkind
      rw [writtenContent_mapping, writtenContent_mapping] at hcontent
      obtain ⟨rfl, hbetween⟩ :=
        ihkey key' _ _ ((List.append_right_inj _).1 hcontent)
      obtain ⟨rfl, htail⟩ :=
        ihvalue value' _ _ ((List.append_right_inj _).1 hbetween)
      exact ⟨rfl, (List.cons.inj (List.cons.inj htail).2).2⟩
  | record fields ih =>
      intro shape' tail tail' h
      obtain ⟨hkind, hcontent⟩ := written_append_cases h
      obtain ⟨fields', rfl⟩ := exists_record_of_kindText hkind
      unfold writtenContent at hcontent
      simp only [List.append_assoc, List.cons_append, List.nil_append,
        List.cons.injEq, true_and] at hcontent
      obtain ⟨rfl, htail⟩ := readsOff_writtenFields ih hcontent
      exact ⟨rfl, (List.cons.inj htail).2⟩

/-- Two shapes have the same written form just if they are the same, with the
fields of all records in the same order. -/
theorem json_eq_iff (a b : Shape) : a.json = b.json ↔ a = b := by
  constructor
  · intro h
    have hwritten : a.written = b.written := String.ofList_injective h
    exact (readsOff_written a b [] [] (by rw [hwritten])).1
  · rintro rfl
    rfl

end Shape

end TypeShape
