import TypeShape.Proofs.Outcome
import TypeShape.Proofs.TypeExpr.Outline
import TypeShape.Proofs.TypeExpr.UniqueReading
import TypeShape.TypeExpr.Reading

/-!
When a signature is read, part by part: a text reads as an expression if its
outline has the expression's name and dimensions and if its pieces read as the
parameters.  Whatever is read, only the name at the root can hold a comma.
-/
namespace TypeShape

open Text

theorem TypeName.ofText?_eq_some_iff {head : List Char} {name : TypeName} :
    TypeName.ofText? (String.ofList head) = some name ↔ head = name.chars := by
  unfold TypeName.ofText?
  constructor
  · intro h
    split at h
    · cases h
      simp [TypeName.chars]
    · cases h
  · rintro rfl
    have hvalid : isNameText (String.ofList name.chars).toList = true := by
      simpa [TypeName.chars] using name.valid
    rw [dif_pos hvalid]
    exact congrArg some (TypeName.eq_of_chars_eq (by simp [TypeName.chars]))

namespace TypeExpr

theorem ofOutline_eq_ok_iff {outline : Outline} {params : List TypeExpr}
    {e : TypeExpr} :
    ofOutline outline params = .ok e ↔ outline.head = e.name.chars ∧
      params = e.params ∧ outline.dim = e.dim := by
  rw [← TypeName.ofText?_eq_some_iff, ofOutline, ofText]
  split
  · next name hname =>
      obtain ⟨name', params', dim'⟩ := e
      simp [hname]
  · next hname => simp [hname]

/-- Without bindings every text is read by its outline. -/
theorem read_eq (text : List Char) :
    read text = (Outline.ofText (trim text)).params.mapM read >>= ofOutline
      (Outline.ofText (trim text)) := by
  rw [read, readUnless_eq]
  rfl

/-- A text reads as an expression just if its outline does, part by part. -/
theorem read_eq_ok_iff {text : List Char} {e : TypeExpr} :
    read text = .ok e ↔
      List.Forall₂ (fun piece param => read piece = .ok param)
          (Outline.ofText (trim text)).params e.params ∧
        (Outline.ofText (trim text)).head = e.name.chars ∧
        (Outline.ofText (trim text)).dim = e.dim := by
  rw [read_eq]
  simp only [Except.bind_eq_ok_iff, ofOutline_eq_ok_iff, Except.mapM_eq_ok_iff]
  constructor
  · rintro ⟨params, hparams, hhead, rfl, hdim⟩
    exact ⟨hparams, hhead, hdim⟩
  · rintro ⟨hparams, hhead, hdim⟩
    exact ⟨e.params, hparams, hhead, rfl, hdim⟩

/-! ### Commas -/

/-- No name below the root of the expression holds a comma. -/
def PlainBelow (e : TypeExpr) : Prop :=
  ∀ inner ∈ preorderAll e.params, ',' ∉ inner.name.chars

theorem mem_preorderAll_iff {inner : TypeExpr} {params : List TypeExpr} :
    inner ∈ preorderAll params ↔
      ∃ param ∈ params, inner = param ∨ inner ∈ preorderAll param.params := by
  induction params with
  | nil => simp [preorderAll]
  | cons first rest ih =>
      obtain ⟨name, params, dim⟩ := first
      simp [preorderAll, preorder, ih, or_assoc]

theorem plainBelow_iff {e : TypeExpr} :
    e.PlainBelow ↔
      ∀ param ∈ e.params, ',' ∉ param.name.chars ∧ param.PlainBelow := by
  constructor
  · intro h param hparam
    refine ⟨h param (mem_preorderAll_iff.2 ⟨param, hparam, Or.inl rfl⟩), ?_⟩
    intro inner hinner
    exact h inner (mem_preorderAll_iff.2 ⟨param, hparam, Or.inr hinner⟩)
  · intro h inner hinner
    obtain ⟨param, hparam, rfl | hinner⟩ := mem_preorderAll_iff.1 hinner
    · exact (h inner hparam).1
    · exact (h param hparam).2 inner hinner

end TypeExpr

/-- Characters of a kind that has no angle brackets in it do not open or close
anything. -/
theorem angleWeight_of_kind {kind : Char → Bool} {c : Char} (h : kind c = true)
    (hopen : kind '<' = false) (hclose : kind '>' = false) :
    angleWeight c = 0 := by
  have hneOpen : c ≠ '<' := by
    rintro rfl
    exact Bool.false_ne_true (hopen.symm.trans h)
  have hneClose : c ≠ '>' := by
    rintro rfl
    exact Bool.false_ne_true (hclose.symm.trans h)
  simp [angleWeight, hneOpen, hneClose]

theorem angleWeight_of_isNameChar {c : Char} (h : isNameChar c = true) :
    angleWeight c = 0 :=
  angleWeight_of_kind h (by decide) (by decide)

theorem angleWeight_of_isBlank {c : Char} (h : isBlank c = true) :
    angleWeight c = 0 :=
  angleWeight_of_kind h (by decide) (by decide)

/-- The head of an outline stands at the beginning of its text. -/
theorem Outline.head_isPrefix (text : List Char) :
    (Outline.ofText text).head <+: text := by
  have hcut : (cutAtAngle text).1 <+: text := by
    rcases cutAtAngle_cases text with ⟨_, hcut⟩ | ⟨head, list, _, htext, hcut⟩
    · simp only [hcut, List.prefix_refl]
    · rw [hcut, htext]
      exact List.prefix_append _ _
  have hdims : dropTrailingDims (cutAtAngle text).1 <+: (cutAtAngle text).1 :=
    ⟨_, dropTrailingDims_append _⟩
  simp only [Outline.ofText]
  split
  · exact hdims.trans hcut
  · exact hcut

theorem Outline.opensPlainly_of_mem_params {text piece : List Char}
    (h : piece ∈ (Outline.ofText text).params) : OpensPlainly piece := by
  simp only [Outline.ofText] at h
  split at h
  · simp at h
  · exact opensPlainly_of_mem_splitParams h

namespace TypeExpr

/-- The head of a text that opens plainly holds no comma. -/
theorem comma_not_mem_of_head {text : List Char} {name : TypeName}
    (hhead : (Outline.ofText (trim text)).head = name.chars)
    (hopens : OpensPlainly text) : ',' ∉ name.chars := by
  obtain ⟨before, after, hbefore, _, htext⟩ := exists_padding text
  have hname : name.chars <+: trim text :=
    hhead ▸ Outline.head_isPrefix (trim text)
  have hprefix : before ++ name.chars <+: text := by
    rw [htext, List.append_assoc, List.prefix_append_right_inj]
    exact hname.trans (List.prefix_append _ _)
  have hangle : ∀ c ∈ before ++ name.chars, angleWeight c = 0 := by
    intro c hc
    rcases List.mem_append.1 hc with hblank | hmem
    · exact angleWeight_of_isBlank (hbefore c hblank)
    · exact angleWeight_of_isNameChar (name.isNameChar_of_mem hmem)
  exact fun hmem => hopens _ hprefix hangle (List.mem_append_right _ hmem)

/-- What is read holds commas at most in the name at its root, and not even
there if the text is a piece of a list.  This needs of the answers that are
taken over that they hold no commas at all. -/
theorem plain_of_readUnless
    {answer? : List Char → Option (Except Fault TypeExpr)}
    (hanswer : ∀ trimmed e,
      answer? trimmed = some (.ok e) → ',' ∉ e.name.chars ∧ e.PlainBelow)
    {text : List Char} {e : TypeExpr} (h : readUnless answer? text = .ok e) :
    e.PlainBelow ∧ (OpensPlainly text → ',' ∉ e.name.chars) := by
  induction hlength : text.length using Nat.strongRecOn generalizing text e with
  | ind length ih =>
      rw [readUnless_eq] at h
      split at h
      · next answer htaken =>
          obtain ⟨hname, hbelow⟩ := hanswer _ e (h ▸ htaken)
          exact ⟨hbelow, fun _ => hname⟩
      · obtain ⟨params, hparams, houtline⟩ := Except.bind_eq_ok_iff.1 h
        obtain ⟨hhead, rfl, _⟩ := ofOutline_eq_ok_iff.1 houtline
        refine ⟨plainBelow_iff.2 ?_, comma_not_mem_of_head hhead⟩
        intro param hparam
        obtain ⟨piece, hpiece, hread⟩ :=
          exists_related_of_mem (Except.mapM_eq_ok_iff.1 hparams) hparam
        have hshorter := Outline.length_lt_of_mem_params hpiece
        have htrim := length_trim_le text
        obtain ⟨hbelow, hname⟩ := ih piece.length (by omega) hread rfl
        exact ⟨hname (Outline.opensPlainly_of_mem_params hpiece), hbelow⟩

/-- What is read holds commas at most in the name at its root. -/
theorem plainBelow_of_read {text : List Char} {e : TypeExpr}
    (h : read text = .ok e) : e.PlainBelow :=
  (plain_of_readUnless (fun _ _ hnone => by cases hnone) h).1

/-! ### The shape of what is read -/

/-- The head of an outline, put back before what was taken off it. -/
theorem exists_dims_of_head {head name : List Char} {dim : Nat}
    (h : (if 0 < dim then dropTrailingDims head else head) = name) :
    ∃ extra, head = name ++ dimBrackets extra := by
  split at h
  · exact ⟨trailingDims head, by rw [← h, dropTrailingDims_append]⟩
  · exact ⟨0, by rw [h]; simp [dimBrackets]⟩

/-- A text that is read is a name with its dimensions, or a name with a list of
pieces that are read and, if the list is closed, with its dimensions after it.
Before such a list there may be brackets that do not count. -/
theorem shape_of_read {text : List Char} {e : TypeExpr}
    (h : read text = .ok e) :
    (e.params = [] ∧ trim text = e.name.chars ++ dimBrackets e.dim) ∨
    ∃ extra first rest tail, trim text = e.name.chars ++ dimBrackets extra ++
      '<' :: (joinPieces first rest ++ tail) ∧
      List.Forall₂ (fun piece param => read piece = .ok param) (first :: rest)
        e.params ∧
      (tail = [] ∨ tail = '>' :: dimBrackets e.dim) := by
  obtain ⟨hpieces, hhead, hdim⟩ := read_eq_ok_iff.1 h
  simp only [Outline.ofText] at hpieces hhead hdim
  have hdims := dropTrailingDims_append (trim text)
  rcases cutAtAngle_cases (trim text) with
    ⟨_, hcut⟩ | ⟨head, list, _, htext, hcut⟩
  · simp only [hcut] at hpieces hhead
    refine Or.inl ⟨List.forall₂_nil_left_iff.1 hpieces, ?_⟩
    rw [← hdim, ← hhead]
    split
    · exact hdims.symm
    · next hzero => simp [Nat.eq_zero_of_not_pos hzero, dimBrackets]
  · simp only [hcut] at hpieces hhead
    obtain ⟨extra, hextra⟩ := exists_dims_of_head hhead
    obtain ⟨first, rest, hsplit, hjoin⟩ :=
      exists_joinPieces_of_splitParams (dropClosingAngle list)
    rw [hsplit] at hpieces
    refine Or.inr ⟨extra, first, rest, ?_⟩
    rw [hjoin]
    rcases dropClosingAngle_cases list with ⟨inner, dim, hlist, hinner⟩ | hopen
    · refine ⟨'>' :: dimBrackets dim, ?_, hpieces, Or.inr ?_⟩
      · rw [htext, hextra, hinner, hlist]
      · have hlast : (head ++ '<' :: inner ++ ['>']).getLast? ≠ some ']' := by
          rw [List.getLast?_concat]
          decide
        have hcount := trailingDims_append hlast dim
        have hwhole : head ++ '<' :: inner ++ ['>'] ++ dimBrackets dim =
            trim text := by
          rw [htext, hlist]
          simp
        rw [hwhole, hdim] at hcount
        rw [hcount]
    · exact ⟨[], by rw [htext, hextra, hopen, List.append_nil], hpieces,
        Or.inl rfl⟩

/-- Induction over the texts that are read and what they are read as.  It is
enough that white space around a text does not matter, and that names with
dimensions and names with lists are told from their parts, closed or not. -/
@[elab_as_elim]
theorem read_rule {motive : List Char → TypeExpr → Prop}
    (padded : ∀ before core after e,
      (∀ c ∈ before, isBlank c = true) → (∀ c ∈ after, isBlank c = true) →
      motive core e → motive (before ++ core ++ after) e)
    (bare : ∀ name dim, motive (name.chars ++ dimBrackets dim) ⟨name, [], dim⟩)
    (listed : ∀ name extra first rest tail params dim,
      List.Forall₂ (fun piece param => read piece = .ok param) (first :: rest)
        params → List.Forall₂ motive (first :: rest) params →
      (tail = [] ∨ tail = '>' :: dimBrackets dim) →
      motive (name.chars ++ dimBrackets extra ++
        '<' :: (joinPieces first rest ++ tail)) ⟨name, params, dim⟩)
    {text : List Char} {e : TypeExpr} (h : read text = .ok e) :
    motive text e := by
  induction e generalizing text with
  | mk name params dim ih =>
      obtain ⟨before, after, hbefore, hafter, htext⟩ := exists_padding text
      rw [htext]
      apply padded _ _ _ _ hbefore hafter
      rcases shape_of_read h with
        ⟨rfl, hcore⟩ | ⟨extra, first, rest, tail, hcore, hpieces, htail⟩
      · rw [hcore]
        exact bare name dim
      · rw [hcore]
        refine listed _ _ _ _ _ _ _ hpieces ?_ htail
        have hmembers := (List.forall₂_and_left _ _).2
          ⟨fun param hparam => hparam, hpieces.flip⟩
        refine (hmembers.imp ?_).flip
        rintro param piece ⟨hparam, hread⟩
        exact ih param hparam hread

end TypeExpr

end TypeShape
