import Mathlib.Data.List.TakeWhile
import TypeShape.TypeExpr
import TypeShape.TypeExpr.Outline

/-!
What an outline takes apart, and how it is put together again.  Each part of
an outline is characterised twice: the parts joined give the text, and a text
joined from parts of the right kind is cut into just these.
-/
namespace TypeShape

open TypeExpr Text

/-! ### White space at the ends -/

theorem exists_padding (text : List Char) :
    ∃ before after, (∀ c ∈ before, isBlank c = true) ∧
      (∀ c ∈ after, isBlank c = true) ∧
      text = before ++ trim text ++ after := by
  let start := trimStart text
  refine ⟨text.takeWhile isBlank, (start.reverse.takeWhile isBlank).reverse, ?_,
    ?_, ?_⟩
  · exact fun c hc => List.mem_takeWhile_imp hc
  · exact fun c hc => List.mem_takeWhile_imp (List.mem_reverse.1 hc)
  · have hend : trim text ++ (start.reverse.takeWhile isBlank).reverse =
        start := by
      rw [trim, trimEnd, ← List.reverse_append, List.takeWhile_append_dropWhile,
        List.reverse_reverse]
    rw [List.append_assoc, hend]
    exact List.takeWhile_append_dropWhile.symm

/-- Trimming takes off just the white space around a text that neither begins
nor ends with white space. -/
theorem trim_padded {before core after : List Char}
    (hbefore : ∀ c ∈ before, isBlank c = true)
    (hafter : ∀ c ∈ after, isBlank c = true)
    (hfirst : ∀ c ∈ core.head?, isBlank c = false)
    (hlast : ∀ c ∈ core.getLast?, isBlank c = false) (hcore : core ≠ []) :
    trim (before ++ core ++ after) = core := by
  have hstart : trimStart (before ++ core ++ after) = core ++ after := by
    rw [trimStart, List.append_assoc, List.dropWhile_append_of_pos hbefore]
    cases core with
    | nil => exact absurd rfl hcore
    | cons c rest => simp [hfirst c rfl]
  have hreverse : ∀ c ∈ after.reverse, isBlank c = true :=
    fun c hc => hafter c (List.mem_reverse.1 hc)
  rw [trim, hstart, trimEnd, List.reverse_append,
    List.dropWhile_append_of_pos hreverse]
  have hhead : core.reverse.dropWhile isBlank = core.reverse := by
    cases hrev : core.reverse with
    | nil => rfl
    | cons c rest =>
        have hc : isBlank c = false := hlast c (by
          rw [← List.head?_reverse, hrev]
          exact rfl)
        simp [hc]
  rw [hhead, List.reverse_reverse]

/-! ### The head -/

theorem cutAtAngle_of_not_mem {text : List Char} (h : '<' ∉ text) :
    cutAtAngle text = (text, none) := by
  induction text with
  | nil => rfl
  | cons c rest ih =>
      have hc : c ≠ '<' := fun heq => h (heq ▸ List.mem_cons_self)
      have hrest := ih (fun hmem => h (List.mem_cons_of_mem c hmem))
      simp [cutAtAngle, hc, hrest]

theorem cutAtAngle_append {head : List Char} (h : '<' ∉ head)
    (list : List Char) :
    cutAtAngle (head ++ '<' :: list) = (head, some list) := by
  induction head with
  | nil => simp [cutAtAngle]
  | cons c rest ih =>
      have hc : c ≠ '<' := fun heq => h (heq ▸ List.mem_cons_self)
      have hrest := ih (fun hmem => h (List.mem_cons_of_mem c hmem))
      simp [cutAtAngle, hc, hrest]

/-- A text either has no opening angle bracket or is cut at its first one. -/
theorem cutAtAngle_cases (text : List Char) :
    ('<' ∉ text ∧ cutAtAngle text = (text, none)) ∨
      ∃ head list, '<' ∉ head ∧ text = head ++ '<' :: list ∧
        cutAtAngle text = (head, some list) := by
  by_cases h : '<' ∈ text
  · obtain ⟨head, list, htext, hhead⟩ := List.eq_append_cons_of_mem h
    exact Or.inr
      ⟨head, list, hhead, htext, htext ▸ cutAtAngle_append hhead list⟩
  · exact Or.inl ⟨h, cutAtAngle_of_not_mem h⟩

/-! ### Dimensions -/

theorem dimBrackets_add (dim dim' : Nat) :
    dimBrackets (dim + dim') = dimBrackets dim ++ dimBrackets dim' := by
  induction dim with
  | zero => rw [Nat.zero_add]; rfl
  | succ dim ih =>
      rw [Nat.succ_add]
      simp only [dimBrackets, ih, List.cons_append]

theorem eq_bracket_of_mem_dimBrackets {dim : Nat} {c : Char}
    (hc : c ∈ dimBrackets dim) : c = '[' ∨ c = ']' := by
  induction dim with
  | zero => cases hc
  | succ dim ih =>
      simp only [dimBrackets, List.mem_cons] at hc
      rcases hc with rfl | rfl | hc
      · exact Or.inl rfl
      · exact Or.inr rfl
      · exact ih hc

theorem not_mem_dimBrackets {c : Char} (hopen : c ≠ '[') (hclose : c ≠ ']')
    (dim : Nat) : c ∉ dimBrackets dim := by
  intro hc
  exact (eq_bracket_of_mem_dimBrackets hc).elim hopen hclose

theorem angleWeight_of_mem_dimBrackets {dim : Nat} {c : Char}
    (hc : c ∈ dimBrackets dim) : angleWeight c = 0 := by
  rcases eq_bracket_of_mem_dimBrackets hc with rfl | rfl <;> rfl

theorem reverse_dimBrackets_succ (dim : Nat) :
    (dimBrackets (dim + 1)).reverse =
      ']' :: '[' :: (dimBrackets dim).reverse := by
  rw [dimBrackets_add, List.reverse_append]
  rfl

/-- What is dropped from a reversed text are the brackets of its dimensions. -/
theorem reverse_dims_append_dropReversedDims (text : List Char) :
    (dimBrackets (dropReversedDims text).2).reverse ++
      (dropReversedDims text).1 = text := by
  fun_induction dropReversedDims text with
  | case1 rest dropped ih =>
      change (dimBrackets (dropped.2 + 1)).reverse ++ dropped.1 = _
      rw [reverse_dimBrackets_succ, List.cons_append, List.cons_append, ih]
  | case2 => rfl

theorem dropReversedDims_of_head? {text : List Char}
    (h : text.head? ≠ some ']') : dropReversedDims text = (text, 0) := by
  unfold dropReversedDims
  split
  · exact absurd rfl h
  · rfl

theorem dropReversedDims_append {text : List Char} (h : text.head? ≠ some ']')
    (dim : Nat) :
    dropReversedDims ((dimBrackets dim).reverse ++ text) = (text, dim) := by
  induction dim with
  | zero => exact dropReversedDims_of_head? h
  | succ dim ih =>
      rw [reverse_dimBrackets_succ, List.cons_append, List.cons_append,
        dropReversedDims, ih]

/-- Every text is what is left of it without its dimensions, and these. -/
theorem dropTrailingDims_append (text : List Char) :
    dropTrailingDims text ++ dimBrackets (trailingDims text) = text := by
  have h :=
    congrArg List.reverse (reverse_dims_append_dropReversedDims text.reverse)
  simpa [dropTrailingDims, trailingDims] using h

section Dims

variable {text : List Char} (h : text.getLast? ≠ some ']') (dim : Nat)

include h

theorem dropReversedDims_reverse :
    dropReversedDims (text ++ dimBrackets dim).reverse =
      (text.reverse, dim) := by
  rw [List.reverse_append]
  exact dropReversedDims_append (by rwa [List.head?_reverse]) dim

theorem trailingDims_append : trailingDims (text ++ dimBrackets dim) = dim := by
  rw [trailingDims, dropReversedDims_reverse h]

theorem dropTrailingDims_append_dims :
    dropTrailingDims (text ++ dimBrackets dim) = text := by
  rw [dropTrailingDims, dropReversedDims_reverse h, List.reverse_reverse]

theorem dropTrailingDims_self : dropTrailingDims text = text := by
  simpa [dimBrackets] using dropTrailingDims_append_dims h 0

end Dims

/-! ### The closing bracket -/

/-- A list that is closed loses its closing bracket with the dimensions after
it, and one that is not closed stays as it is. -/
theorem dropClosingAngle_cases (list : List Char) :
    (∃ inner dim,
      list = inner ++ '>' :: dimBrackets dim ∧ dropClosingAngle list = inner) ∨
    dropClosingAngle list = list := by
  have hlist := dropTrailingDims_append list
  rw [dropTrailingDims] at hlist
  unfold dropClosingAngle
  split
  · next rest hrest =>
      refine Or.inl ⟨rest.reverse, trailingDims list, ?_, rfl⟩
      rw [hrest] at hlist
      simpa using hlist.symm
  · exact Or.inr rfl

theorem dropClosingAngle_append (inner : List Char) (dim : Nat) :
    dropClosingAngle (inner ++ '>' :: dimBrackets dim) = inner := by
  have hlast : (inner ++ ['>']).getLast? ≠ some ']' := by simp
  have hlist : inner ++ '>' :: dimBrackets dim =
      inner ++ ['>'] ++ dimBrackets dim := by
    simp
  rw [dropClosingAngle, hlist, dropReversedDims_reverse hlast]
  simp

/-! ### The pieces -/

/-- Pieces with a comma before each but the first. -/
def joinPieces (first : List Char) (rest : List (List Char)) : List Char :=
  first ++ rest.flatMap (',' :: ·)

theorem joinPieces_nil (piece : List Char) : joinPieces piece [] = piece := by
  simp [joinPieces]

theorem joinPieces_cons (first second : List Char) (rest : List (List Char)) :
    joinPieces first (second :: rest) =
      first ++ ',' :: joinPieces second rest := by
  simp [joinPieces]

section

variable {κ : Type} [Add κ] [OfNat κ 0] [DecidableEq κ] (weight : Char → κ)

theorem joinPieces_splitFrom (counter : κ) (list : List Char) :
    joinPieces (splitFrom weight counter list).1
      (splitFrom weight counter list).2 = list := by
  induction list generalizing counter with
  | nil => rfl
  | cons c rest ih =>
      unfold splitFrom
      split
      · next hcomma =>
          rw [hcomma.1]
          exact congrArg (',' :: ·) (ih counter)
      · exact congrArg (c :: ·) (ih _)

theorem exists_joinPieces_of_splitBy (list : List Char) :
    ∃ first rest, splitBy weight list = first :: rest ∧
      joinPieces first rest = list :=
  ⟨_, _, rfl, joinPieces_splitFrom weight 0 list⟩

end

/-- Whatever is counted, the pieces of a list join up to the list again. -/
theorem exists_joinPieces_of_splitParams (list : List Char) :
    ∃ first rest, splitParams list = first :: rest ∧
      joinPieces first rest = list := by
  unfold splitParams
  split
  · exact exists_joinPieces_of_splitBy counterWeight list
  · exact exists_joinPieces_of_splitBy angleWeight list

/-- From a point at which `openAngles` more angle brackets have been opened than
closed, the text is passed over without being split, and leaves as many open. -/
def PassedOver (openAngles : Int) (text : List Char) : Prop :=
  ∀ tail, splitFrom angleWeight openAngles (text ++ tail) =
    (text ++ (splitFrom angleWeight openAngles tail).1,
      (splitFrom angleWeight openAngles tail).2)

theorem PassedOver.append {openAngles : Int} {first second : List Char}
    (hfirst : PassedOver openAngles first)
    (hsecond : PassedOver openAngles second) :
    PassedOver openAngles (first ++ second) := by
  intro tail
  rw [List.append_assoc, hfirst, hsecond, List.append_assoc]

theorem passedOver_of_plain {openAngles : Int} {text : List Char}
    (hangle : ∀ c ∈ text, angleWeight c = 0)
    (hcomma : openAngles = 0 → ',' ∉ text) : PassedOver openAngles text := by
  intro tail
  induction text with
  | nil => rfl
  | cons c rest ih =>
      have hc : ¬ (c = ',' ∧ openAngles = 0) := by
        rintro ⟨rfl, hzero⟩
        exact hcomma hzero List.mem_cons_self
      have hrest := ih (fun d hd => hangle d (List.mem_cons_of_mem c hd))
        (fun hzero hmem => hcomma hzero (List.mem_cons_of_mem c hmem))
      rw [List.cons_append, splitFrom, if_neg hc, hangle c List.mem_cons_self,
        Int.add_zero, hrest]
      rfl

/-- A text in angle brackets is passed over if what is inside them is. -/
theorem passedOver_angled {openAngles : Int} {inner : List Char}
    (h : PassedOver (openAngles + 1) inner) :
    PassedOver openAngles ('<' :: inner ++ ['>']) := by
  intro tail
  have hopen : ¬ ('<' = ',' ∧ openAngles = 0) := by simp
  have hclose : ¬ ('>' = ',' ∧ openAngles + 1 = 0) := by simp
  have hback : openAngles + 1 + angleWeight '>' = openAngles :=
    Int.add_neg_cancel_right _ _
  have htext : '<' :: inner ++ ['>'] ++ tail =
      '<' :: (inner ++ '>' :: tail) := by
    simp
  have hweight : angleWeight '<' = 1 := rfl
  rw [htext, splitFrom, if_neg hopen, hweight, h, splitFrom, if_neg hclose,
    hback]
  simp

/-- Pieces that are passed over one by one are just what their joined text is
split into. -/
theorem splitBy_joinPieces {first : List Char} {rest : List (List Char)}
    (hfirst : PassedOver 0 first) (hrest : ∀ piece ∈ rest, PassedOver 0 piece) :
    splitBy angleWeight (joinPieces first rest) = first :: rest := by
  have hsplit : ∀ first, PassedOver 0 first →
      splitFrom angleWeight 0 (joinPieces first rest) = (first, rest) := by
    induction rest with
    | nil =>
        intro first hfirst
        have h := hfirst []
        simpa [joinPieces_nil, splitFrom] using h
    | cons second rest ih =>
        intro first hfirst
        have hsecond :=
          ih (fun piece hpiece => hrest piece (List.mem_cons_of_mem _ hpiece))
            second (hrest second List.mem_cons_self)
        rw [joinPieces_cons, hfirst, splitFrom, if_pos ⟨rfl, rfl⟩, hsecond]
        simp
  rw [splitBy, hsplit first hfirst]

/-- There is no comma in the text before its first angle bracket. -/
def OpensPlainly (text : List Char) : Prop :=
  ∀ before, before <+: text → (∀ c ∈ before, angleWeight c = 0) → ',' ∉ before

theorem opensPlainly_nil : OpensPlainly [] := by
  intro before hbefore _
  simp [List.prefix_nil.1 hbefore]

theorem OpensPlainly.cons {c : Char} {rest : List Char} (hcomma : c ≠ ',')
    (hrest : angleWeight c = 0 → OpensPlainly rest) :
    OpensPlainly (c :: rest) := by
  intro before hbefore hangle
  cases before with
  | nil => simp
  | cons d before =>
      obtain ⟨rfl, hprefix⟩ := List.cons_prefix_cons.1 hbefore
      have htail := hrest (hangle d List.mem_cons_self) before hprefix
        (fun e he => hangle e (List.mem_cons_of_mem d he))
      simp [hcomma.symm, htail]

section

variable {κ : Type} [Add κ] [OfNat κ 0] [DecidableEq κ] {weight : Char → κ}

/-- All pieces but the first begin where the count is zero, and the first one
does if the list does. -/
theorem opensPlainly_splitFrom
    (hweight : ∀ c, angleWeight c = 0 → 0 + weight c = 0) (counter : κ)
    (list : List Char) :
    (counter = 0 → OpensPlainly (splitFrom weight counter list).1) ∧
      ∀ piece ∈ (splitFrom weight counter list).2, OpensPlainly piece := by
  induction list generalizing counter with
  | nil => exact ⟨fun _ => opensPlainly_nil, by simp [splitFrom]⟩
  | cons c rest ih =>
      unfold splitFrom
      split
      · next hcomma =>
          obtain ⟨hfirst, hothers⟩ := ih counter
          refine ⟨fun _ => opensPlainly_nil, ?_⟩
          intro piece hpiece
          rcases List.mem_cons.1 hpiece with rfl | hpiece
          · exact hfirst hcomma.2
          · exact hothers piece hpiece
      · next hcomma =>
          refine ⟨?_, (ih _).2⟩
          intro hzero
          apply OpensPlainly.cons (fun hc => hcomma ⟨hc, hzero⟩)
          intro hplain
          exact (ih _).1 (by rw [hzero, hweight c hplain])

theorem opensPlainly_of_mem_splitBy
    (hweight : ∀ c, angleWeight c = 0 → 0 + weight c = 0)
    {list piece : List Char} (hpiece : piece ∈ splitBy weight list) :
    OpensPlainly piece := by
  obtain ⟨hfirst, hothers⟩ := opensPlainly_splitFrom hweight 0 list
  rcases List.mem_cons.1 hpiece with rfl | hrest
  · exact hfirst rfl
  · exact hothers piece hrest

end

theorem opensPlainly_of_mem_splitParams {list piece : List Char}
    (hpiece : piece ∈ splitParams list) : OpensPlainly piece := by
  unfold splitParams at hpiece
  split at hpiece
  · apply opensPlainly_of_mem_splitBy _ hpiece
    intro c hplain
    rw [counterWeight, hplain]
    rfl
  · apply opensPlainly_of_mem_splitBy _ hpiece
    intro c hplain
    rw [hplain]
    rfl

end TypeShape
