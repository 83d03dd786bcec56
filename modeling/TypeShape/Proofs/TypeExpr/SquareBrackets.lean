import Mathlib
import TypeShape.Proofs.TypeExpr.Skeleton

/-!
Square brackets counted.  In a text that closes all angle brackets it opens, no
pair of square brackets is counted for two dimensions.  The pairs that count are
those at the end of the text of an expression; but if there are any, others that
stand between the name and its list of parameters are taken off the name as
well, and are lost.  Nothing else is lost, so such a place shows in the text: an
angle bracket opens after a square bracket.
-/
namespace TypeShape

open Text

/-! ### Neighbours in a text -/

section Neighbours

variable {α : Type} {a b : α} {first second : List α}

/-- Two neighbours in a text stand both in one of its halves, or where the
halves meet. -/
theorem pair_isInfix_append_iff :
    [a, b] <:+: first ++ second ↔ [a, b] <:+: first ∨ [a, b] <:+: second ∨
      first.getLast? = some a ∧ second.head? = some b := by
  induction first with
  | nil => simp
  | cons c first ih =>
      rw [List.cons_append, List.infix_cons_iff, ih, List.infix_cons_iff]
      cases first with
      | nil => cases second <;> simp [or_comm, @eq_comm _ a, @eq_comm _ b]
      | cons d first => simp [or_assoc]

theorem pair_isInfix_cons_of_ne {c : α} (h : a ≠ c) :
    [a, b] <:+: c :: second ↔ [a, b] <:+: second := by
  simp [List.infix_cons_iff, h]

theorem pair_isInfix_append_of_not_mem_left (h : a ∉ first) :
    [a, b] <:+: first ++ second ↔ [a, b] <:+: second := by
  have hfirst : ¬ [a, b] <:+: first :=
    fun hmem => h (hmem.subset List.mem_cons_self)
  have hlast : first.getLast? ≠ some a :=
    fun hlast => h (List.mem_of_getLast? hlast)
  simp [pair_isInfix_append_iff, hfirst, hlast]

theorem pair_isInfix_append_of_not_mem_right (h : b ∉ second) :
    [a, b] <:+: first ++ second ↔ [a, b] <:+: first := by
  have hsecond : ¬ [a, b] <:+: second := fun hmem => h (hmem.subset (by simp))
  have hhead : second.head? ≠ some b := fun hhead => h (List.mem_of_head? hhead)
  simp [pair_isInfix_append_iff, hsecond, hhead]

end Neighbours

/-- What stands next to each other in joined pieces does so in one of them. -/
theorem pair_isInfix_joinPieces_iff {a b : Char} (ha : a ≠ ',') (hb : b ≠ ',')
    {first : List Char} {rest : List (List Char)} :
    [a, b] <:+: joinPieces first rest ↔
      ∃ piece ∈ first :: rest, [a, b] <:+: piece := by
  induction rest generalizing first with
  | nil => simp [joinPieces_nil]
  | cons second rest ih =>
      rw [joinPieces_cons, pair_isInfix_append_iff, pair_isInfix_cons_of_ne ha,
        ih]
      simp [hb.symm]

theorem count_joinPieces {c : Char} (hc : c ≠ ',') (first : List Char)
    (rest : List (List Char)) :
    (joinPieces first rest).count c =
      ((first :: rest).map (List.count c)).sum := by
  induction rest generalizing first with
  | nil => simp [joinPieces_nil]
  | cons second rest ih =>
      rw [joinPieces_cons, List.count_append, List.count_cons_of_ne hc.symm, ih]
      simp only [List.map_cons, List.sum_cons]

namespace TypeExpr

/-- The dimensions of an expression and of its parameters at all depths. -/
def totalDim (e : TypeExpr) : Nat :=
  (e.preorder.map TypeExpr.dim).sum

theorem totalDim_mk (name : TypeName) (params : List TypeExpr) (dim : Nat) :
    totalDim ⟨name, params, dim⟩ = dim + (params.map totalDim).sum := by
  rw [totalDim, preorder_mk, List.map_cons, List.sum_cons, List.flatMap_def,
    List.map_flatten, List.sum_flatten, List.map_map, List.map_map]
  rfl

theorem count_square_dimBrackets (dim : Nat) :
    (dimBrackets dim).count '[' = dim := by
  induction dim with
  | zero => rfl
  | succ dim ih => simp [dimBrackets, ih]

theorem getLast?_name_dims_iff (name : TypeName) (dim : Nat) :
    (name.chars ++ dimBrackets dim).getLast? = some ']' ↔ 0 < dim := by
  cases dim with
  | zero => simp [dimBrackets, getLast?_name_ne]
  | succ dim =>
      rw [dimBrackets_add, ← List.append_assoc]
      simp [dimBrackets]

/-- The text is read as the expression without counting a square bracket for two
dimensions, and all of them count just if no angle bracket opens after one. -/
structure DimsCounted (text : List Char) (e : TypeExpr) : Prop where
  le : e.totalDim ≤ text.count '['
  eq_iff : e.totalDim = text.count '[' ↔ ¬ [']', '<'] <:+: text

theorem DimsCounted.padded {before core after : List Char} {e : TypeExpr}
    (h : DimsCounted core e) (hbefore : ∀ c ∈ before, isBlank c = true)
    (hafter : ∀ c ∈ after, isBlank c = true) :
    DimsCounted (before ++ core ++ after) e := by
  have hcount : (before ++ core ++ after).count '[' = core.count '[' := by
    rw [List.count_append, List.count_append,
      List.count_eq_zero.2 (not_mem_blanks (by decide) hbefore),
      List.count_eq_zero.2 (not_mem_blanks (by decide) hafter)]
    omega
  have hpair : [']', '<'] <:+: before ++ core ++ after ↔
      [']', '<'] <:+: core := by
    rw [pair_isInfix_append_of_not_mem_right
      (not_mem_blanks (by decide) hafter),
      pair_isInfix_append_of_not_mem_left (not_mem_blanks (by decide) hbefore)]
  exact ⟨hcount ▸ h.le, by rw [hcount, hpair, h.eq_iff]⟩

theorem dimsCounted_bare (name : TypeName) (dim : Nat) :
    DimsCounted (name.chars ++ dimBrackets dim) ⟨name, [], dim⟩ := by
  have hcount : (name.chars ++ dimBrackets dim).count '[' =
      totalDim ⟨name, [], dim⟩ := by
    rw [List.count_append, count_name (by decide), count_square_dimBrackets,
      totalDim_mk]
    simp
  refine ⟨hcount.ge, ?_⟩
  rw [hcount]
  simp only [true_iff]
  intro hmem
  exact open_not_mem_name_dims name dim (hmem.subset (by simp))

/-- Pieces lose square brackets together just if one of them does. -/
theorem DimsCounted.sums {pieces : List (List Char)} {params : List TypeExpr}
    (h : List.Forall₂ DimsCounted pieces params) :
    (params.map totalDim).sum ≤ (pieces.map (List.count '[')).sum ∧
      ((params.map totalDim).sum = (pieces.map (List.count '[')).sum ↔
        ¬ ∃ piece ∈ pieces, [']', '<'] <:+: piece) := by
  induction h with
  | nil => simp
  | @cons piece param pieces params hpiece _ ih =>
      obtain ⟨hle, hiff⟩ := ih
      have hpiece_le := hpiece.le
      simp only [List.map_cons, List.sum_cons, List.exists_mem_cons_iff, not_or,
        ← hiff, ← hpiece.eq_iff]
      omega

theorem dimsCounted_listed {name : TypeName} {extra dim : Nat}
    {first : List Char} {rest : List (List Char)} {params : List TypeExpr}
    (h : List.Forall₂ DimsCounted (first :: rest) params) :
    DimsCounted (name.chars ++ dimBrackets extra ++
      '<' :: (joinPieces first rest ++ '>' :: dimBrackets dim))
      ⟨name, params, dim⟩ := by
  obtain ⟨hle, hiff⟩ := DimsCounted.sums h
  have hcount : (name.chars ++ dimBrackets extra ++
      '<' :: (joinPieces first rest ++ '>' :: dimBrackets dim)).count '[' =
        extra + (((first :: rest).map (List.count '[')).sum + dim) := by
    rw [List.count_append, List.count_append, count_name (by decide),
      count_square_dimBrackets, List.count_cons_of_ne (by decide),
      List.count_append, count_joinPieces (by decide),
      List.count_cons_of_ne (by decide), count_square_dimBrackets, Nat.zero_add]
  -- an angle bracket opens after a square bracket before the list or in one of
  -- its pieces
  have hpair : [']', '<'] <:+: name.chars ++ dimBrackets extra ++
      '<' :: (joinPieces first rest ++ '>' :: dimBrackets dim) ↔
        0 < extra ∨ ∃ piece ∈ first :: rest, [']', '<'] <:+: piece := by
    have hhead : ¬ [']', '<'] <:+: name.chars ++ dimBrackets extra :=
      fun hmem => open_not_mem_name_dims name extra (hmem.subset (by simp))
    have hclose : '<' ∉ '>' :: dimBrackets dim := by
      simp [not_mem_dimBrackets]
    have hlist : [']', '<'] <:+: '<' ::
        (joinPieces first rest ++ '>' :: dimBrackets dim) ↔
        ∃ piece ∈ first :: rest, [']', '<'] <:+: piece := by
      rw [pair_isInfix_cons_of_ne (by decide),
        pair_isInfix_append_of_not_mem_right hclose,
        pair_isInfix_joinPieces_iff (by decide) (by decide)]
    rw [pair_isInfix_append_iff, hlist, getLast?_name_dims_iff]
    simp [hhead, or_comm]
  constructor
  · rw [hcount, totalDim_mk]
    omega
  · rw [hcount, hpair, totalDim_mk, not_or, ← hiff]
    omega

/-- In a text that is read and closes all angle brackets it opens, square
brackets are counted once, or they stand where an angle bracket opens after them
and are lost. -/
theorem dimsCounted_of_read {text : List Char} {e : TypeExpr}
    (h : read text = .ok e) (hbalance : angleBalance text = 0) :
    DimsCounted text e := by
  have hrule : angleBalance text = 0 → DimsCounted text e := by
    refine read_rule ?padded ?bare ?listed h
    case padded =>
      intro before core after e hbefore hafter hcore hbalance
      rw [angleBalance_padded hbefore hafter] at hbalance
      exact (hcore hbalance).padded hbefore hafter
    case bare =>
      intro name dim _
      exact dimsCounted_bare name dim
    case listed =>
      intro name extra first rest tail params dim hread hpieces htail hbalance
      obtain ⟨rfl, hzero⟩ := closed_of_angleBalance hread htail hbalance
      have hcounted := (List.forall₂_and_left _ _).2 ⟨hzero, hpieces⟩
      exact dimsCounted_listed
        (hcounted.imp fun _ _ hpiece => hpiece.2 hpiece.1)
  exact hrule hbalance

/-- Square brackets are never counted twice in a signature with as many opening
as closing angle brackets, and all of them are counted as dimensions, just if no
angle bracket opens after a square bracket. -/
theorem totalDim_eq_count_square_iff (text : String) (e : TypeExpr)
    (h : ofSignature text = .ok e)
    (hcount : text.toList.count '<' = text.toList.count '>') :
    e.totalDim ≤ text.toList.count '[' ∧
    (e.totalDim = text.toList.count '[' ↔ ¬ [']', '<'] <:+: text.toList) := by
  have hbalance : angleBalance text.toList = 0 := by
    rw [angleBalance_eq_count, hcount]
    omega
  have hcounted := dimsCounted_of_read h hbalance
  exact ⟨hcounted.le, hcounted.eq_iff⟩

/-- Dimensions of parameters at all depths are counted once, also where white
space stands before a closing bracket. -/
theorem totalDim_eq_count_square_nested :
    let text := "Map<K[], Set<V>[][] >[]"
    let e : TypeExpr := ⟨⟨"Map", by decide⟩, [⟨⟨"K", by decide⟩, [], 1⟩,
      ⟨⟨"Set", by decide⟩, [⟨⟨"V", by decide⟩, [], 0⟩], 2⟩], 1⟩
    ofSignature text = .ok e ∧
    text.toList.count '<' = text.toList.count '>' ∧
    ¬ [']', '<'] <:+: text.toList ∧
    e.totalDim = 4 ∧ text.toList.count '[' = 4 := by
  intro text e
  have hread : ofSignature text = .ok e := by cbv
  have hcount : text.toList.count '<' = text.toList.count '>' := by decide
  have hsquare : text.toList.count '[' = 4 := by decide
  have hpair : ¬ [']', '<'] <:+: text.toList := by
    simp [text, List.infix_cons_iff]
  have htotal := (totalDim_eq_count_square_iff text e hread hcount).2.2 hpair
  exact ⟨hread, hcount, hpair, htotal.trans hsquare, hsquare⟩

/-- The dimension at the end lets the brackets before the list be taken off the
name, and only one pair of the two is counted.  Without a dimension at the end
such a text is refused. -/
theorem lost_square_before_list :
    let e : TypeExpr := ⟨⟨"A", by decide⟩, [⟨⟨"B", by decide⟩, [], 0⟩], 1⟩
    ofSignature "A[]<B>[]" = .ok e ∧
    "A[]<B>[]".toList.count '<' = "A[]<B>[]".toList.count '>' ∧
    e.totalDim ≠ "A[]<B>[]".toList.count '[' ∧
    ofSignature "A[]<B>" = .error (.invalidName "A[]") := by
  refine ⟨?_, by decide, by decide, ?_⟩
  · cbv
  · cbv

end TypeExpr

end TypeShape
