import TypeShape.Proofs.TypeExpr.Reading

/-!
Angle brackets counted.  Reading never takes a closing bracket for part of a
name, so a text that is read closes no more brackets than it opens, and neither
does any of its pieces.  If the whole text closes all that it opens, each piece
does.
-/
namespace TypeShape

open Text

/-- How many more angle brackets open than close in a text. -/
def angleBalance : List Char → Int
  | [] => 0
  | c :: rest => angleWeight c + angleBalance rest

theorem angleBalance_append (first second : List Char) :
    angleBalance (first ++ second) =
      angleBalance first + angleBalance second := by
  induction first with
  | nil => simp [angleBalance]
  | cons c rest ih =>
      simp only [List.cons_append, angleBalance, ih]
      omega

theorem angleBalance_of_plain {text : List Char}
    (h : ∀ c ∈ text, angleWeight c = 0) : angleBalance text = 0 := by
  induction text with
  | nil => rfl
  | cons c rest ih =>
      rw [angleBalance, h c List.mem_cons_self,
        ih (fun d hd => h d (List.mem_cons_of_mem c hd))]
      rfl

theorem angleBalance_eq_count (text : List Char) :
    angleBalance text = text.count '<' - text.count '>' := by
  induction text with
  | nil => rfl
  | cons c rest ih =>
      rw [angleBalance, ih, List.count_cons, List.count_cons, angleWeight]
      by_cases hopen : c = '<'
      · subst hopen
        simp
        omega
      · by_cases hclose : c = '>'
        · subst hclose
          simp
          omega
        · simp [hopen, hclose]

theorem angleBalance_joinPieces_cons (first second : List Char)
    (rest : List (List Char)) :
    angleBalance (joinPieces first (second :: rest)) =
      angleBalance first + angleBalance (joinPieces second rest) := by
  have hcomma : angleWeight ',' = 0 := rfl
  rw [joinPieces_cons, angleBalance_append, angleBalance, hcomma, Int.zero_add]

/-- If no piece closes more brackets than it opens, then neither does the whole;
and if the whole closes all that it opens, then so does each piece. -/
theorem angleBalance_joinPieces {first : List Char} {rest : List (List Char)}
    (h : ∀ piece ∈ first :: rest, 0 ≤ angleBalance piece) :
    0 ≤ angleBalance (joinPieces first rest) ∧
      (angleBalance (joinPieces first rest) ≤ 0 →
        ∀ piece ∈ first :: rest, angleBalance piece = 0) := by
  induction rest generalizing first with
  | nil =>
      have hfirst := h first List.mem_cons_self
      rw [joinPieces_nil]
      refine ⟨hfirst, ?_⟩
      intro hle piece hpiece
      have hsame : piece = first := by simpa using hpiece
      rw [hsame]
      omega
  | cons second rest ih =>
      have hfirst := h first List.mem_cons_self
      obtain ⟨hrest, hzero⟩ :=
        ih (fun piece hpiece => h piece (List.mem_cons_of_mem _ hpiece))
      rw [angleBalance_joinPieces_cons]
      refine ⟨by omega, ?_⟩
      intro hle piece hpiece
      rcases List.mem_cons.1 hpiece with rfl | hpiece
      · omega
      · exact hzero (by omega) piece hpiece

theorem angleBalance_joinPieces_of_level {first : List Char}
    {rest : List (List Char)}
    (h : ∀ piece ∈ first :: rest, angleBalance piece = 0) :
    angleBalance (joinPieces first rest) = 0 := by
  induction rest generalizing first with
  | nil =>
      rw [joinPieces_nil, h first List.mem_cons_self]
  | cons second rest ih =>
      have hrest :=
        ih (fun piece hpiece => h piece (List.mem_cons_of_mem _ hpiece))
      rw [angleBalance_joinPieces_cons, h first List.mem_cons_self, hrest]
      rfl

namespace TypeExpr

theorem angleBalance_padded {before core after : List Char}
    (hbefore : ∀ c ∈ before, isBlank c = true)
    (hafter : ∀ c ∈ after, isBlank c = true) :
    angleBalance (before ++ core ++ after) = angleBalance core := by
  have hstart :=
    angleBalance_of_plain (fun c hc => angleWeight_of_isBlank (hbefore c hc))
  have hend :=
    angleBalance_of_plain (fun c hc => angleWeight_of_isBlank (hafter c hc))
  rw [angleBalance_append, angleBalance_append, hstart, hend]
  omega

theorem angleBalance_trim (text : List Char) :
    angleBalance (trim text) = angleBalance text := by
  obtain ⟨before, after, hbefore, hafter, htext⟩ := exists_padding text
  conv_rhs => rw [htext]
  rw [angleBalance_padded hbefore hafter]

theorem angleBalance_name (name : TypeName) : angleBalance name.chars = 0 :=
  angleBalance_of_plain
    (fun _ hc => angleWeight_of_isNameChar (name.isNameChar_of_mem hc))

theorem angleBalance_dimBrackets (dim : Nat) :
    angleBalance (dimBrackets dim) = 0 :=
  angleBalance_of_plain (fun _ hc => angleWeight_of_mem_dimBrackets hc)

/-- The balance of a list with its head, before what may close it. -/
theorem angleBalance_open (name : TypeName) (extra : Nat)
    (inner tail : List Char) :
    angleBalance (name.chars ++ dimBrackets extra ++ '<' :: (inner ++ tail)) =
      1 + angleBalance inner + angleBalance tail := by
  have hopen : angleWeight '<' = 1 := rfl
  rw [angleBalance_append, angleBalance_append, angleBalance_name,
    angleBalance_dimBrackets, angleBalance, hopen, angleBalance_append]
  omega

theorem angleBalance_close (dim : Nat) :
    angleBalance ('>' :: dimBrackets dim) = -1 := by
  rw [angleBalance, angleBalance_dimBrackets]
  rfl

/-- A text that is read closes no more brackets than it opens. -/
theorem angleBalance_nonneg_of_read {text : List Char} {e : TypeExpr}
    (h : read text = .ok e) : 0 ≤ angleBalance text := by
  induction e generalizing text with
  | mk name params dim ih =>
      rw [← angleBalance_trim]
      rcases shape_of_read h with
        ⟨_, htext⟩ | ⟨extra, first, rest, tail, htext, hpieces, htail⟩
      · rw [htext, angleBalance_append, angleBalance_name,
          angleBalance_dimBrackets]
        decide
      · have hnonneg : ∀ piece ∈ first :: rest, 0 ≤ angleBalance piece := by
          intro piece hpiece
          obtain ⟨param, hparam, hread⟩ :=
            exists_related_of_mem hpieces.flip hpiece
          exact ih param hparam hread
        obtain ⟨hjoin, _⟩ := angleBalance_joinPieces hnonneg
        rw [htext, angleBalance_open]
        rcases htail with rfl | rfl
        · rw [angleBalance]
          omega
        · rw [angleBalance_close]
          omega

/-- If a name with a list closes all brackets that it opens, the list is closed,
and every piece of it closes what it opens. -/
theorem closed_of_angleBalance {name : TypeName} {extra dim : Nat}
    {first tail : List Char} {rest : List (List Char)} {params : List TypeExpr}
    (hpieces : List.Forall₂ (fun piece param => read piece = .ok param)
      (first :: rest) params)
    (htail : tail = [] ∨ tail = '>' :: dimBrackets dim)
    (hbalance : angleBalance (name.chars ++ dimBrackets extra ++
      '<' :: (joinPieces first rest ++ tail)) = 0) :
    tail = '>' :: dimBrackets dim ∧
    ∀ piece ∈ first :: rest, angleBalance piece = 0 := by
  have hnonneg : ∀ piece ∈ first :: rest, 0 ≤ angleBalance piece := by
    intro piece hpiece
    obtain ⟨param, _, hread⟩ := exists_related_of_mem hpieces.flip hpiece
    exact angleBalance_nonneg_of_read hread
  obtain ⟨hjoin, hzero⟩ := angleBalance_joinPieces hnonneg
  rw [angleBalance_open] at hbalance
  rcases htail with rfl | rfl
  · rw [angleBalance] at hbalance
    omega
  · rw [angleBalance_close] at hbalance
    exact ⟨rfl, hzero (by omega)⟩

end TypeExpr

end TypeShape
