import Mathlib
import TypeShape.Document.Token

/-!
Where a token ends.  A token that is read with something left of the text is
read the same if more is appended to the text, for what is left shows that it
has ended.  So up to a closing bracket the tokens of a text do not depend on
what follows it.
-/
namespace TypeShape

namespace Token

variable {text rest : List Char}

/-! ### Strings and numerals -/

theorem stringParts?_append {parts : List StringPart}
    (h : stringParts? text = some (parts, rest)) (more : List Char) :
    stringParts? (text ++ more) = some (parts, rest ++ more) := by
  fun_induction stringParts? text generalizing parts with
  | case1 => cases h
  | case2 r =>
      obtain ⟨rfl, rfl⟩ := Prod.mk.inj (Option.some.inj h)
      simp [stringParts?]
  | case3 a b c d r ih =>
      simp only [Option.bind_eq_bind, Option.bind_eq_some_iff] at h
      obtain ⟨code, hcode, ⟨parts', rest'⟩, hparts, hrest⟩ := h
      obtain ⟨rfl, rfl⟩ := Prod.mk.inj (Option.some.inj hrest)
      simp [stringParts?, hcode, ih hparts]
  | case4 escape r hunit ih =>
      simp only [Option.bind_eq_bind, Option.bind_eq_some_iff] at h
      obtain ⟨c, hc, ⟨parts', rest'⟩, hparts, hrest⟩ := h
      obtain ⟨rfl, rfl⟩ := Prod.mk.inj (Option.some.inj hrest)
      have hletter : escape ≠ 'u' := by
        rintro rfl
        cases hc
      simp [stringParts?, hletter, hc, ih hparts]
  | case5 => cases h
  | case6 c r hquote _ _ hplain ih =>
      simp only [Option.bind_eq_bind, Option.bind_eq_some_iff] at h
      obtain ⟨⟨parts', rest'⟩, hparts, hrest⟩ := h
      obtain ⟨rfl, rfl⟩ := Prod.mk.inj (Option.some.inj hrest)
      rw [not_or] at hplain
      simp [stringParts?, hplain, ih hparts]

theorem digits_append (h : (digits text).2 ≠ []) (more : List Char) :
    digits (text ++ more) = ((digits text).1, (digits text).2 ++ more) := by
  have hlength : (text.takeWhile Char.isDigit).length ≠ text.length := by
    intro hall
    have hsplit :
        (text.takeWhile Char.isDigit ++ text.dropWhile Char.isDigit).length =
          text.length := by
      rw [List.takeWhile_append_dropWhile]
    rw [List.length_append, hall] at hsplit
    have hnil : text.dropWhile Char.isDigit = [] :=
      List.length_eq_zero_iff.1 (by omega)
    exact h hnil
  have hrest : (text.dropWhile Char.isDigit).isEmpty = false :=
    List.isEmpty_eq_false_iff.2 h
  simp only [digits, List.takeWhile_append, hlength, if_false,
    List.dropWhile_append, hrest, Bool.false_eq_true]

theorem digits?_append {values : List Nat}
    (h : digits? text = some (values, rest)) (hrest : rest ≠ [])
    (more : List Char) :
    digits? (text ++ more) = some (values, rest ++ more) := by
  unfold digits? at h ⊢
  split at h
  · cases h
  · next hvalues =>
      have hdigits : digits text = (values, rest) := Option.some.inj h
      rw [hdigits] at hvalues
      rw [digits_append (by rwa [hdigits]), hdigits, if_neg hvalues]

theorem wholeDigits?_append {values : List Nat}
    (h : wholeDigits? text = some (values, rest)) (hrest : rest ≠ [])
    (more : List Char) :
    wholeDigits? (text ++ more) = some (values, rest ++ more) := by
  have hdigits : digits text = (values, rest) := by
    unfold wholeDigits? at h
    split at h
    · cases h
    · cases h
    · exact Option.some.inj h
  unfold wholeDigits? at h ⊢
  rw [digits_append (by rwa [hdigits]), hdigits]
  rw [hdigits] at h
  -- which digits are refused does not depend on what follows them
  match values, h with
  | [], h => cases h
  | 0 :: _ :: _, h => cases h
  | [0], _ => rfl
  | (n + 1) :: _, _ => rfl

theorem fractionDigits?_append {fraction : Option (List Nat)}
    (h : fractionDigits? text = some (fraction, rest)) (hrest : rest ≠ [])
    (more : List Char) :
    fractionDigits? (text ++ more) = some (fraction, rest ++ more) := by
  unfold fractionDigits? at h
  split at h
  · next digitsText =>
      obtain ⟨⟨values, rest'⟩, hdigits, hread⟩ := Option.map_eq_some_iff.1 h
      cases hread
      simp only [List.cons_append, fractionDigits?,
        digits?_append hdigits hrest more, Option.map_some]
  · next hpoint =>
      cases h
      obtain ⟨c, tail, rfl⟩ := List.exists_cons_of_ne_nil hrest
      have hc : c ≠ '.' := fun hc => hpoint tail (by rw [hc])
      simp [fractionDigits?, hc]

theorem signedPower?_append {power : Int}
    (h : signedPower? text = some (power, rest)) (hrest : rest ≠ [])
    (more : List Char) :
    signedPower? (text ++ more) = some (power, rest ++ more) := by
  unfold signedPower? at h
  split at h <;>
    obtain ⟨⟨values, rest'⟩, hdigits, hread⟩ := Option.map_eq_some_iff.1 h <;>
    cases hread
  · simp only [List.cons_append, signedPower?,
      digits?_append hdigits hrest more, Option.map_some]
  · simp only [List.cons_append, signedPower?,
      digits?_append hdigits hrest more, Option.map_some]
  · next hminus hplus =>
      have htext : text ≠ [] := by
        rintro rfl
        cases hdigits
      obtain ⟨c, tail, rfl⟩ := List.exists_cons_of_ne_nil htext
      have hc : c ≠ '-' := fun hc => hminus tail (by rw [hc])
      have hc' : c ≠ '+' := fun hc => hplus tail (by rw [hc])
      have hmore := digits?_append hdigits hrest more
      rw [List.cons_append] at hmore ⊢
      simp [signedPower?, hc, hc', hmore]

theorem power?_append {power : Option Int}
    (h : power? text = some (power, rest)) (hrest : rest ≠ [])
    (more : List Char) :
    power? (text ++ more) = some (power, rest ++ more) := by
  unfold power? at h
  split at h
  · cases h
    exact absurd rfl hrest
  · next c tail =>
      rw [List.cons_append, power?]
      split at h
      · next hletter =>
          obtain ⟨⟨value, rest'⟩, hpower, hread⟩ := Option.map_eq_some_iff.1 h
          cases hread
          rw [if_pos hletter, signedPower?_append hpower hrest more,
            Option.map_some]
      · next hletter =>
          cases h
          rw [if_neg hletter, List.cons_append]

theorem ne_nil_of_length_le {text rest : List Char}
    (hle : rest.length ≤ text.length) (hrest : rest ≠ []) : text ≠ [] :=
  List.length_pos_iff.1 (Nat.lt_of_lt_of_le (List.length_pos_iff.2 hrest) hle)

theorem numeral?_append {negative : Bool} {numeral : Numeral}
    (h : numeral? negative text = some (numeral, rest)) (hrest : rest ≠ [])
    (more : List Char) :
    numeral? negative (text ++ more) = some (numeral, rest ++ more) := by
  simp only [numeral?, Option.bind_eq_bind, Option.bind_eq_some_iff] at h
  obtain ⟨⟨whole, rest₁⟩, hwhole, ⟨fraction, rest₂⟩, hfraction, ⟨power, rest₃⟩,
    hpower, hread⟩ := h
  cases hread
  have hrest₂ : rest₂ ≠ [] :=
    ne_nil_of_length_le (length_of_power? hpower) hrest
  have hrest₁ : rest₁ ≠ [] :=
    ne_nil_of_length_le (length_of_fractionDigits? hfraction) hrest₂
  simp [numeral?, wholeDigits?_append hwhole hrest₁ more,
    fractionDigits?_append hfraction hrest₂ more,
    power?_append hpower hrest more]

/-! ### Tokens -/

def isClosing : Token → Bool
  | closeList | closeObject => true
  | _ => false

/-- Only a numeral starts with a digit. -/
theorem first_of_digit {c : Char} (hc : c.isDigit = true) (text : List Char) :
    first (c :: text) = orBad .number (numeral? false (c :: text)) := by
  have hne {d : Char} (hd : d.isDigit = false) : c ≠ d := by
    rintro rfl
    rw [hc] at hd
    cases hd
  unfold first
  split
  case h_12 => rfl
  all_goals next heq => exact absurd (List.cons.inj heq).1 (hne (by decide))

/-- Where a numeral is read, the text starts with a digit. -/
theorem exists_digit_of_numeral? {negative : Bool} {numeral : Numeral}
    (h : numeral? negative text = some (numeral, rest)) :
    ∃ c tail, text = c :: tail ∧ c.isDigit = true := by
  simp only [numeral?, Option.bind_eq_bind, Option.bind_eq_some_iff] at h
  obtain ⟨⟨whole, rest₁⟩, hwhole, -⟩ := h
  cases text with
  | nil => cases hwhole
  | cons c tail =>
      refine ⟨c, tail, rfl, ?_⟩
      by_contra hc
      simp [wholeDigits?, digits, hc] at hwhole

/-- A token is the same whatever is appended to the text, if it is a closing
bracket or if something of the text is left. -/
theorem first_append (h : (first text).2 ≠ [] ∨ (first text).1.isClosing = true)
    (more : List Char) :
    first (text ++ more) = ((first text).1, (first text).2 ++ more) := by
  have hleft {α : Type} {token : α → Token} {result : Option (α × List Char)}
      (htoken : ∀ value, (token value).isClosing = false)
      (h : (orBad token result).2 ≠ [] ∨
        (orBad token result).1.isClosing = true) :
      ∃ value rest, result = some (value, rest) ∧ rest ≠ [] := by
    match result, h with
    | none, h => exact absurd rfl (h.resolve_right Bool.false_ne_true)
    | some (value, rest), h =>
      exact ⟨value, rest, rfl, h.resolve_right (by simp [orBad, htoken])⟩
  revert h
  fun_cases first text with
  | case10 tail =>
      intro h
      obtain ⟨parts, rest, hparts, -⟩ := hleft (fun _ => rfl) h
      rw [List.cons_append, first, hparts, stringParts?_append hparts more]
      rfl
  | case11 tail =>
      intro h
      obtain ⟨numeral, rest, hnumeral, hrest⟩ := hleft (fun _ => rfl) h
      rw [List.cons_append, first, hnumeral,
        numeral?_append hnumeral hrest more]
      rfl
  | case12 =>
      intro h
      obtain ⟨numeral, rest, hnumeral, hrest⟩ := hleft (fun _ => rfl) h
      obtain ⟨c, tail, rfl, hc⟩ := exists_digit_of_numeral? hnumeral
      have hmore := numeral?_append hnumeral hrest more
      rw [List.cons_append] at hmore ⊢
      rw [first_of_digit hc, hnumeral, hmore]
      rfl
  | _ => exact fun _ => rfl

/-! ### All tokens -/

theorem scan_of_blank (h : text.dropWhile isSpace = []) : scan text = [] := by
  rw [scan]
  split
  · rfl
  · next hcons =>
      rw [h] at hcons
      cases hcons

theorem scan_of_token {c : Char} {tail : List Char}
    (h : text.dropWhile isSpace = c :: tail) :
    scan text = (first (c :: tail)).1 :: scan (first (c :: tail)).2 := by
  rw [scan]
  split
  · next hnil =>
      rw [h] at hnil
      cases hnil
  · next hcons =>
      rw [h] at hcons
      cases hcons
      rfl

theorem scan_append_of_token {c : Char} {tail : List Char}
    (htrimmed : text.dropWhile isSpace = c :: tail)
    (h : (first (c :: tail)).2 ≠ [] ∨ (first (c :: tail)).1.isClosing = true)
    (more : List Char) :
    scan (text ++ more) =
      (first (c :: tail)).1 :: scan ((first (c :: tail)).2 ++ more) := by
  have hmore : (text ++ more).dropWhile isSpace = c :: (tail ++ more) := by
    rw [List.dropWhile_append, htrimmed]
    rfl
  rw [scan_of_token hmore, ← List.cons_append, first_append h]

/-- The tokens of a text up to a closing bracket are the same whatever is
appended. -/
theorem scan_append {before after : List Token} {token : Token}
    (h : scan text = before ++ token :: after)
    (hclosing : token.isClosing = true) (more : List Char) :
    ∃ after', scan (text ++ more) = before ++ token :: after' := by
  induction before generalizing text with
  | nil =>
      match htrimmed : text.dropWhile isSpace with
      | [] =>
        rw [scan_of_blank htrimmed] at h
        cases h
      | c :: tail =>
        rw [scan_of_token htrimmed] at h
        obtain ⟨htoken, -⟩ := List.cons.inj h
        rw [scan_append_of_token htrimmed (Or.inr (htoken ▸ hclosing)), htoken]
        exact ⟨_, rfl⟩
  | cons earlier before ih =>
      match htrimmed : text.dropWhile isSpace with
      | [] =>
        rw [scan_of_blank htrimmed] at h
        cases h
      | c :: tail =>
        rw [scan_of_token htrimmed] at h
        obtain ⟨hearlier, hrest⟩ := List.cons.inj h
        -- more tokens follow, so something is left of the text
        have hleft : (first (c :: tail)).2 ≠ [] := by
          intro hnil
          rw [hnil, scan_of_blank List.dropWhile_nil] at hrest
          exact absurd hrest.symm (by simp)
        obtain ⟨after', hafter'⟩ := ih hrest
        rw [scan_append_of_token htrimmed (Or.inl hleft), hearlier, hafter']
        exact ⟨after', rfl⟩

end Token

end TypeShape
