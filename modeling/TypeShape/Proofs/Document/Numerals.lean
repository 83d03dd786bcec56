import Mathlib
import TypeShape.Proofs.Document.TokenEnd

/-!
How numerals are written.  The digits before the point do not start with a zero
unless it stands alone, and a fraction and a power of ten may follow.  A numeral
is read up to a character that cannot go on with it.
-/
namespace TypeShape

namespace Numeral

/-! ### The form -/

/-- Values of digits, at least one. -/
def AreDigits (values : List Nat) : Prop :=
  values ≠ [] ∧ ∀ value ∈ values, value < 10

def digitsText (values : List Nat) : List Char :=
  values.map Nat.digitChar

/-- The forms of a fraction, after the digits before the point. -/
inductive FractionAs : Option (List Nat) → List Char → Prop
  | none : FractionAs none []
  | some {values : List Nat} (hvalues : AreDigits values) :
      FractionAs (some values) ('.' :: digitsText values)

/-- The forms of a power of ten, after the fraction.  The sign may be left
out. -/
inductive PowerAs : Option Int → List Char → Prop
  | none : PowerAs none []
  | positive {letter : Char} {sign : List Char} {values : List Nat}
      (hletter : letter = 'e' ∨ letter = 'E') (hsign : sign = [] ∨ sign = ['+'])
      (hvalues : AreDigits values) :
      PowerAs (some (Nat.ofDigits 10 values.reverse : Nat))
        (letter :: (sign ++ digitsText values))
  | negative {letter : Char} {values : List Nat}
      (hletter : letter = 'e' ∨ letter = 'E') (hvalues : AreDigits values) :
      PowerAs (some (-(Nat.ofDigits 10 values.reverse : Nat)))
        (letter :: '-' :: digitsText values)

/-- The forms of a numeral. -/
inductive WrittenAs : Numeral → List Char → Prop
  | parts {negative : Bool} {whole : List Nat} {fraction : Option (List Nat)}
      {power : Option Int} {fractionText powerText : List Char}
      (hwhole : AreDigits whole) (hzero : whole.head? = some 0 → whole = [0])
      (hfraction : FractionAs fraction fractionText)
      (hpower : PowerAs power powerText) :
      WrittenAs ⟨negative, whole, fraction, power⟩
        ((if negative then ['-'] else []) ++
          (digitsText whole ++ (fractionText ++ powerText)))

theorem exists_digitsText_eq_cons {values : List Nat} (h : AreDigits values) :
    ∃ c tail, digitsText values = c :: tail ∧ c.isDigit = true := by
  obtain ⟨hne, hvalues⟩ := h
  obtain ⟨value, more, rfl⟩ := List.exists_cons_of_ne_nil hne
  have hall : ∀ value < 10, value.digitChar.isDigit = true := by decide
  exact ⟨value.digitChar, digitsText more, rfl,
    hall value (hvalues value List.mem_cons_self)⟩

/-- A numeral starts with its sign or a digit. -/
theorem WrittenAs.exists_cons {numeral : Numeral} {text : List Char}
    (h : numeral.WrittenAs text) :
    ∃ c tail, text = c :: tail ∧ (c = '-' ∨ c.isDigit = true) := by
  obtain @⟨negative, whole, _, _, fractionText, powerText, hwhole, _, _, _⟩ := h
  cases negative with
  | true => exact ⟨'-', _, rfl, .inl rfl⟩
  | false =>
      obtain ⟨c, tail, htext, hc⟩ := exists_digitsText_eq_cons hwhole
      exact ⟨c, tail ++ (fractionText ++ powerText), by rw [htext]; rfl,
        .inr hc⟩

/-! ### Reading -/

/-- What follows digits is no digit. -/
def EndsDigits (rest : List Char) : Prop :=
  ∀ c ∈ rest.head?, c.isDigit = false

/-- What follows a numeral does not go on with it. -/
def EndsNumeral (rest : List Char) : Prop :=
  ∀ c ∈ rest.head?, c.isDigit = false ∧ c ≠ '.' ∧ c ≠ 'e' ∧ c ≠ 'E'

theorem EndsNumeral.endsDigits {rest : List Char} (h : EndsNumeral rest) :
    EndsDigits rest :=
  fun c hc => (h c hc).1

theorem endsDigits_cons {c : Char} (h : c.isDigit = false) (rest : List Char) :
    EndsDigits (c :: rest) := by
  rintro c' ⟨⟩
  exact h

theorem PowerAs.endsDigits_append {power : Option Int} {text : List Char}
    (h : PowerAs power text) {rest : List Char} (hrest : EndsNumeral rest) :
    EndsDigits (text ++ rest) := by
  cases h with
  | none => exact hrest.endsDigits
  | positive hletter =>
      rcases hletter with rfl | rfl <;> exact endsDigits_cons (by decide) _
  | negative hletter =>
      rcases hletter with rfl | rfl <;> exact endsDigits_cons (by decide) _

theorem PowerAs.head?_ne_point {power : Option Int} {text : List Char}
    (h : PowerAs power text) {rest : List Char} (hrest : EndsNumeral rest) :
    ∀ c ∈ (text ++ rest).head?, c ≠ '.' := by
  cases h with
  | none => exact fun c hc => (hrest c hc).2.1
  | positive hletter =>
      rintro c ⟨⟩
      rcases hletter with rfl | rfl <;> decide
  | negative hletter =>
      rintro c ⟨⟩
      rcases hletter with rfl | rfl <;> decide

theorem FractionAs.endsDigits_append {fraction : Option (List Nat)}
    {text : List Char} (h : FractionAs fraction text) {rest : List Char}
    (hrest : EndsDigits rest) : EndsDigits (text ++ rest) := by
  cases h with
  | none => exact hrest
  | some => exact endsDigits_cons (by decide) _

end Numeral

namespace Token

open Numeral

theorem digits_digitsText {values : List Nat} (h : ∀ value ∈ values, value < 10)
    {rest : List Char} (hrest : EndsDigits rest) :
    digits (digitsText values ++ rest) = (values, rest) := by
  have hall : ∀ value < 10,
      value.digitChar.isDigit = true ∧ value.digitChar.toNat - 48 = value := by
    decide
  have hdigits : ∀ c ∈ digitsText values, c.isDigit = true := by
    intro c hc
    obtain ⟨value, hvalue, rfl⟩ := List.mem_map.1 hc
    exact (hall value (h value hvalue)).1
  have hstop : rest.takeWhile Char.isDigit = [] ∧
      rest.dropWhile Char.isDigit = rest := by
    cases rest with
    | nil => exact ⟨rfl, rfl⟩
    | cons c tail => simp [hrest c rfl]
  have hvalues : (digitsText values).map (fun c => c.toNat - 48) = values := by
    rw [digitsText, List.map_map, List.map_congr_left, List.map_id]
    exact fun value hvalue => (hall value (h value hvalue)).2
  rw [digits, List.takeWhile_append_of_pos hdigits,
    List.dropWhile_append_of_pos hdigits, hstop.1, hstop.2, List.append_nil,
    hvalues]

theorem digits?_digitsText {values : List Nat} (h : AreDigits values)
    {rest : List Char} (hrest : EndsDigits rest) :
    digits? (digitsText values ++ rest) = some (values, rest) := by
  rw [digits?, digits_digitsText h.2 hrest, if_neg h.1]

theorem wholeDigits?_digitsText {values : List Nat} (h : AreDigits values)
    (hzero : values.head? = some 0 → values = [0]) {rest : List Char}
    (hrest : EndsDigits rest) :
    wholeDigits? (digitsText values ++ rest) = some (values, rest) := by
  rw [wholeDigits?, digits_digitsText h.2 hrest]
  cases values with
  | nil => exact absurd rfl h.1
  | cons value more =>
      cases value with
      | zero =>
          cases hzero rfl
          rfl
      | succ => rfl

theorem fractionDigits?_of_fractionAs {fraction : Option (List Nat)}
    {text : List Char} (h : FractionAs fraction text) {rest : List Char}
    (hrest : EndsDigits rest) (hpoint : ∀ c ∈ rest.head?, c ≠ '.') :
    fractionDigits? (text ++ rest) = some (fraction, rest) := by
  cases h with
  | none =>
      cases rest with
      | nil => rfl
      | cons c tail => simp [fractionDigits?, hpoint c rfl]
  | some hvalues =>
      rw [List.cons_append, fractionDigits?, digits?_digitsText hvalues hrest]
      rfl

theorem digitsValue_eq_ofDigits (values : List Nat) :
    digitsValue values = Nat.ofDigits 10 values.reverse := by
  rw [Nat.ofDigits_eq_foldr, List.foldr_reverse, digitsValue]
  congr 1
  funext value digit
  simp only [Nat.cast_id]
  ring

theorem signedPower?_digitsText {values : List Nat} (h : AreDigits values)
    {rest : List Char} (hrest : EndsDigits rest) :
    signedPower? (digitsText values ++ rest) =
      some ((digitsValue values : Int), rest) := by
  have hdigits := digits?_digitsText h hrest
  obtain ⟨c, tail, htext, hc⟩ := exists_digitsText_eq_cons h
  have hminus : c ≠ '-' := by
    rintro rfl
    cases hc
  have hplus : c ≠ '+' := by
    rintro rfl
    cases hc
  rw [htext, List.cons_append] at hdigits ⊢
  simp [signedPower?, hminus, hplus, hdigits]

theorem power?_of_powerAs {power : Option Int} {text : List Char}
    (h : PowerAs power text) {rest : List Char} (hrest : EndsNumeral rest) :
    power? (text ++ rest) = some (power, rest) := by
  cases h with
  | none =>
      cases rest with
      | nil => rfl
      | cons c tail =>
          obtain ⟨-, -, he, hE⟩ := hrest c rfl
          simp [power?, he, hE]
  | positive hletter hsign hvalues =>
      rw [List.cons_append, power?, if_pos hletter, ← digitsValue_eq_ofDigits]
      rcases hsign with rfl | rfl
      · rw [List.nil_append, signedPower?_digitsText hvalues hrest.endsDigits]
        rfl
      · rw [List.cons_append, List.cons_append, List.nil_append, signedPower?,
          digits?_digitsText hvalues hrest.endsDigits]
        rfl
  | negative hletter hvalues =>
      rw [List.cons_append, List.cons_append, power?, if_pos hletter,
        signedPower?, digits?_digitsText hvalues hrest.endsDigits,
        Option.map_some, digitsValue_eq_ofDigits]
      rfl

/-- The fraction and the power of a numeral do not start with a digit, and a
power does not start with a point. -/
theorem numeral?_of_parts (negative : Bool) {whole : List Nat}
    {fraction : Option (List Nat)} {power : Option Int}
    {fractionText powerText : List Char} (hwhole : AreDigits whole)
    (hzero : whole.head? = some 0 → whole = [0])
    (hfraction : FractionAs fraction fractionText)
    (hpower : PowerAs power powerText) {rest : List Char}
    (hrest : EndsNumeral rest) :
    numeral? negative
      (digitsText whole ++ (fractionText ++ (powerText ++ rest))) =
      some (⟨negative, whole, fraction, power⟩, rest) := by
  have hpowerEnds := hpower.endsDigits_append hrest
  rw [numeral?, wholeDigits?_digitsText hwhole hzero
    (hfraction.endsDigits_append hpowerEnds)]
  simp only [Option.bind_eq_bind, Option.bind_some]
  rw [fractionDigits?_of_fractionAs hfraction hpowerEnds
    (hpower.head?_ne_point hrest)]
  simp only [Option.bind_some]
  rw [power?_of_powerAs hpower hrest]
  rfl

/-- A numeral is read in each of its forms. -/
theorem first_of_numeral {numeral : Numeral} {text : List Char}
    (h : numeral.WrittenAs text) {rest : List Char} (hrest : EndsNumeral rest) :
    first (text ++ rest) = (.number numeral, rest) := by
  obtain @⟨negative, whole, fraction, power, fractionText, powerText, hwhole,
    hzero, hfraction, hpower⟩ := h
  have hread := numeral?_of_parts negative hwhole hzero hfraction hpower hrest
  cases negative with
  | true =>
      simp only [if_true, List.cons_append, List.nil_append, List.append_assoc,
        first]
      rw [hread]
      rfl
  | false =>
      obtain ⟨c, tail, htext, hc⟩ := exists_digitsText_eq_cons hwhole
      simp only [Bool.false_eq_true, if_false, List.nil_append,
        List.append_assoc]
      rw [htext, List.cons_append] at hread ⊢
      rw [first_of_digit hc, hread]
      rfl

/-! ### Nothing else is read -/

theorem eq_digitsText_of_digits {text rest : List Char} {values : List Nat}
    (h : digits text = (values, rest)) :
    text = digitsText values ++ rest ∧ ∀ value ∈ values, value < 10 := by
  obtain ⟨rfl, rfl⟩ := Prod.mk.inj h
  have hall : ∀ n < 10, n.digitChar = Char.ofNat (n + 48) := by decide
  have hdigit : ∀ c ∈ text.takeWhile Char.isDigit,
      (c.toNat - 48).digitChar = c ∧ c.toNat - 48 < 10 := by
    intro c hc
    have hrange : 48 ≤ c.toNat ∧ c.toNat ≤ 57 := by
      simpa [Char.isDigit, UInt32.le_iff_toNat_le] using
        List.mem_takeWhile_imp hc
    rw [hall _ (by omega), Nat.sub_add_cancel hrange.1, Char.ofNat_toNat]
    exact ⟨rfl, by omega⟩
  constructor
  · rw [digitsText, List.map_map, List.map_congr_left, List.map_id,
      List.takeWhile_append_dropWhile]
    exact fun c hc => (hdigit c hc).1
  · intro value hvalue
    obtain ⟨c, hc, rfl⟩ := List.mem_map.1 hvalue
    exact (hdigit c hc).2

theorem eq_digitsText_of_digits? {text rest : List Char} {values : List Nat}
    (h : digits? text = some (values, rest)) :
    text = digitsText values ++ rest ∧ AreDigits values := by
  unfold digits? at h
  split at h
  · cases h
  · next hvalues =>
      have hdigits : digits text = (values, rest) := Option.some.inj h
      rw [hdigits] at hvalues
      obtain ⟨htext, hrange⟩ := eq_digitsText_of_digits hdigits
      exact ⟨htext, hvalues, hrange⟩

theorem eq_digitsText_of_wholeDigits? {text rest : List Char}
    {values : List Nat} (h : wholeDigits? text = some (values, rest)) :
    text = digitsText values ++ rest ∧
    AreDigits values ∧
    (values.head? = some 0 → values = [0]) := by
  unfold wholeDigits? at h
  split at h
  · cases h
  · cases h
  · next hnil hzeros =>
      have hdigits : digits text = (values, rest) := Option.some.inj h
      obtain ⟨htext, hrange⟩ := eq_digitsText_of_digits hdigits
      refine ⟨htext, ⟨?_, hrange⟩, fun hzero => ?_⟩
      · rintro rfl
        exact hnil rest hdigits
      · match values, hzero with
        | [0], _ => rfl
        | 0 :: next :: more, _ => exact (hzeros next more rest hdigits).elim

theorem exists_fractionAs_of_fractionDigits? {text rest : List Char}
    {fraction : Option (List Nat)}
    (h : fractionDigits? text = some (fraction, rest)) :
    ∃ fractionText,
      FractionAs fraction fractionText ∧ text = fractionText ++ rest := by
  unfold fractionDigits? at h
  split at h
  · obtain ⟨⟨values, rest'⟩, hdigits, hread⟩ := Option.map_eq_some_iff.1 h
    cases hread
    obtain ⟨rfl, hvalues⟩ := eq_digitsText_of_digits? hdigits
    exact ⟨_, .some hvalues, rfl⟩
  · cases h
    exact ⟨[], .none, rfl⟩

theorem exists_powerAs_of_signedPower? {text rest : List Char} {power : Int}
    {letter : Char} (hletter : letter = 'e' ∨ letter = 'E')
    (h : signedPower? text = some (power, rest)) :
    ∃ body, PowerAs (some power) (letter :: body) ∧ text = body ++ rest := by
  unfold signedPower? at h
  split at h <;>
    obtain ⟨⟨values, rest'⟩, hdigits, hvalue⟩ := Option.map_eq_some_iff.1 h <;>
    cases hvalue <;>
      obtain ⟨rfl, hvalues⟩ := eq_digitsText_of_digits? hdigits <;>
    rw [digitsValue_eq_ofDigits]
  · exact ⟨_, .negative hletter hvalues, rfl⟩
  · exact ⟨_, .positive hletter (.inr rfl) hvalues, rfl⟩
  · exact ⟨_, .positive hletter (.inl rfl) hvalues, rfl⟩

theorem exists_powerAs_of_power? {text rest : List Char} {power : Option Int}
    (h : power? text = some (power, rest)) :
    ∃ powerText, PowerAs power powerText ∧ text = powerText ++ rest := by
  unfold power? at h
  split at h
  · cases h
    exact ⟨[], .none, rfl⟩
  split at h
  · next hletter =>
      obtain ⟨⟨value, rest'⟩, hsigned, hread⟩ := Option.map_eq_some_iff.1 h
      cases hread
      obtain ⟨body, hbody, rfl⟩ :=
        exists_powerAs_of_signedPower? hletter hsigned
      exact ⟨_, hbody, rfl⟩
  · cases h
    exact ⟨[], .none, rfl⟩

/-- What is read as a numeral after its sign writes it. -/
theorem exists_writtenAs_of_numeral? {negative : Bool} {text rest : List Char}
    {numeral : Numeral} (h : numeral? negative text = some (numeral, rest)) :
    ∃ body, numeral.WrittenAs ((if negative then ['-'] else []) ++ body) ∧
      text = body ++ rest := by
  simp only [numeral?, Option.bind_eq_bind, Option.bind_eq_some_iff] at h
  obtain ⟨⟨whole, rest₁⟩, hwhole, ⟨fraction, rest₂⟩, hfraction, ⟨power, rest₃⟩,
    hpower, hread⟩ := h
  cases hread
  obtain ⟨rfl, hdigits, hzero⟩ := eq_digitsText_of_wholeDigits? hwhole
  obtain ⟨fractionText, hfractionText, rfl⟩ :=
    exists_fractionAs_of_fractionDigits? hfraction
  obtain ⟨powerText, hpowerText, rfl⟩ := exists_powerAs_of_power? hpower
  refine ⟨_, .parts hdigits hzero hfractionText hpowerText, ?_⟩
  simp only [List.append_assoc]

end Token

end TypeShape
