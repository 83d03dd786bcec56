import Mathlib
import TypeShape.Document.Token

/-!
How strings are spelled.  Between its quotes a character stands for itself, or
is escaped by a letter or by its sixteen-bit units, which are one or a pair.
However a string is spelled, its text is read, and where the units that are
escaped do not fit together no text is.
-/
namespace TypeShape

namespace Token

/-! ### Escapes -/

/-- A digit in base sixteen with its value.  A letter may be small or large. -/
def HexDigit (c : Char) (value : Nat) : Prop :=
  value < 16 ∧ (c = value.digitChar ∨ c = value.digitChar.toUpper)

/-- The digits of a sixteen-bit unit. -/
inductive WritesUnit : List Char → Nat → Prop
  | digits {a b c d : Char} {i j k l : Nat} (ha : HexDigit a i)
      (hb : HexDigit b j) (hc : HexDigit c k) (hd : HexDigit d l) :
      WritesUnit [a, b, c, d] (i * 16 ^ 3 + j * 16 ^ 2 + k * 16 + l)

/-- The characters that have a letter of their own, which comes first. -/
def letterEscapes : List (Char × Char) :=
  [('"', '"'), ('\\', '\\'), ('/', '/'), ('b', '\x08'), ('f', '\x0c'),
   ('n', '\n'), ('r', '\r'), ('t', '\t')]

def IsPlain (c : Char) : Prop :=
  0x20 ≤ c.toNat ∧ c ≠ '"' ∧ c ≠ '\\'

/-- The spellings of a sequence of characters and units, whether or not the
units fit together. -/
inductive EscapedAs : List StringPart → List Char → Prop
  | nil : EscapedAs [] []
  | plain {c : Char} {parts : List StringPart} {spelled : List Char}
      (hc : IsPlain c) (hrest : EscapedAs parts spelled) :
      EscapedAs (.char c :: parts) (c :: spelled)
  | short {letter c : Char} {parts : List StringPart} {spelled : List Char}
      (hc : (letter, c) ∈ letterEscapes) (hrest : EscapedAs parts spelled) :
      EscapedAs (.char c :: parts) ('\\' :: letter :: spelled)
  | unit {digits : List Char} {code : Nat} {parts : List StringPart}
      {spelled : List Char} (hcode : WritesUnit digits code)
      (hrest : EscapedAs parts spelled) :
      EscapedAs (.unit code :: parts) ('\\' :: 'u' :: (digits ++ spelled))

/-- The two units of a character that needs more than one. -/
def IsPair (high low : Nat) (c : Char) : Prop :=
  0x10000 ≤ c.toNat ∧ high = 0xd800 + (c.toNat - 0x10000) / 0x400 ∧
    low = 0xdc00 + (c.toNat - 0x10000) % 0x400

/-- The spellings of a text. -/
inductive Spells : List Char → List Char → Prop
  | nil : Spells [] []
  | plain {c : Char} {spelled text : List Char} (hc : IsPlain c)
      (hrest : Spells spelled text) : Spells (c :: spelled) (c :: text)
  | short {letter c : Char} {spelled text : List Char}
      (hc : (letter, c) ∈ letterEscapes) (hrest : Spells spelled text) :
      Spells ('\\' :: letter :: spelled) (c :: text)
  | unit {digits : List Char} {c : Char} {spelled text : List Char}
      (hc : WritesUnit digits c.toNat) (hrest : Spells spelled text) :
      Spells ('\\' :: 'u' :: (digits ++ spelled)) (c :: text)
  | pair {highDigits lowDigits : List Char} {high low : Nat} {c : Char}
      {spelled text : List Char} (hhigh : WritesUnit highDigits high)
      (hlow : WritesUnit lowDigits low) (hpair : IsPair high low c)
      (hrest : Spells spelled text) :
      Spells
        ('\\' :: 'u' :: (highDigits ++ '\\' :: 'u' :: (lowDigits ++ spelled)))
        (c :: text)

/-- The spellings of a string, which are those of its text.  A string without
text is spelled by escapes that do not fit together. -/
def SpelledAs : Option String → List Char → Prop
  | some text, spelled => Spells spelled text.toList
  | none, spelled =>
      (∃ parts, EscapedAs parts spelled) ∧ ∀ text, ¬ Spells spelled text

/-! ### Reading the parts -/

theorem hexValue?_of_hexDigit {c : Char} {value : Nat} (h : HexDigit c value) :
    hexValue? c = some value := by
  have hall : ∀ value < 16, hexValue? value.digitChar = some value ∧
      hexValue? value.digitChar.toUpper = some value := by
    decide
  obtain ⟨hvalue, rfl | rfl⟩ := h
  · exact (hall value hvalue).1
  · exact (hall value hvalue).2

theorem stringParts?_unit {digits : List Char} {code : Nat}
    (h : WritesUnit digits code) (text : List Char) :
    stringParts? ('\\' :: 'u' :: (digits ++ text)) =
      (stringParts? text).map fun read => (.unit code :: read.1, read.2) := by
  obtain ⟨ha, hb, hc, hd⟩ := h
  simp only [List.cons_append, List.nil_append, stringParts?, unitValue?,
    hexValue?_of_hexDigit ha, hexValue?_of_hexDigit hb,
    hexValue?_of_hexDigit hc, hexValue?_of_hexDigit hd]
  cases stringParts? text with
  | none => rfl
  | some read =>
      simp
      ring

theorem shortEscape?_of_mem {letter c : Char}
    (h : (letter, c) ∈ letterEscapes) :
    shortEscape? letter = some c ∧ letter ≠ 'u' := by
  have hall : ∀ escape ∈ letterEscapes,
      shortEscape? escape.1 = some escape.2 ∧ escape.1 ≠ 'u' := by
    decide
  exact hall (letter, c) h

/-- The parts of a string are read however they are spelled. -/
theorem stringParts?_of_escapedAs {parts : List StringPart}
    {spelled : List Char} (h : EscapedAs parts spelled) (rest : List Char) :
    stringParts? (spelled ++ '"' :: rest) = some (parts, rest) := by
  induction h with
  | nil => simp [stringParts?]
  | plain hc _ ih =>
      obtain ⟨hprintable, hquote, hescape⟩ := hc
      simp [stringParts?, hescape, Nat.not_lt.2 hprintable, ih]
  | short hc _ ih =>
      obtain ⟨hfound, hletter⟩ := shortEscape?_of_mem hc
      simp [stringParts?, hletter, hfound, ih]
  | unit hcode _ ih =>
      rw [List.cons_append, List.cons_append, List.append_assoc,
        stringParts?_unit hcode, ih]
      rfl

/-! ### The text of the parts -/

theorem joinParts?_unit {code : Nat} (hhigh : isHighSurrogate code = false)
    (hlow : isLowSurrogate code = false) (parts : List StringPart) :
    joinParts? (.unit code :: parts) =
      (joinParts? parts).map (Char.ofNat code :: ·) := by
  cases parts with
  | nil => simp [joinParts?, hhigh, hlow]
  | cons part rest => cases part <;> simp [joinParts?, hhigh, hlow]

theorem toNat_valid (c : Char) :
    c.toNat < 0xd800 ∨ 0xdfff < c.toNat ∧ c.toNat < 0x110000 :=
  c.valid

/-- No character is half of a pair. -/
theorem not_surrogate (c : Char) :
    isHighSurrogate c.toNat = false ∧ isLowSurrogate c.toNat = false := by
  have hvalid := toNat_valid c
  simp only [isHighSurrogate, isLowSurrogate, Bool.and_eq_false_iff,
    decide_eq_false_iff_not]
  omega

theorem joinParts?_pair {high low : Nat} {c : Char} (h : IsPair high low c)
    (parts : List StringPart) :
    joinParts? (.unit high :: .unit low :: parts) =
      (joinParts? parts).map (c :: ·) := by
  obtain ⟨hlarge, hhigh, hlow⟩ := h
  have hrange : c.toNat < 0x110000 := (toNat_valid c).elim (by omega) And.right
  have hhigh' : isHighSurrogate high = true := by
    simp only [isHighSurrogate, Bool.and_eq_true, decide_eq_true_eq]
    omega
  have hlow' : isLowSurrogate low = true := by
    simp only [isLowSurrogate, Bool.and_eq_true, decide_eq_true_eq]
    omega
  have hcode : 0x10000 + (high - 0xd800) * 0x400 + (low - 0xdc00) =
      c.toNat := by
    omega
  rw [joinParts?, if_pos hhigh', if_pos hlow', hcode, Char.ofNat_toNat]

theorem exists_parts_of_spells {spelled text : List Char}
    (h : Spells spelled text) :
    ∃ parts, EscapedAs parts spelled ∧ joinParts? parts = some text := by
  induction h with
  | nil => exact ⟨[], .nil, rfl⟩
  | @plain c _ _ hc _ ih =>
      obtain ⟨parts, hparts, hjoined⟩ := ih
      exact ⟨.char c :: parts, .plain hc hparts,
        by rw [joinParts?, hjoined]; rfl⟩
  | @short _ c _ _ hc _ ih =>
      obtain ⟨parts, hparts, hjoined⟩ := ih
      exact ⟨.char c :: parts, .short hc hparts,
        by rw [joinParts?, hjoined]; rfl⟩
  | @unit _ c _ _ hc _ ih =>
      obtain ⟨parts, hparts, hjoined⟩ := ih
      obtain ⟨hhigh, hlow⟩ := not_surrogate c
      refine ⟨.unit c.toNat :: parts, .unit hc hparts, ?_⟩
      rw [joinParts?_unit hhigh hlow, hjoined, Char.ofNat_toNat]
      rfl
  | @pair _ _ high low _ _ _ hhigh hlow hpair _ ih =>
      obtain ⟨parts, hparts, hjoined⟩ := ih
      refine ⟨.unit high :: .unit low :: parts, .unit hhigh (.unit hlow hparts),
        ?_⟩
      rw [joinParts?_pair hpair, hjoined]
      rfl

/-- Two units that fit together are those of a character. -/
theorem isPair_of_surrogates {high low : Nat}
    (hhigh : isHighSurrogate high = true) (hlow : isLowSurrogate low = true) :
    IsPair high low
      (Char.ofNat (0x10000 + (high - 0xd800) * 0x400 + (low - 0xdc00))) := by
  simp only [isHighSurrogate, isLowSurrogate, Bool.and_eq_true,
    decide_eq_true_eq] at hhigh hlow
  have hvalid :
      (0x10000 + (high - 0xd800) * 0x400 + (low - 0xdc00)).isValidChar := by
    simp only [Nat.isValidChar]
    omega
  rw [IsPair, Char.toNat_ofNat, if_pos hvalid]
  omega

/-- A unit that is no half of a pair is a character by itself. -/
theorem spells_unit {digits : List Char} {code : Nat} {spelled text : List Char}
    (hcode : WritesUnit digits code) (hhigh : ¬ isHighSurrogate code = true)
    (hlow : ¬ isLowSurrogate code = true) (hrest : Spells spelled text) :
    Spells ('\\' :: 'u' :: (digits ++ spelled)) (Char.ofNat code :: text) := by
  have hvalid : code.isValidChar := by
    obtain ⟨⟨hi, -⟩, ⟨hj, -⟩, ⟨hk, -⟩, ⟨hl, -⟩⟩ := hcode
    simp only [isHighSurrogate, isLowSurrogate, Bool.and_eq_true,
      decide_eq_true_eq] at hhigh hlow
    simp only [Nat.isValidChar]
    omega
  refine .unit ?_ hrest
  rwa [Char.toNat_ofNat, if_pos hvalid]

theorem spells_of_joinParts? {parts : List StringPart}
    {spelled text : List Char} (h : EscapedAs parts spelled)
    (hjoined : joinParts? parts = some text) : Spells spelled text := by
  fun_induction joinParts? parts generalizing spelled text with
  | case1 =>
      cases h
      cases hjoined
      exact .nil
  | case2 c rest ih =>
      obtain ⟨text, hrest, rfl⟩ := Option.map_eq_some_iff.1 hjoined
      cases h with
      | plain hc hparts => exact .plain hc (ih hparts hrest)
      | short hc hparts => exact .short hc (ih hparts hrest)
  | case3 high low rest hhigh hlow ih =>
      obtain ⟨text, hrest, rfl⟩ := Option.map_eq_some_iff.1 hjoined
      cases h with
      | unit hcode hparts =>
          cases hparts with
          | unit hcode' hparts =>
              exact .pair hcode hcode' (isPair_of_surrogates hhigh hlow)
                (ih hparts hrest)
  | case4 => cases hjoined
  | case5 => cases hjoined
  | case6 high low rest hhigh hlow ih =>
      obtain ⟨text, hrest, rfl⟩ := Option.map_eq_some_iff.1 hjoined
      cases h with
      | unit hcode hparts =>
          exact spells_unit hcode hhigh hlow (ih hparts hrest)
  | case7 => cases hjoined
  | case8 code rest _ hsingle ih =>
      obtain ⟨text, hrest, rfl⟩ := Option.map_eq_some_iff.1 hjoined
      rw [Bool.or_eq_true, not_or] at hsingle
      cases h with
      | unit hcode hparts =>
          exact spells_unit hcode hsingle.1 hsingle.2 (ih hparts hrest)

/-- A string is read with its text, or without if it has none, and up to its
closing quote. -/
theorem exists_parts_of_spelledAs {content : Option String}
    {spelled : List Char} (h : SpelledAs content spelled) (rest : List Char) :
    ∃ parts, stringParts? (spelled ++ '"' :: rest) = some (parts, rest) ∧
      (joinParts? parts).map String.ofList = content := by
  cases content with
  | some text =>
      obtain ⟨parts, hparts, hjoined⟩ := exists_parts_of_spells h
      refine ⟨parts, stringParts?_of_escapedAs hparts rest, ?_⟩
      rw [hjoined, Option.map_some, String.ofList_toList]
  | none =>
      obtain ⟨⟨parts, hparts⟩, hspells⟩ := h
      refine ⟨parts, stringParts?_of_escapedAs hparts rest, ?_⟩
      rw [Option.map_eq_none_iff, Option.eq_none_iff_forall_not_mem]
      exact fun text hjoined =>
        hspells text (spells_of_joinParts? hparts hjoined)

/-! ### Nothing else is read -/

theorem hexDigit_of_hexValue? {c : Char} {value : Nat}
    (h : hexValue? c = some value) : HexDigit c value := by
  have hdigit : ∀ n < 10, Char.ofNat (n + 48) = n.digitChar := by decide
  have hsmall : ∀ n < 6, Char.ofNat (n + 97) = (n + 10).digitChar := by decide
  have hlarge : ∀ n < 6, Char.ofNat (n + 65) = (n + 10).digitChar.toUpper := by
    decide
  unfold hexValue? at h
  split at h
  · next hrange =>
      have hrange' : 48 ≤ c.toNat ∧ c.toNat ≤ 57 := hrange
      obtain ⟨n, hn⟩ := Nat.exists_eq_add_of_le' hrange'.1
      cases h
      refine ⟨by omega, .inl ?_⟩
      rw [hn, Nat.add_sub_cancel, ← hdigit n (by omega), ← hn, Char.ofNat_toNat]
  split at h
  · next hrange =>
      have hrange' : 97 ≤ c.toNat ∧ c.toNat ≤ 102 := hrange
      obtain ⟨n, hn⟩ := Nat.exists_eq_add_of_le' hrange'.1
      cases h
      refine ⟨by omega, .inl ?_⟩
      rw [show c.toNat - 87 = n + 10 by omega, ← hsmall n (by omega), ← hn,
        Char.ofNat_toNat]
  split at h
  · next hrange =>
      have hrange' : 65 ≤ c.toNat ∧ c.toNat ≤ 70 := hrange
      obtain ⟨n, hn⟩ := Nat.exists_eq_add_of_le' hrange'.1
      cases h
      refine ⟨by omega, .inr ?_⟩
      rw [show c.toNat - 55 = n + 10 by omega, ← hlarge n (by omega), ← hn,
        Char.ofNat_toNat]
  · cases h

theorem mem_of_shortEscape? {letter c : Char}
    (h : shortEscape? letter = some c) : (letter, c) ∈ letterEscapes := by
  unfold shortEscape? at h
  split at h <;> cases h <;> decide

theorem writesUnit_of_unitValue? {a b c d : Char} {code : Nat}
    (h : unitValue? a b c d = some code) : WritesUnit [a, b, c, d] code := by
  simp only [unitValue?, Option.bind_eq_bind, Option.bind_eq_some_iff] at h
  obtain ⟨i, ha, j, hb, k, hc, l, hd, hcode⟩ := h
  have hsum : code = i * 16 ^ 3 + j * 16 ^ 2 + k * 16 + l := by
    rw [← Option.some.inj hcode]
    ring
  rw [hsum]
  exact .digits (hexDigit_of_hexValue? ha) (hexDigit_of_hexValue? hb)
    (hexDigit_of_hexValue? hc) (hexDigit_of_hexValue? hd)

/-- What is read as the parts of a string spells them. -/
theorem exists_spelled_of_stringParts? {text rest : List Char}
    {parts : List StringPart} (h : stringParts? text = some (parts, rest)) :
    ∃ spelled, EscapedAs parts spelled ∧ text = spelled ++ '"' :: rest := by
  fun_induction stringParts? text generalizing parts with
  | case1 => cases h
  | case2 r =>
      obtain ⟨rfl, rfl⟩ := Prod.mk.inj (Option.some.inj h)
      exact ⟨[], .nil, rfl⟩
  | case3 a b c d r ih =>
      simp only [Option.bind_eq_bind, Option.bind_eq_some_iff] at h
      obtain ⟨code, hcode, ⟨parts', rest'⟩, hparts, hrest⟩ := h
      obtain ⟨rfl, rfl⟩ := Prod.mk.inj (Option.some.inj hrest)
      obtain ⟨spelled, hspelled, rfl⟩ := ih hparts
      exact ⟨_, .unit (writesUnit_of_unitValue? hcode) hspelled, rfl⟩
  | case4 letter r _ ih =>
      simp only [Option.bind_eq_bind, Option.bind_eq_some_iff] at h
      obtain ⟨c, hc, ⟨parts', rest'⟩, hparts, hrest⟩ := h
      obtain ⟨rfl, rfl⟩ := Prod.mk.inj (Option.some.inj hrest)
      obtain ⟨spelled, hspelled, rfl⟩ := ih hparts
      exact ⟨_, .short (mem_of_shortEscape? hc) hspelled, rfl⟩
  | case5 => cases h
  | case6 c r hquote _ _ hplain ih =>
      simp only [Option.bind_eq_bind, Option.bind_eq_some_iff] at h
      obtain ⟨⟨parts', rest'⟩, hparts, hrest⟩ := h
      obtain ⟨rfl, rfl⟩ := Prod.mk.inj (Option.some.inj hrest)
      obtain ⟨spelled, hspelled, rfl⟩ := ih hparts
      rw [not_or] at hplain
      exact ⟨_, .plain ⟨Nat.le_of_not_lt hplain.2, hquote, hplain.1⟩ hspelled,
        rfl⟩

theorem spelledAs_of_escapedAs {parts : List StringPart} {spelled : List Char}
    (h : EscapedAs parts spelled) :
    SpelledAs ((joinParts? parts).map String.ofList) spelled := by
  cases hjoined : joinParts? parts with
  | some text =>
      rw [Option.map_some, SpelledAs, String.toList_ofList]
      exact spells_of_joinParts? h hjoined
  | none =>
      refine ⟨⟨parts, h⟩, fun text hspells => ?_⟩
      obtain ⟨parts', hparts, hjoined'⟩ := exists_parts_of_spells hspells
      have hread := stringParts?_of_escapedAs h []
      rw [stringParts?_of_escapedAs hparts []] at hread
      cases hread
      rw [hjoined] at hjoined'
      cases hjoined'

end Token

end TypeShape
