import TypeShape.Proofs.Document.Spelling
import TypeShape.Text.Literal

/-!
Strings are written so that they can be read back.  A reader of tokens finds
the string and stops right behind its closing quote, whatever comes then; so
two strings that are written alike up to what follows them are the same.
-/
namespace TypeShape

namespace Token

/-- The part of a string that a written character is read as.  Only a control
character without an escape of its own is read as a unit. -/
def writtenPart (c : Char) : StringPart :=
  if c.toNat < 0x20 ∧ c ∉ ['\x08', '\x0c', '\n', '\r', '\t'] then .unit c.toNat
    else .char c

theorem hexValue?_hexDigit {n : Nat} (h : n < 16) :
    hexValue? (Text.hexDigit n) = some n := by
  have hall : ∀ n < 16, hexValue? (Text.hexDigit n) = some n := by decide
  exact hall n h

/-- The two digits after two zeros stand for the number that was written. -/
theorem unitValue?_hexDigits {n : Nat} (h : n < 256) :
    unitValue? '0' '0' (Text.hexDigit (n / 16)) (Text.hexDigit (n % 16)) =
      some n := by
  have hzero : hexValue? '0' = some 0 := by decide
  rw [unitValue?, hzero, hexValue?_hexDigit (Nat.div_lt_of_lt_mul h),
    hexValue?_hexDigit (Nat.mod_lt n (by decide))]
  simp only [Option.bind_eq_bind, Option.bind_some, Option.pure_def,
    Option.some.injEq]
  omega

/-- The characters that are escaped by a backslash and a letter, with the
letters. -/
def shortEscapes : List (Char × Char) :=
  [('"', '"'), ('\\', '\\'), ('\x08', 'b'), ('\x0c', 'f'), ('\n', 'n'),
   ('\r', 'r'), ('\t', 't')]

theorem literalChar_shortEscapes :
    ∀ escape ∈ shortEscapes, Text.literalChar escape.1 = ['\\', escape.2] ∧
      escape.2 ≠ 'u' ∧
      shortEscape? escape.2 = some escape.1 ∧
      writtenPart escape.1 = .char escape.1 := by
  decide

/-- A character is written behind a backslash, as a unit, or as it is. -/
theorem literalChar_cases (c : Char) :
    (∃ letter, Text.literalChar c = ['\\', letter] ∧
      letter ≠ 'u' ∧
      shortEscape? letter = some c ∧
      writtenPart c = .char c) ∨
    (Text.literalChar c = ['\\', 'u', '0', '0', Text.hexDigit (c.toNat / 16),
      Text.hexDigit (c.toNat % 16)] ∧
      c.toNat < 0x20 ∧
      writtenPart c = .unit c.toNat) ∨
    (Text.literalChar c = [c] ∧ c ≠ '"' ∧ c ≠ '\\' ∧ ¬ c.toNat < 0x20 ∧
      writtenPart c = .char c) := by
  by_cases hshort : c ∈ shortEscapes.map Prod.fst
  · obtain ⟨escape, hescape, rfl⟩ := List.mem_map.1 hshort
    exact Or.inl ⟨escape.2, literalChar_shortEscapes escape hescape⟩
  · simp only [shortEscapes, List.map_cons, List.map_nil, List.mem_cons,
      List.not_mem_nil, or_false, not_or] at hshort
    obtain ⟨hquote, hslash, hb, hf, hn, hr, ht⟩ := hshort
    simp only [Text.literalChar, if_neg hquote, if_neg hslash, if_neg hb,
      if_neg hf, if_neg hn, if_neg hr, if_neg ht]
    by_cases hcontrol : c.toNat < 0x20
    · refine Or.inr (Or.inl ⟨if_pos hcontrol, hcontrol, ?_⟩)
      exact if_pos ⟨hcontrol, by simp [hb, hf, hn, hr, ht]⟩
    · refine Or.inr (Or.inr ⟨if_neg hcontrol, hquote, hslash, hcontrol, ?_⟩)
      exact if_neg (fun h => hcontrol h.1)

/-- A written character is read as one part. -/
theorem stringParts?_literalChar (c : Char) (text : List Char) :
    stringParts? (Text.literalChar c ++ text) = (stringParts? text).bind
      fun read => some (writtenPart c :: read.1, read.2) := by
  rcases literalChar_cases c with ⟨letter, hwritten, hletter, hescape, hpart⟩ |
    ⟨hwritten, hcontrol, hpart⟩ | ⟨hwritten, hquote, hslash, hcontrol, hpart⟩
  · rw [hwritten, hpart]
    simp [stringParts?, hletter, hescape]
  · rw [hwritten, hpart]
    simp [stringParts?,
      unitValue?_hexDigits (Nat.lt_trans hcontrol (by decide))]
  · rw [hwritten, hpart]
    simp [stringParts?, hslash, hcontrol]

theorem joinParts?_writtenPart (c : Char) (parts : List StringPart) :
    joinParts? (writtenPart c :: parts) = (joinParts? parts).map (c :: ·) := by
  rw [writtenPart]
  split
  · obtain ⟨hhigh, hlow⟩ := not_surrogate c
    rw [joinParts?_unit hhigh hlow, Char.ofNat_toNat]
  · rfl

theorem stringParts?_literal (chars rest : List Char) :
    stringParts? (chars.flatMap Text.literalChar ++ '"' :: rest) =
      some (chars.map writtenPart, rest) := by
  induction chars with
  | nil => simp [stringParts?]
  | cons c chars ih =>
      rw [List.flatMap_cons, List.append_assoc, stringParts?_literalChar, ih]
      rfl

theorem joinParts?_map_writtenPart (chars : List Char) :
    joinParts? (chars.map writtenPart) = some chars := by
  induction chars with
  | nil => rfl
  | cons c chars ih =>
      rw [List.map_cons, joinParts?_writtenPart, ih]
      rfl

/-- A written string is read back as it was. -/
theorem first_literal (text : String) (rest : List Char) :
    first (Text.literal text ++ rest) = (.string (some text), rest) := by
  have hwritten : Text.literal text ++ rest =
      '"' :: (text.toList.flatMap Text.literalChar ++ '"' :: rest) := by
    simp [Text.literal]
  rw [hwritten, first, stringParts?_literal]
  simp only [orBad, joinParts?_map_writtenPart, Option.map_some,
    String.ofList_toList]

end Token

/-- Two strings that are written alike, up to what follows them, are the
same. -/
theorem Text.literal_append_inj {text text' : String} {tail tail' : List Char}
    (h : Text.literal text ++ tail = Text.literal text' ++ tail') :
    text = text' ∧ tail = tail' := by
  have hread := congrArg Token.first h
  rw [Token.first_literal, Token.first_literal] at hread
  simpa using hread

end TypeShape
