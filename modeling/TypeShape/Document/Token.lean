import TypeShape.Decimal.Numeral

/-!
Tokens of JSON texts.

A text is cut into punctuation, words, numerals and strings, with white space
between them as one likes.  Where none of these follows, the tokens end with
`bad`.  What a token means is left open as far as a reader may pass over it: a
string is kept apart from what its escapes stand for if they do not fit
together, and a numeral is kept as it is written.
-/
namespace TypeShape

/-- A token of a JSON text. -/
inductive Token where
  | openList
  | closeList
  | openObject
  | closeObject
  | comma
  | colon
  | null
  | bool (value : Bool)
  | number (numeral : Numeral)
  /-- A string, without its text if that holds a surrogate that is not part of a
  pair. -/
  | string (text : Option String)
  | bad
deriving DecidableEq

namespace Token

def isSpace (c : Char) : Bool :=
  c == ' ' || c == '\t' || c == '\n' || c == '\r'

/-! ### Strings -/

/-- A part of a string: a character, or an escape by a sixteen-bit unit. -/
inductive StringPart where
  | char (c : Char)
  | unit (code : Nat)
deriving DecidableEq

def hexValue? (c : Char) : Option Nat :=
  if '0' ≤ c ∧ c ≤ '9' then some (c.toNat - 48)
  else if 'a' ≤ c ∧ c ≤ 'f' then some (c.toNat - 87)
  else if 'A' ≤ c ∧ c ≤ 'F' then some (c.toNat - 55)
  else none

def unitValue? (a b c d : Char) : Option Nat := do
  let a ← hexValue? a
  let b ← hexValue? b
  let c ← hexValue? c
  let d ← hexValue? d
  pure (((a * 16 + b) * 16 + c) * 16 + d)

/-- The character that a backslash and a letter stand for. -/
def shortEscape? : Char → Option Char
  | '"' => some '"'
  | '\\' => some '\\'
  | '/' => some '/'
  | 'b' => some '\x08'
  | 'f' => some '\x0c'
  | 'n' => some '\n'
  | 'r' => some '\r'
  | 't' => some '\t'
  | _ => none

/-- The parts of a string after its opening quote, and what follows the closing
quote.  There are none if the string does not end, holds a control character, or
has an escape that is not one. -/
def stringParts? : List Char → Option (List StringPart × List Char)
  | [] => none
  | '"' :: rest => some ([], rest)
  | '\\' :: 'u' :: a :: b :: c :: d :: rest => do
    let code ← unitValue? a b c d
    let (parts, rest) ← stringParts? rest
    pure (.unit code :: parts, rest)
  | '\\' :: escape :: rest => do
    let c ← shortEscape? escape
    let (parts, rest) ← stringParts? rest
    pure (.char c :: parts, rest)
  | c :: rest =>
    if c = '\\' ∨ c.toNat < 0x20 then none
    else do
      let (parts, rest) ← stringParts? rest
      pure (.char c :: parts, rest)

def isHighSurrogate (code : Nat) : Bool :=
  0xd800 ≤ code && code ≤ 0xdbff

def isLowSurrogate (code : Nat) : Bool :=
  0xdc00 ≤ code && code ≤ 0xdfff

/-- The characters that parts stand for.  A unit that begins a pair has to be
followed at once by one that ends it. -/
def joinParts? : List StringPart → Option (List Char)
  | [] => some []
  | .char c :: rest => (joinParts? rest).map (c :: ·)
  | .unit high :: .unit low :: rest =>
    if isHighSurrogate high then
      if isLowSurrogate low then
        (joinParts? rest).map
          (Char.ofNat (0x10000 + (high - 0xd800) * 0x400 + (low - 0xdc00)) :: ·)
      else none
    else if isLowSurrogate high then none
    else (joinParts? (.unit low :: rest)).map (Char.ofNat high :: ·)
  | .unit code :: rest =>
    if isHighSurrogate code || isLowSurrogate code then none
    else (joinParts? rest).map (Char.ofNat code :: ·)

/-! ### Numerals -/

/-- The digits at the start of a text, by their values, and what follows
them. -/
def digits (text : List Char) : List Nat × List Char :=
  ((text.takeWhile Char.isDigit).map fun c => c.toNat - 48,
    text.dropWhile Char.isDigit)

def digits? (text : List Char) : Option (List Nat × List Char) :=
  if (digits text).1 = [] then none else some (digits text)

/-- The digits before the point.  A zero in front of other digits is refused. -/
def wholeDigits? (text : List Char) : Option (List Nat × List Char) :=
  match digits text with
  | ([], _) => none
  | (0 :: _ :: _, _) => none
  | whole => some whole

def fractionDigits? : List Char → Option (Option (List Nat) × List Char)
  | '.' :: rest =>
      (digits? rest).map fun fraction => (some fraction.1, fraction.2)
  | text => some (none, text)

def digitsValue (digits : List Nat) : Nat :=
  digits.foldl (fun value digit => value * 10 + digit) 0

def signedPower? : List Char → Option (Int × List Char)
  | '-' :: rest =>
      (digits? rest).map fun power => (-(digitsValue power.1 : Int), power.2)
  | '+' :: rest =>
      (digits? rest).map fun power => ((digitsValue power.1 : Int), power.2)
  | text =>
      (digits? text).map fun power => ((digitsValue power.1 : Int), power.2)

def power? : List Char → Option (Option Int × List Char)
  | [] => some (none, [])
  | c :: rest =>
    if c = 'e' ∨ c = 'E' then (signedPower? rest).map fun power =>
      (some power.1, power.2)
    else some (none, c :: rest)

def numeral? (negative : Bool) (text : List Char) :
    Option (Numeral × List Char) := do
  let (whole, rest) ← wholeDigits? text
  let (fraction, rest) ← fractionDigits? rest
  let (power, rest) ← power? rest
  pure (⟨negative, whole, fraction, power⟩, rest)

/-! ### Tokens -/

def orBad {α : Type} (token : α → Token) :
    Option (α × List Char) → Token × List Char
  | some (value, rest) => (token value, rest)
  | none => (.bad, [])

/-- The token at the start of a text that does not start with white space, and
what follows it. -/
def first : List Char → Token × List Char
  | '[' :: rest => (.openList, rest)
  | ']' :: rest => (.closeList, rest)
  | '{' :: rest => (.openObject, rest)
  | '}' :: rest => (.closeObject, rest)
  | ',' :: rest => (.comma, rest)
  | ':' :: rest => (.colon, rest)
  | 'n' :: 'u' :: 'l' :: 'l' :: rest => (.null, rest)
  | 't' :: 'r' :: 'u' :: 'e' :: rest => (.bool true, rest)
  | 'f' :: 'a' :: 'l' :: 's' :: 'e' :: rest => (.bool false, rest)
  | '"' :: rest =>
    orBad (fun parts => .string ((joinParts? parts).map String.ofList))
      (stringParts? rest)
  | '-' :: rest => orBad .number (numeral? true rest)
  | text => orBad .number (numeral? false text)

/-! ### Every token takes something from the text -/

theorem length_of_stringParts? {text rest : List Char} {parts : List StringPart}
    (h : stringParts? text = some (parts, rest)) :
    rest.length < text.length := by
  fun_induction stringParts? text generalizing parts with
  | case1 => simp at h
  | case2 r => simp at h; simp [h]
  | case3 a b c d r ih =>
    simp only [Option.bind_eq_bind, Option.bind_eq_some_iff] at h
    obtain ⟨code, -, ⟨parts', rest'⟩, hparts, hrest⟩ := h
    obtain ⟨-, rfl⟩ : _ ∧ rest' = rest := by simpa using hrest
    have := ih hparts
    simp only [List.length_cons]
    omega
  | case4 escape r _ ih =>
    simp only [Option.bind_eq_bind, Option.bind_eq_some_iff] at h
    obtain ⟨c, -, ⟨parts', rest'⟩, hparts, hrest⟩ := h
    obtain ⟨-, rfl⟩ : _ ∧ rest' = rest := by simpa using hrest
    have := ih hparts
    simp only [List.length_cons]
    omega
  | case5 => simp at h
  | case6 c r _ _ _ _ ih =>
    simp only [Option.bind_eq_bind, Option.bind_eq_some_iff] at h
    obtain ⟨⟨parts', rest'⟩, hparts, hrest⟩ := h
    obtain ⟨-, rfl⟩ : _ ∧ rest' = rest := by simpa using hrest
    have := ih hparts
    simp only [List.length_cons]
    omega

theorem length_digits_le (text : List Char) :
    (digits text).2.length ≤ text.length :=
  (List.dropWhile_sublist _).length_le

theorem length_of_digits? {text rest : List Char} {values : List Nat}
    (h : digits? text = some (values, rest)) : rest.length ≤ text.length := by
  unfold digits? at h
  split at h
  · cases h
  · have hrest : (digits text).2 = rest := congrArg Prod.snd (Option.some.inj h)
    exact hrest ▸ length_digits_le text

theorem length_of_wholeDigits? {text rest : List Char} {values : List Nat}
    (h : wholeDigits? text = some (values, rest)) :
    rest.length < text.length := by
  have hne : values ≠ [] ∧ digits text = (values, rest) := by
    unfold wholeDigits? at h
    split at h
    · cases h
    · cases h
    · next hnil _ =>
      simp only [Option.some.injEq] at h
      refine ⟨fun hvalues => hnil rest ?_, h⟩
      rw [h, hvalues]
  obtain ⟨hvalues, hdigits⟩ := hne
  match text, hdigits with
  | [], hdigits =>
    exact absurd (congrArg Prod.fst hdigits).symm hvalues
  | c :: text, hdigits =>
    by_cases hc : c.isDigit = true
    · have hrest : (c :: text).dropWhile Char.isDigit = rest :=
        congrArg Prod.snd hdigits
      rw [List.dropWhile_cons, if_pos hc] at hrest
      exact hrest ▸ Nat.lt_succ_of_le (List.dropWhile_sublist _).length_le
    · simp only [digits, List.takeWhile_cons, hc, Bool.false_eq_true, if_false,
        List.map_nil] at hdigits
      exact absurd (congrArg Prod.fst hdigits).symm hvalues

theorem length_of_fractionDigits? {text rest : List Char}
    {fraction : Option (List Nat)}
    (h : fractionDigits? text = some (fraction, rest)) :
    rest.length ≤ text.length := by
  unfold fractionDigits? at h
  split at h
  · next r =>
    obtain ⟨⟨values, rest'⟩, hdigits, hrest⟩ := Option.map_eq_some_iff.1 h
    cases hrest
    exact Nat.le_succ_of_le (length_of_digits? hdigits)
  · cases h
    exact Nat.le_refl _

theorem length_of_signedPower? {text rest : List Char} {power : Int}
    (h : signedPower? text = some (power, rest)) :
    rest.length ≤ text.length := by
  unfold signedPower? at h
  split at h <;>
    obtain ⟨⟨values, rest'⟩, hdigits, hrest⟩ := Option.map_eq_some_iff.1 h <;>
    cases hrest
  · exact Nat.le_succ_of_le (length_of_digits? hdigits)
  · exact Nat.le_succ_of_le (length_of_digits? hdigits)
  · exact length_of_digits? hdigits

theorem length_of_power? {text rest : List Char} {power : Option Int}
    (h : power? text = some (power, rest)) : rest.length ≤ text.length := by
  unfold power? at h
  split at h
  · cases h
    exact Nat.le_refl _
  · split at h
    · obtain ⟨⟨value, rest'⟩, hpower, hrest⟩ := Option.map_eq_some_iff.1 h
      cases hrest
      exact Nat.le_succ_of_le (length_of_signedPower? hpower)
    · cases h
      exact Nat.le_refl _

theorem length_of_numeral? {negative : Bool} {text rest : List Char}
    {numeral : Numeral} (h : numeral? negative text = some (numeral, rest)) :
    rest.length < text.length := by
  simp only [numeral?, Option.bind_eq_bind, Option.bind_eq_some_iff] at h
  obtain ⟨⟨whole, rest₁⟩, hwhole, ⟨fraction, rest₂⟩, hfraction, ⟨power, rest₃⟩,
    hpower, hrest⟩ := h
  obtain ⟨-, rfl⟩ : _ ∧ rest₃ = rest := by simpa using hrest
  exact Nat.lt_of_le_of_lt (Nat.le_trans (length_of_power? hpower)
    (length_of_fractionDigits? hfraction)) (length_of_wholeDigits? hwhole)

theorem length_orBad_lt {α : Type} {token : α → Token} {text : List Char}
    {result : Option (α × List Char)} (htext : text ≠ [])
    (h : ∀ value rest,
      result = some (value, rest) → rest.length < text.length) :
    (orBad token result).2.length < text.length := by
  match result with
  | none => exact List.length_pos_iff.2 htext
  | some (value, rest) => exact h value rest rfl

/-- What follows a token is shorter than the text, so a text has only so many
tokens. -/
theorem length_first_lt {text : List Char} (htext : text ≠ []) :
    (first text).2.length < text.length := by
  unfold first
  split
  · exact Nat.lt_succ_self _
  · exact Nat.lt_succ_self _
  · exact Nat.lt_succ_self _
  · exact Nat.lt_succ_self _
  · exact Nat.lt_succ_self _
  · exact Nat.lt_succ_self _
  · simp only [List.length_cons]; omega
  · simp only [List.length_cons]; omega
  · simp only [List.length_cons]; omega
  · exact length_orBad_lt htext
      fun _ _ h => Nat.lt_succ_of_lt (length_of_stringParts? h)
  · exact length_orBad_lt htext
      fun _ _ h => Nat.lt_succ_of_lt (length_of_numeral? h)
  · exact length_orBad_lt htext fun _ _ h => length_of_numeral? h

def scan (text : List Char) : List Token :=
  match _htrimmed : text.dropWhile isSpace with
  | [] => []
  | c :: rest => (first (c :: rest)).1 :: scan (first (c :: rest)).2
termination_by text.length
decreasing_by
  have hle : (text.dropWhile isSpace).length ≤ text.length :=
    (List.dropWhile_sublist _).length_le
  have hlt := length_first_lt (List.cons_ne_nil c rest)
  rw [_htrimmed] at hle
  exact Nat.lt_of_lt_of_le hlt hle

end Token

end TypeShape
