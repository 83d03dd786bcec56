/-!
White space, as the Unicode property White_Space has it, and the text that is
left when it is taken off both ends.
-/
namespace TypeShape.Text

/-- The White_Space property.  The information separators below the plain blank
and the zero-width characters do not have it. -/
def isBlank (c : Char) : Bool :=
  let code := c.toNat
  (9 ≤ code && code ≤ 13) || code == 0x20 || code == 0x85 || code ==
    0xa0 || code == 0x1680 || (0x2000 ≤ code && code ≤ 0x200a) || code ==
    0x2028 || code == 0x2029 || code == 0x202f || code == 0x205f || code ==
    0x3000

def trimStart (text : List Char) : List Char :=
  text.dropWhile isBlank

def trimEnd (text : List Char) : List Char :=
  (text.reverse.dropWhile isBlank).reverse

def trim (text : List Char) : List Char :=
  trimEnd (trimStart text)

theorem length_trimStart_le (text : List Char) :
    (trimStart text).length ≤ text.length := by
  exact (List.dropWhile_sublist _).length_le

theorem length_trimEnd_le (text : List Char) :
    (trimEnd text).length ≤ text.length := by
  have h : (text.reverse.dropWhile isBlank).length ≤ text.reverse.length :=
    (List.dropWhile_sublist _).length_le
  simpa [trimEnd] using h

/-- Trimming never lengthens a text, which is what lets a reader recurse on
trimmed pieces. -/
theorem length_trim_le (text : List Char) : (trim text).length ≤ text.length :=
  Nat.le_trans (length_trimEnd_le _) (length_trimStart_le _)

end TypeShape.Text
