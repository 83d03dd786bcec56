import TypeShape.Text.Blank

/-!
Names of types: texts that can stand in a signature without being taken apart.

A name holds no white space and none of the four brackets.  A comma is allowed,
although a name with a comma cannot be read back from a parameter list.
-/
namespace TypeShape

open Text

/-- The brackets that give a signature its structure. -/
def isBracket (c : Char) : Bool :=
  c == '<' || c == '>' || c == '[' || c == ']'

def isNameChar (c : Char) : Bool :=
  !isBlank c && !isBracket c

def isNameText (text : List Char) : Bool :=
  !text.isEmpty && text.all isNameChar

/-- The name of a type, without parameters and dimensions. -/
structure TypeName where
  text : String
  valid : isNameText text.toList = true
deriving DecidableEq

namespace TypeName

def chars (name : TypeName) : List Char :=
  name.text.toList

theorem ne_nil (name : TypeName) : name.chars ≠ [] := by
  have h := name.valid
  simp only [isNameText, Bool.and_eq_true, Bool.not_eq_true',
    List.isEmpty_eq_false_iff] at h
  exact h.1

theorem isNameChar_of_mem (name : TypeName) {c : Char} (hc : c ∈ name.chars) :
    isNameChar c = true := by
  have h := name.valid
  simp only [isNameText, Bool.and_eq_true, List.all_eq_true] at h
  exact h.2 c hc

theorem eq_of_chars_eq {a b : TypeName} (h : a.chars = b.chars) : a = b := by
  cases a
  cases b
  simpa [chars, String.toList_inj] using h

def ofText? (text : String) : Option TypeName :=
  if h : isNameText text.toList = true then some ⟨text, h⟩ else none

/-- The most general type, which stands where a parameter is missing. -/
def object : TypeName :=
  ⟨"java.lang.Object", by decide⟩

end TypeName

end TypeShape
