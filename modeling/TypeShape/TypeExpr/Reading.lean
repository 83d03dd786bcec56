import TypeShape.TypeExpr
import TypeShape.TypeExpr.Outline
import TypeShape.Table

/-!
Type expressions from signatures, with and without bindings for type variables.

Reading takes white space off both ends of the text, finds its outline, reads
the parameters from left to right and looks at the name last; so of several bad
names the innermost, leftmost one is reported.  A binding replaces a whole
signature, at any depth, and what it is replaced by is read without bindings:
nothing is replaced twice.
-/
namespace TypeShape

abbrev Bindings := Table String

/-- Pairs variables with actual parameters as far as both go.  Of two equal
variables the later one counts. -/
def Bindings.zip (typeVars : List String) (actual : List TypeExpr) : Bindings :=
  Table.ofList (typeVars.zip (actual.map TypeExpr.signature))

namespace TypeExpr

/-- The expression that an outline makes with its parameters read: the name is
looked at here. -/
def ofOutline (outline : Outline) (params : List TypeExpr) :
    Except Fault TypeExpr :=
  ofText (String.ofList outline.head) params outline.dim

/-- Reads a text, except that where `answer?` has an answer for a trimmed text
or parameter, that answer is taken. -/
def readUnless (answer? : List Char → Option (Except Fault TypeExpr))
    (text : List Char) : Except Fault TypeExpr :=
  match answer? (Text.trim text) with
  | some answer => answer
  | none =>
    let outline := Outline.ofText (Text.trim text)
    outline.params.attach.mapM (fun piece => readUnless answer? piece.1) >>=
      ofOutline outline
termination_by text.length
decreasing_by
  exact Nat.lt_of_lt_of_le (Outline.length_lt_of_mem_params piece.2)
    (Text.length_trim_le text)

theorem readUnless_eq (answer? : List Char → Option (Except Fault TypeExpr))
    (text : List Char) :
    readUnless answer? text = match answer? (Text.trim text) with
      | some answer => answer
      | none =>
        (Outline.ofText (Text.trim text)).params.mapM (readUnless answer?) >>=
          ofOutline (Outline.ofText (Text.trim text)) := by
  rw [readUnless]
  split
  · rfl
  · dsimp only
    rw [List.mapM_subtype (fun _ _ => rfl), List.unattach_attach]

def read (text : List Char) : Except Fault TypeExpr :=
  readUnless (fun _ => none) text

/-- Reads a signature in which the bindings replace whole signatures. -/
def readWith (bindings : Bindings) (text : List Char) : Except Fault TypeExpr :=
  readUnless
    (fun trimmed => (bindings.get? (String.ofList trimmed)).map (read ·.toList))
    text

def ofSignature (text : String) : Except Fault TypeExpr :=
  read text.toList

def ofSignatureWith (bindings : Bindings) (text : String) :
    Except Fault TypeExpr :=
  readWith bindings text.toList

end TypeExpr

end TypeShape
