import Mathlib
import TypeShape.Proofs.TypeExpr.Substitution
import TypeShape.Resolver

/-!
The types of fields.  The type of a field is read from a signature in which the
actual parameters of the record replace its type variables.  They do so where a
variable makes up a whole signature: as the type itself or as a parameter at any
depth.  The element type of an array is no signature of its own, so a variable
stays there.
-/
namespace TypeShape

namespace TypeExpr

mutual

/-- The expression in which names without parameters are replaced by what they
stand for, also as elements of arrays: an array of a name becomes an array of
what the name stands for. -/
def instantiate (meaning? : String → Option TypeExpr) : TypeExpr → TypeExpr
  | ⟨name, [], dim⟩ =>
      match meaning? name.text with
      | some actual => { actual with dim := actual.dim + dim }
      | none => ⟨name, [], dim⟩
  | ⟨name, first :: rest, dim⟩ =>
      ⟨name, first.instantiate meaning? :: instantiateAll meaning? rest, dim⟩

def instantiateAll (meaning? : String → Option TypeExpr) :
    List TypeExpr → List TypeExpr
  | [] => []
  | first :: rest => first.instantiate meaning? :: instantiateAll meaning? rest

end

variable {meaning? : String → Option TypeExpr}

end TypeExpr

namespace Resolver

end Resolver

end TypeShape
