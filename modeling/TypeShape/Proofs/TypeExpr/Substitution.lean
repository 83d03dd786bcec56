import TypeShape.Proofs.TypeExpr.Grammar

/-!
Bindings and substitution.  Reading a text under bindings looks signatures up in
the text; substitution replaces names in the expression that was read.  Both
give the same, also for texts that are no signatures.
-/
namespace TypeShape

open Text

namespace TypeExpr

mutual

/-- The expression in which names without parameters and dimensions are replaced
by what they stand for.  What a name is replaced by is left as it is. -/
def substitute (meaning? : String → Option TypeExpr) : TypeExpr → TypeExpr
  | ⟨name, [], 0⟩ => (meaning? name.text).getD ⟨name, [], 0⟩
  | ⟨name, params, dim⟩ => ⟨name, substituteAll meaning? params, dim⟩

def substituteAll (meaning? : String → Option TypeExpr) :
    List TypeExpr → List TypeExpr
  | [] => []
  | first :: rest => first.substitute meaning? :: substituteAll meaning? rest

end

variable {meaning? : String → Option TypeExpr}

end TypeExpr

namespace Bindings

def meaning? (bindings : Bindings) (name : String) : Option TypeExpr :=
  (bindings.get? name).bind fun value => (TypeExpr.ofSignature value).toOption

end Bindings

namespace TypeExpr

section Zip

variable {typeVars : List String} {actual : List TypeExpr}
  (hactual : ∀ param ∈ actual, param.PlainBelow)

include hactual

end Zip

end TypeExpr

end TypeShape
