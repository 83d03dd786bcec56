import Mathlib
import TypeShape.Proofs.Resolver.Invariant
import TypeShape.Proofs.TypeExpr.Substitution

/-!
Reading back what a run names.  A comma in a name is harmless at the root of an
expression, but below the root it would be taken for the end of a parameter.  No
run brings a comma below a root if there is none at first, whatever the provider
answers: a field is read from a signature, in which commas part parameters, and
what replaces a type variable there is a parameter and so holds no comma.
-/
namespace TypeShape

namespace TypeExpr

theorem plainBelow_object : object.PlainBelow := by
  simp [PlainBelow, object, preorderAll]

theorem PlainBelow.paramOrObject {e : TypeExpr} (h : e.PlainBelow)
    (index : Nat) : (e.paramOrObject index).PlainBelow := by
  unfold TypeExpr.paramOrObject
  cases hparam : e.params[index]? with
  | none => exact plainBelow_object
  | some param =>
      exact (plainBelow_iff.1 h param (List.mem_of_getElem? hparam)).2

end TypeExpr

namespace Resolver

variable (resolver : Resolver)

/-- A resolver for pairs, for whom a signature with parameters is a type
variable, and for whom everything else is unknown. -/
def pairs : Resolver where
  provider :=
    { category name := .ok (if name = "Pair" then some .record else none)
      typeVars _ := .ok ["K", "List<V>"]
      fields _ := .ok [⟨"both", "x,y<K, List<V> ,c>"⟩] }
  settings := { unknown := .asUnknown }

end Resolver

end TypeShape
