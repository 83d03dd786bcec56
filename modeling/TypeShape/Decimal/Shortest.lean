import TypeShape.Decimal.Binary64

/-!
The shortest decimal that reads back as a given magnitude, and how it is
written.

The decimals that read back as a magnitude are those nearer to it than to its
neighbours; a decimal in the middle belongs to the even significand.  Of the
grids of decimals with a fixed last place the coarsest with such a decimal is
taken, and on it the decimal nearest to the magnitude.
-/
namespace TypeShape

structure Decimal where
  digits : Nat
  exponent : Int
deriving DecidableEq

namespace Decimal

/-- The ends of the interval of values that round to a magnitude, in quarters of
its last place.  Below a power of two the places are half as wide. -/
def quarterInterval (x : Binary64) : Nat × Nat :=
  let narrow := x.significand = powTwo 52 ∧ Binary64.minExponent < x.exponent
  (4 * x.significand - (if narrow then 1 else 2), 4 * x.significand + 2)

/-- The decimal on the grid of a power of ten that is nearest to a magnitude
among those that round to it.  Only the two neighbours of the magnitude on the
grid need to be looked at. -/
def onGrid? (x : Binary64) (exponent : Int) : Option Decimal :=
  let unit := powTwo x.exponent.toNat * powTen (-exponent).toNat
  let step := powTwo (-x.exponent).toNat * powTen exponent.toNat
  let (low, high) := quarterInterval x
  let reads (digits : Nat) : Bool :=
    if x.significand % 2 = 0 then
      low * unit ≤ 4 * digits * step && 4 * digits * step ≤ high * unit
    else low * unit < 4 * digits * step && 4 * digits * step < high * unit
  let below := x.significand * unit / step
  let rest := x.significand * unit % step
  match reads below, reads (below + 1) with
  | false, false => none
  | true, false => some ⟨below, exponent⟩
  | false, true => some ⟨below + 1, exponent⟩
  | true, true =>
    if 2 * rest < step ∨ (2 * rest = step ∧ below % 2 = 0) then some
      ⟨below, exponent⟩
    else some ⟨below + 1, exponent⟩

/-- The powers of ten from the one beyond the largest magnitude down to the one
below the least. -/
def gridExponents : List Int :=
  (List.range 640).map fun n : Nat => 310 - (n : Int)

def shortest (x : Binary64) : Decimal :=
  if x.significand = 0 then ⟨0, 0⟩
  else (gridExponents.findSome? (onGrid? x)).getD ⟨x.significand, x.exponent⟩

/-- A decimal as messages write it: positionally with a point while the point
falls from five places before the first digit to sixteen after it, and otherwise
as a number between one and ten with a signed power of ten. -/
def text (x : Decimal) : String :=
  let digits := (Nat.toDigits 10 x.digits)
  let point : Int := digits.length + x.exponent
  let zeros (count : Int) : List Char := List.replicate count.toNat '0'
  String.ofList <| if x.digits = 0 then ['0', '.', '0']
    else if 0 ≤ x.exponent ∧ point ≤ 16 then
      digits ++ zeros x.exponent ++ ['.', '0']
      else if 0 < point ∧ point ≤ 16 then
        digits.take point.toNat ++ '.' :: digits.drop point.toNat
        else if -5 < point ∧ point ≤ 0 then '0' :: '.' :: zeros (-point) ++
          digits else
      let mantissa :=
        match digits with
        | first :: second :: rest => first :: '.' :: second :: rest
        | digits => digits
      let power := point - 1
      mantissa ++
        'e' :: (if power < 0 then '-' else '+') :: Nat.toDigits 10 power.natAbs

end Decimal

end TypeShape
