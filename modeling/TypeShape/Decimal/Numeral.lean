import TypeShape.Decimal.Shortest

/-!
Numerals and the numbers they stand for.

A numeral without fraction and power stands for a whole number if that fits
sixty-four bits.  Every other numeral stands for a floating point number: its
first digits, as far as sixty-four bits hold them, times or divided by a power
of ten, with each operation rounded.  A numeral beyond the largest magnitude
stands for no number.
-/
namespace TypeShape

/-- A numeral as it is written.  Digits are given by their values. -/
structure Numeral where
  negative : Bool
  whole : List Nat
  fraction : Option (List Nat) := none
  power : Option Int := none
deriving DecidableEq

inductive Number where
  | natural (n : Nat)
  /-- The number `-(n + 1)`. -/
  | belowZero (n : Nat)
  | real (negative : Bool) (magnitude : Binary64)
deriving DecidableEq

namespace Numeral

/-- The whole numbers that digits are gathered in have sixty-four bits. -/
def digitBound : Nat := 18446744073709551616

def negativeBound : Nat := 9223372036854775808

/-- Digits gathered into a whole number, and the number of places that have been
passed over. -/
structure Gathered where
  digits : Nat
  places : Nat := 0
  full : Bool := false
deriving DecidableEq

def Gathered.take (gathered : Gathered) (digit : Nat) : Gathered :=
  if gathered.full = true ∨ digitBound ≤ gathered.digits * 10 + digit then
    { gathered with full := true }
  else
    { gathered with
      digits := gathered.digits * 10 + digit
      places := gathered.places + 1 }

/-- The digits before the point, and how many of them did not fit. -/
def gatheredWhole (numeral : Numeral) : Nat × Nat :=
  let gathered := numeral.whole.foldl Gathered.take { digits := 0 }
  (gathered.digits, numeral.whole.length - gathered.places)

/-- All the digits that fit, as a whole number, and the power of ten that
belongs to it.  Digits before the point that do not fit raise the power, those
after it are dropped. -/
def scaled (numeral : Numeral) : Nat × Int :=
  let (digits, dropped) := numeral.gatheredWhole
  let gathered := (numeral.fraction.getD []).foldl Gathered.take { digits }
  (gathered.digits, dropped - gathered.places + numeral.power.getD 0)

def tenTo (power : Nat) : Binary64 :=
  (Binary64.ofFraction? (powTen power) 1).getD .zero

/-- The powers of ten that a magnitude is divided by in turn to reach a low
power.  No divisor is larger than a magnitude can be, and two of the largest
bring every number that sixty-four bits hold down to zero, so that more of them
would change nothing. -/
def divisors (power : Nat) : List Nat :=
  List.replicate (min ((power - 1) / 308) 2) 308 ++ [(power - 1) % 308 + 1]

def timesTenTo? (x : Binary64) (power : Int) : Option Binary64 :=
  if power < 0 then
    (divisors (-power).toNat).foldlM
      (fun quotient power => quotient.div? (tenTo power)) x
  else if power ≤ 308 then x.mul? (tenTo power.toNat)
  else if x.significand = 0 then some x
  else none

def number? (numeral : Numeral) : Option Number :=
  let (digits, dropped) := numeral.gatheredWhole
  if numeral.fraction = none ∧ numeral.power = none ∧ dropped = 0 then
    if numeral.negative = false then some (.natural digits)
    else
      if 0 < digits ∧ digits ≤ negativeBound then some (.belowZero (digits - 1))
    else (Binary64.ofFraction? digits 1).map (.real true)
  else do
    let (digits, power) := numeral.scaled
    let magnitude ← Binary64.ofFraction? digits 1
    let magnitude ← timesTenTo? magnitude power
    pure (.real numeral.negative magnitude)

end Numeral

namespace Number

def wholeText? : Number → Option String
  | natural n => some (toString n)
  | belowZero n => some ("-" ++ toString (n + 1))
  | real _ _ => none

def text : Number → String
  | natural n => toString n
  | belowZero n => "-" ++ toString (n + 1)
  | real negative magnitude =>
    (if negative then "-" else "") ++ (Decimal.shortest magnitude).text

end Number

end TypeShape
