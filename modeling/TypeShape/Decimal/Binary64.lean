/-!
Binary floating point numbers with 53 significant bits, as exact magnitudes.

A magnitude is a whole number times a power of two.  Rounding takes a fraction
to the nearest magnitude, a tie to the even significand, and says nothing for a
fraction that is too large.
-/
namespace TypeShape

def powTwo (power : Nat) : Nat :=
  Nat.pow 2 power

def powTen (power : Nat) : Nat :=
  Nat.pow 10 power

/-- The magnitude `significand * 2 ^ exponent`. -/
structure Binary64 where
  significand : Nat
  exponent : Int
deriving DecidableEq

namespace Binary64

def minExponent : Int := -1074

def maxExponent : Int := 971

def zero : Binary64 := ⟨0, minExponent⟩

/-- The quotient rounded to the nearest whole number, a tie to the even one. -/
def roundedQuotient (num den : Nat) : Nat :=
  let quotient := num / den
  let twice := 2 * (num % den)
  if twice < den then quotient
  else if den < twice then quotient + 1
  else if quotient % 2 = 0 then quotient
  else quotient + 1

/-- The greatest power of two, by its exponent, that a positive fraction
reaches. -/
def floorLog2 (num den : Nat) : Int :=
  let guess : Int := num.log2 - den.log2
  if num * powTwo (-guess).toNat < den * powTwo guess.toNat then guess - 1
    else guess

/-- The nearest magnitude to a fraction with a positive denominator.  There is
none if the fraction is beyond the largest. -/
def ofFraction? (num den : Nat) : Option Binary64 :=
  if num = 0 then some zero
  else
    let exponent := max minExponent (floorLog2 num den - 52)
    let significand := roundedQuotient (num * powTwo (-exponent).toNat)
      (den * powTwo exponent.toNat)
    let rounded : Binary64 :=
      if significand = powTwo 53 then ⟨powTwo 52, exponent + 1⟩
        else ⟨significand, exponent⟩
    if maxExponent < rounded.exponent then none else some rounded

def num (x : Binary64) : Nat :=
  x.significand * powTwo x.exponent.toNat

def den (x : Binary64) : Nat :=
  powTwo (-x.exponent).toNat

def mul? (x y : Binary64) : Option Binary64 :=
  ofFraction? (x.num * y.num) (x.den * y.den)

def div? (x y : Binary64) : Option Binary64 :=
  ofFraction? (x.num * y.den) (x.den * y.num)

end Binary64

end TypeShape
