import PuzzleGate.Decimal.Power

/-!
# Binary floating point with exact arithmetic

`Binary64` holds the finite numbers of the 64-bit format as sign, mantissa and exponent. Every
operation computes its result as a ratio of natural numbers and rounds once, to the nearest
representable number, with a tie going to the even mantissa.
-/

namespace PuzzleGate.Decimal

/-- The number `± mantissa * 2 ^ exponent`. Of the ways to write a number the one with the least
exponent not below -1074 and a mantissa below 2 ^ 53 is used, and zero has exponent -1074. -/
structure Binary64 where
  negative : Bool
  mantissa : Nat
  exponent : Int
deriving DecidableEq, Repr

namespace Binary64

def minExponent : Int := -1074

def maxExponent : Int := 971

def zero (negative : Bool) : Binary64 := ⟨negative, 0, minExponent⟩

/-- The exponent at which the ratio has a mantissa of 53 bits, or the least of the format. -/
def exponentOf (num den : Nat) : Int :=
  let guess : Int := (num.log2 : Int) - den.log2 - 52
  let (n, d) := (num * powerOfTwo (-guess).toNat, den * powerOfTwo guess.toNat)
  max minExponent (if n < d * powerOfTwo 52 then guess - 1 else guess)

/-- The quotient rounded to the nearest natural number, a tie to the even one. -/
def roundQuotient (num den : Nat) : Nat :=
  let q := num / den
  let twice := 2 * (num % den)
  if twice < den then q else if den < twice then q + 1 else q + q % 2

/-- The number nearest to `± num / den`; none when that is beyond the greatest finite one. -/
def ofRatio (negative : Bool) (num den : Nat) : Option Binary64 :=
  if num = 0 then some (zero negative)
  else
    let e := exponentOf num den
    let m := roundQuotient (num * powerOfTwo (-e).toNat) (den * powerOfTwo e.toNat)
    let (m, e) := if m = powerOfTwo 53 then (powerOfTwo 52, e + 1) else (m, e)
    if maxExponent < e then none else some ⟨negative, m, e⟩

def ratio (x : Binary64) : Nat × Nat :=
  (x.mantissa * powerOfTwo x.exponent.toNat, powerOfTwo (-x.exponent).toNat)

def isZero (x : Binary64) : Bool := x.mantissa == 0

/-- Numeric equality: the two zeros are equal. -/
def same (x y : Binary64) : Bool :=
  x == y || (x.isZero && y.isZero)

def ofNat (n : Nat) : Option Binary64 := ofRatio false n 1

/-- The rounded product of the magnitudes, with the sign of the first factor. -/
def scaleUp (x y : Binary64) : Option Binary64 :=
  ofRatio x.negative (x.ratio.1 * y.ratio.1) (x.ratio.2 * y.ratio.2)

/-- The rounded quotient of the magnitudes, with the sign of the dividend. -/
def scaleDown (x y : Binary64) : Option Binary64 :=
  ofRatio x.negative (x.ratio.1 * y.ratio.2) (x.ratio.2 * y.ratio.1)

def tenTo (k : Nat) : Option Binary64 := ofNat (powerOfTen k)

/-- The number nearest to `± significand * 10 ^ exponent`. Exponents far outside the format are
decided from the count of digits, without building the power. -/
def ofDecimal (negative : Bool) (significand : Nat) (exponent : Int) : Option Binary64 :=
  if significand = 0 then some (zero negative)
  else
    let magnitude := (significand.log2 : Int) / 4 + exponent
    if 400 < magnitude then none
    else if magnitude + (significand.log2 : Int) / 8 + 2 < -400 then some (zero negative)
    else ofRatio negative (significand * powerOfTen exponent.toNat) (powerOfTen (-exponent).toNat)

end Binary64

end PuzzleGate.Decimal
