/-!
Finite binary64 numbers as exact values. Every operation computes in natural numbers and rounds the
exact quotient once, to the nearest number and to the even one of two that are equally near.
-/

namespace SettingsBinding

/-- The number `± significand · 2 ^ exponent`. The zeros have significand `0`. -/
structure Binary64 where
  negative : Bool
  significand : Nat
  exponent : Int
  deriving DecidableEq, Repr, Inhabited

namespace Binary64

/-- The exponent of the smallest positive number. -/
def leastExponent : Int := -1074

def greatestExponent : Int := 971

def zero (negative : Bool) : Binary64 := ⟨negative, 0, leastExponent⟩

def isZero (x : Binary64) : Bool := x.significand == 0

def withSign (x : Binary64) (negative : Bool) : Binary64 := { x with negative := negative }

/-- The quotient rounded to the nearest natural number, a half to the even one. -/
def roundQuotient (num den : Nat) : Nat :=
  let quotient := num / den
  let twiceRest := 2 * (num % den)
  if twiceRest < den then quotient
  else if den < twiceRest then quotient + 1
  else quotient + quotient % 2

/-- The quotient of `num / den` and `base ^ power`, as numerator and denominator. -/
def dividedByPower (num den base : Nat) (power : Int) : Nat × Nat :=
  (num * base.pow (-power).toNat, den * base.pow power.toNat)

/-- The positive number nearest to `num / den`, or `none` where it exceeds the finite ones. The
exponent is the least one at which the significand has at most 53 binary digits. -/
def ofQuotient? (num den : Nat) : Option Binary64 :=
  if num = 0 then some (zero false)
  else
    let low := max leastExponent ((num.log2 : Int) - den.log2 - 53)
    let atLow := dividedByPower num den 2 low
    let exponent := if Nat.pow 2 53 ≤ atLow.1 / atLow.2 then low + 1 else low
    let atExponent := dividedByPower num den 2 exponent
    let rounded := roundQuotient atExponent.1 atExponent.2
    let result : Binary64 :=
      if rounded = Nat.pow 2 53 then ⟨false, Nat.pow 2 52, exponent + 1⟩
      else ⟨false, rounded, exponent⟩
    if greatestExponent < result.exponent then none else some result

def magnitude (x : Binary64) : Nat × Nat :=
  (x.significand * Nat.pow 2 x.exponent.toNat, Nat.pow 2 (-x.exponent).toNat)

def ofNat? (n : Nat) : Option Binary64 := ofQuotient? n 1

def mul? (x y : Binary64) : Option Binary64 :=
  ofQuotient? (x.magnitude.1 * y.magnitude.1) (x.magnitude.2 * y.magnitude.2)

def div? (x y : Binary64) : Option Binary64 :=
  ofQuotient? (x.magnitude.1 * y.magnitude.2) (x.magnitude.2 * y.magnitude.1)

def greatestPowerOfTen : Nat := 308

/-- One multiplication or division by the rounded power of ten. -/
def scaleByPowerOfTen? (x : Binary64) (power : Int) : Option Binary64 :=
  (ofNat? (Nat.pow 10 power.natAbs)).bind fun scale =>
    if 0 ≤ power then x.mul? scale else x.div? scale

/-- The magnitude times a power of ten, or `none` where it is too large. A power below the range of
the rounded powers of ten is reached by several divisions, until the number is zero. -/
def timesPowerOfTen? (x : Binary64) (power : Int) : Option Binary64 :=
  if power.natAbs ≤ greatestPowerOfTen then x.scaleByPowerOfTen? power
  else if x.isZero then some x
  else if 0 < power then none
  else
    (x.scaleByPowerOfTen? (-308)).bind fun y => timesPowerOfTen? y (power + 308)
termination_by (-power).toNat
decreasing_by
  simp only [greatestPowerOfTen] at *
  omega

end Binary64

end SettingsBinding
