import SettingsBinding.Binary64.Basic

/-!
Shortest decimals: of the decimals that round to a given number, the one with the fewest digits, and
of those the nearest.
-/

namespace SettingsBinding.Binary64

/-- The decimal `0.d₁d₂… · 10 ^ point`. -/
structure Decimal where
  digits : List Char
  point : Int
  deriving DecidableEq, Repr

/-- The position `k` of the decimal point of a positive quotient: `10 ^ (k - 1) ≤ num / den < 10 ^
k`. -/
def decimalPoint (num den : Nat) : Int :=
  if den ≤ num then (Nat.toDigits 10 (num / den)).length
  else 1 - ((Nat.toDigits 10 ((den - 1) / num)).length : Int)

/-- The bounds of the numbers that round to `x`, and `x` itself between them, in quarters of the
last place. Below a power of two the neighbour is only half as far. -/
def quarters (x : Binary64) : Nat × Nat × Nat :=
  let below := if x.significand = Nat.pow 2 52 ∧ leastExponent < x.exponent then 1 else 2
  (4 * x.significand - below, 4 * x.significand, 4 * x.significand + 2)

/-- The point of the grid with `count` digits that rounds to `x` and is nearest to it, if any. The
bounds themselves round to `x` when its significand is even. -/
def gridPoint? (x : Binary64) (point : Int) (count : Nat) : Option Nat :=
  let (low, value, high) := x.quarters
  let (num, den) := dividedByPower 1 1 10 (point - count)
  let (num, den) := dividedByPower num den 2 (2 - x.exponent)
  let rounds := fun (c : Nat) =>
    if x.significand % 2 = 0 then low * num ≤ c * den ∧ c * den ≤ high * num
    else low * num < c * den ∧ c * den < high * num
  let floor := value * num / den
  match decide (rounds floor), decide (rounds (floor + 1)) with
  | true, true => some (roundQuotient (value * num) den)
  | true, false => some floor
  | false, true => some (floor + 1)
  | false, false => none

def trimZeros (digits : List Char) : List Char :=
  (digits.reverse.dropWhile (· == '0')).reverse

/-- The shortest decimal that rounds to a positive number. Seventeen digits always suffice. -/
def shortest (x : Binary64) : Decimal :=
  let point := decimalPoint x.magnitude.1 x.magnitude.2
  let found := ((List.range 17).map (· + 1)).findSome? fun count =>
    (x.gridPoint? point count).map fun c =>
      let digits := Nat.toDigits 10 c
      (⟨trimZeros digits, point + digits.length - count⟩ : Decimal)
  found.getD ⟨['0'], 1⟩

end SettingsBinding.Binary64
