/-
The shortest decimal that reads back.

The decimals that are rounded to a given number fill an interval around it, reaching
half-way to its neighbours; the ends belong to it when the significand is even.  Of the
decimals in the interval one with the fewest digits is chosen, and of those the nearest.
For each number of digits it is enough to look at the two neighbours on the grid of
decimals with that many digits.
-/
import Reckoner.Double.Basic
import Reckoner.Decimal.Basic

-- Powers are the built-in ones, whatever other instances are in scope.
attribute [local instance (high)] instPowNat

namespace Reckoner.Decimal

/-- Which of two equally near decimals is chosen. -/
inductive Tie where
  /-- The larger one. -/
  | up
  /-- The one whose last digit is even. -/
  | even
  deriving DecidableEq

/-! ### The interval of a number

Both ends are fractions over four times the magnitude's denominator, since an end is half or a
quarter of the last bit away from the number; they are given by their numerators. -/

/-- The numerator of the lower end; below a power of two numbers are twice as dense. -/
def lowerEnd (m : Magnitude) : Nat :=
  if m.significand = 2 ^ (52 : Nat) ∧ 0 < m.shift then
    (4 * m.significand - 1) * 2 ^ (m.shift - 1074)
  else (4 * m.significand - 2) * 2 ^ (m.shift - 1074)

/-- The numerator of the upper end. -/
def upperEnd (m : Magnitude) : Nat := (4 * m.significand + 2) * 2 ^ (m.shift - 1074)

/-- Whether the decimal `n * (up / down)` is rounded to the magnitude. -/
def readsBack (m : Magnitude) (up down n : Nat) : Bool :=
  let point := n * up * (4 * m.den)
  if m.significand % 2 = 0 then
    decide (lowerEnd m * down ≤ point ∧ point ≤ upperEnd m * down)
  else decide (lowerEnd m * down < point ∧ point < upperEnd m * down)

/-! ### The search -/

/-- The power of ten of the first digit of `num / den`. -/
def firstExponent (num den : Nat) : Int :=
  let guess : Int := ((Numeral.digits 10 num).length : Int) - ((Numeral.digits 10 den).length : Int)
  if den * 10 ^ guess.toNat ≤ num * 10 ^ (-guess).toNat then guess else guess - 1

/-- The nearer of the grid neighbours of a magnitude that read back, if one does; the grid has
spacing `10 ^ exponent`. -/
def onGrid? (tie : Tie) (m : Magnitude) (exponent : Int) : Option Decimal :=
  let up := 10 ^ exponent.toNat
  let down := 10 ^ (-exponent).toNat
  let spacing := up * m.den
  let below := m.num * down / spacing
  let twiceRest := 2 * (m.num * down % spacing)
  let belowNearer :=
    decide (twiceRest < spacing) ||
      (decide (twiceRest = spacing) && decide (tie = .even) && below % 2 == 0)
  match readsBack m up down below, readsBack m up down (below + 1) with
  | true, true => some ⟨if belowNearer then below else below + 1, exponent⟩
  | true, false => some ⟨below, exponent⟩
  | false, true => some ⟨below + 1, exponent⟩
  | false, false => none

/-- The shortest decimal that is rounded to a positive magnitude; 17 digits always suffice. -/
def shortest (tie : Tie) (m : Magnitude) : Decimal :=
  let first := firstExponent m.num m.den
  let found := (List.range 17).findSome? fun (more : Nat) => onGrid? tie m (first - more)
  (found.getD ⟨0, 0⟩).normalize

end Reckoner.Decimal
