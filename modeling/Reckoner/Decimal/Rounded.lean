/-
Decimals with a fixed number of digits.

The exact value of a number is rounded once, to a given number of places after the point
or to a given number of significant digits; a half goes to the even digit.
-/
import Reckoner.Decimal.Shortest

-- Powers are the built-in ones, whatever other instances are in scope.
attribute [local instance (high)] instPowNat

namespace Reckoner.Decimal

/-- A magnitude rounded to a number of places after the point. -/
def fixed (places : Nat) (m : Magnitude) : Decimal :=
  ⟨divNearest (m.num * 10 ^ places) m.den, -(places : Int)⟩

/-- A positive magnitude rounded to a number of significant digits; a carry past the first digit
starts a new decade. -/
def significant (count : Nat) (m : Magnitude) : Decimal :=
  let exponent := firstExponent m.num m.den - (count - 1 : Nat)
  let n := divNearest (m.num * 10 ^ (-exponent).toNat) (m.den * 10 ^ exponent.toNat)
  if n = 10 ^ count then ⟨10 ^ (count - 1), exponent + 1⟩ else ⟨n, exponent⟩

end Reckoner.Decimal
