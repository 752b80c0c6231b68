/-
Amounts as they are shown.

Results are shown with six places after the point or, when that would be too coarse or too
long, with six significant digits.  Zeros at the end of a fraction are never shown, and
neither is a point with nothing after it.
-/
import Reckoner.Decimal.Rounded
import Reckoner.Decimal.Style

namespace Reckoner.Amount

/-- A text without the zeros at the end of its fraction; without a point nothing is removed. -/
def stripZeros (cs : List Char) : List Char :=
  if '.' ∈ cs then
    let shorter := (cs.reverse.dropWhile (· == '0')).reverse
    (shorter.reverse.dropWhile (· == '.')).reverse
  else cs

/-- Six significant digits, with an exponent of two digits or more if the first digit is below the
fourth place after the point or above the sixth before it. -/
def general (m : Magnitude) : List Char :=
  let d := Decimal.significant 6 m
  let exponent := d.leadingExponent
  if exponent < -4 ∨ 6 ≤ exponent then
    let mantissa := Decimal.plain false ⟨d.digits, -5⟩
    stripZeros mantissa ++ 'e' :: Decimal.exponentChars true 2 exponent
  else stripZeros (Decimal.plain false (Decimal.fixed (5 - exponent).toNat m))

/-- Magnitudes from 0.001 up to a million are shown with fixed places. -/
def isEveryday (m : Magnitude) : Bool :=
  (0.001 : Double).le (.finite false m) && (Double.finite false m).lt 1000000.0

/-- The digits of an amount without its sign. -/
def magnitudeChars (m : Magnitude) : List Char :=
  if isEveryday m then stripZeros (Decimal.plain false (Decimal.fixed 6 m)) else general m

/-- The text of an amount; zero has no sign. -/
def text : Double → String
  | .nan => "NaN"
  | .infinite negative => if negative then "-inf" else "inf"
  | .finite negative m =>
    if m.significand = 0 then "0"
    else String.ofList ((if negative then ['-'] else []) ++ magnitudeChars m)

end Reckoner.Amount
