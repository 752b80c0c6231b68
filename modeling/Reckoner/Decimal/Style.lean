/-
Styles of writing numbers in full.

Every style writes the shortest digits that read back.  They differ in when an exponent is
used, in whether an integer keeps a point, in the sign of a positive exponent and in the
choice between two equally near decimals.
-/
import Reckoner.Decimal.Shortest

namespace Reckoner

/-- How a kind of output writes numbers. -/
structure NumberStyle where
  /-- The choice between two equally near decimals. -/
  tie : Decimal.Tie
  /-- The exponents `lo ≤ e < hi` of the first digit that are written plainly; all of them, if
  none are given. -/
  plainRange : Option (Int × Int)
  /-- Whether an integer in plain notation ends in `.0`. -/
  pointZero : Bool
  /-- Whether a positive exponent has a sign. -/
  plus : Bool

namespace NumberStyle

/-- Whether a decimal is written plainly. -/
def isPlain (style : NumberStyle) (d : Decimal) : Bool :=
  match style.plainRange with
  | none => true
  | some (lo, hi) => decide (lo ≤ d.leadingExponent ∧ d.leadingExponent < hi)

/-- The digits of a magnitude. -/
def magnitudeChars (style : NumberStyle) (m : Magnitude) : List Char :=
  if m.significand = 0 then Decimal.plain style.pointZero ⟨0, 0⟩
  else
    let d := Decimal.shortest style.tie m
    if style.isPlain d then d.plain style.pointZero else d.scientific style.plus 0

/-- The text of a number; zero keeps its sign. -/
def text (style : NumberStyle) : Double → String
  | .nan => "NaN"
  | .infinite negative => if negative then "-inf" else "inf"
  | .finite negative m =>
    String.ofList ((if negative then ['-'] else []) ++ style.magnitudeChars m)

end NumberStyle

end Reckoner
