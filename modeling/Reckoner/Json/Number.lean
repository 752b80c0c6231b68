/-
Reading JSON numbers.

A number's digits are first found by the grammar and then given a value.  Digits are
collected into a 64-bit significand; those that no longer fit only count for the exponent,
or for nothing if they stand after the point.  The significand is then scaled by one power
of ten.  That is fast and almost always the nearest number, but not for numerals of many
digits, and a number beyond the range is refused.
-/
import Reckoner.Decimal.Reading
import Reckoner.Json.Value

-- Powers are the built-in ones, whatever other instances are in scope.
attribute [local instance (high)] instPowNat

namespace Reckoner

/-- The parts of a JSON number. -/
structure JsonNumeral where
  negative : Bool
  whole : List Char
  /-- The digits after the point, if there is one. -/
  fraction : Option (List Char)
  /-- The exponent, if there is one. -/
  exponent : Option Int
  deriving DecidableEq

namespace JsonNumeral

/-! ### Grammar -/

/-- A text split after its leading digits, of which there is at least one. -/
def readDigits? (cs : List Char) : Option (List Char × List Char) :=
  let ds := cs.takeWhile Char.isDigit
  if ds.isEmpty then none else some (ds, cs.dropWhile Char.isDigit)

/-- The fraction at the start of a text, if there is a point. -/
def readFraction? : List Char → Option (Option (List Char) × List Char)
  | '.' :: cs => (readDigits? cs).map fun (ds, rest) => (some ds, rest)
  | cs => some (none, cs)

/-- The exponent at the start of a text, if there is a letter for one. -/
def readExponent? : List Char → Option (Option Int × List Char)
  | [] => some (none, [])
  | c :: cs =>
    if c = 'e' ∨ c = 'E' then
      let (negative, digits) := DecimalNumeral.readSign cs
      (readDigits? digits).map fun (ds, rest) =>
        let n : Int := DecimalNumeral.natOf ds
        (some (if negative then -n else n), rest)
    else some (none, c :: cs)

/-- The number without its sign at the start of a text, and what follows it; only a lone zero starts
with zero. -/
def readUnsigned? (negative : Bool) (cs : List Char) : Option (JsonNumeral × List Char) := do
  let (whole, rest) ← readDigits? cs
  if whole.head? = some '0' ∧ whole.length ≠ 1 then none
  else
    let (fraction, rest) ← readFraction? rest
    let (exponent, rest) ← readExponent? rest
    return (⟨negative, whole, fraction, exponent⟩, rest)

/-- The number at the start of a text, and what follows it. -/
def read? : List Char → Option (JsonNumeral × List Char)
  | '-' :: cs => readUnsigned? true cs
  | cs => readUnsigned? false cs

/-! ### Value -/

/-- A significand of 64 bits and the power of ten by which it is scaled. -/
structure Scaled where
  significand : Nat
  exponent : Int
  /-- Whether a digit did not fit. -/
  full : Bool

/-- The significand with one more digit, if it fits. -/
def Scaled.append? (s : Scaled) (c : Char) : Option Nat :=
  let n := s.significand * 10 + (c.toNat - '0'.toNat)
  if !s.full && n < 2 ^ (64 : Nat) then some n else none

/-- Takes in a digit before the point. -/
def Scaled.addWhole (s : Scaled) (c : Char) : Scaled :=
  match s.append? c with
  | some n => { s with significand := n }
  | none => { s with exponent := s.exponent + 1, full := true }

/-- Takes in a digit after the point. -/
def Scaled.addFraction (s : Scaled) (c : Char) : Scaled :=
  match s.append? c with
  | some n => { s with significand := n, exponent := s.exponent - 1 }
  | none => { s with full := true }

/-- The powers of ten that are applied in one step. -/
def tenTo (n : Nat) : Double := .ofDecimal false 1 n

/-- A number scaled by a power of ten, nothing if it gets too large. Steps of `10 ^ -308` lead to
zero before the allowed number of them is used up. -/
def scale? : Nat → Double → Int → Option Double
  | 0, v, _ => some v
  | steps + 1, v, exponent =>
    if exponent.natAbs ≤ 308 then
      let scaled := if 0 ≤ exponent then v * tenTo exponent.natAbs else v / tenTo exponent.natAbs
      if scaled.isFinite then some scaled else none
    else if v.isZero then some v
    else if 0 ≤ exponent then none
    else scale? steps (v / tenTo 308) (exponent + 308)

/-- The value of a number, nothing if it is out of range. -/
def value? (n : JsonNumeral) : Option JsonNumber :=
  let whole := n.whole.foldl Scaled.addWhole ⟨0, 0, false⟩
  let signed (v : Double) : Double := if n.negative then -v else v
  if n.fraction = none ∧ n.exponent = none ∧ whole.full = false then
    if n.negative then
      if 0 < whole.significand ∧ whole.significand ≤ 2 ^ (63 : Nat) then
        some (.negative whole.significand)
      else some (.float (-.ofNat whole.significand))
    else some (.natural whole.significand)
  else
    let s := (n.fraction.getD []).foldl Scaled.addFraction { whole with full := false }
    let exponent := s.exponent + n.exponent.getD 0
    (scale? 4 (.ofNat s.significand) exponent).map fun v => .float (signed v)

end JsonNumeral

end Reckoner
