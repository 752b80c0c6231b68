/-
Quantities as they are written: a number with a unit.

The number comes first, with or without blanks before the unit (`12 km`, `12km`), or last
and then set off by blanks (`km 12`).  A comma counts as a point.  In the first form the
unit starts with no digit, sign or point, and an exponent belongs to the number only if a
unit is left after it.
-/
import Reckoner.Decimal.Reading
import Reckoner.Text.Blank
import Reckoner.Text.DecimalDigit

namespace Reckoner

/-- A value and the text of its unit, which is not looked up. -/
structure Quantity where
  value : Double
  unit : String
  deriving DecidableEq

/-- Why a text is no quantity. -/
inductive QuantityError where
  /-- There is nothing but blanks. -/
  | empty
  /-- The text, blanks at its ends aside, has neither of the two forms. -/
  | unreadable (text : String)
  deriving DecidableEq, Repr

/-- The text of the error. -/
def QuantityError.message : QuantityError → String
  | empty => "Empty text"
  | unreadable text => "Could not parse quantity from text: " ++ text

namespace Quantity

/-! ### The number in front

Digits of any script are recognised here, so that a number is never cut in two; one that
has other digits than ASCII ones has no value. -/

/-- A text split after its leading digits. -/
def spanDigits (cs : List Char) : List Char × List Char := cs.span Text.isDecimalDigit

/-- A text split after the digits and the point at its start; at least one digit is needed. -/
def spanMantissa? (cs : List Char) : Option (List Char × List Char) :=
  match spanDigits cs with
  | ([], '.' :: rest) =>
    match spanDigits rest with
    | ([], _) => none
    | (fraction, rest) => some ('.' :: fraction, rest)
  | ([], _) => none
  | (whole, '.' :: rest) =>
    let (fraction, rest) := spanDigits rest
    some (whole ++ '.' :: fraction, rest)
  | (whole, rest) => some (whole, rest)

/-- Whether a unit may start with a character when a number stands before it. -/
def startsUnit (c : Char) : Bool :=
  !Text.isDecimalDigit c && !Text.isBlank c && c != '.' && c != '+' && c != '-'

/-- The unit after a number and blanks; it stays on one line. -/
def unitAfter? (cs : List Char) : Option (List Char) :=
  match cs.dropWhile Text.isBlank with
  | [] => none
  | c :: rest => if startsUnit c && '\n' ∉ rest then some (c :: rest) else none

/-- A text split into a number and the unit after it, with the longest number that leaves a unit. -/
def numberFirst? (cs : List Char) : Option (List Char × List Char) := do
  let (sign, unsigned) := DecimalNumeral.spanSign cs
  let (mantissa, rest) ← spanMantissa? unsigned
  let (exponent, afterExponent) := DecimalNumeral.spanExponent Text.isDecimalDigit rest
  ((unitAfter? afterExponent).map (sign ++ mantissa ++ exponent, ·)) <|>
    ((unitAfter? rest).map (sign ++ mantissa, ·))

/-! ### The number at the end -/

/-- A text split into a unit and the number after its last blanks. -/
def numberLast? (cs : List Char) : Option (List Char × List Char) :=
  let number := (cs.reverse.takeWhile fun c => !Text.isBlank c).reverse
  let unit := Text.trimEnd (cs.take (cs.length - number.length))
  if unit.isEmpty || '\n' ∈ unit then none else some (number, unit)

/-! ### Both forms -/

/-- A split text as a quantity, if the number has a value. -/
def ofParts? (parts : List Char × List Char) : Option Quantity := do
  let n ← DecimalNumeral.read? parts.1
  return ⟨n.toDouble, String.ofList (Text.trimChars parts.2)⟩

/-- A text as a quantity. -/
def read (text : String) : Except QuantityError Quantity :=
  let trimmed := Text.trimChars text.toList
  if trimmed.isEmpty then .error .empty
  else
    let cs := trimmed.map fun c => if c = ',' then '.' else c
    match (numberFirst? cs).bind ofParts? <|> (numberLast? cs).bind ofParts? with
    | some q => .ok q
    | none => .error (.unreadable (String.ofList trimmed))

end Quantity

end Reckoner
