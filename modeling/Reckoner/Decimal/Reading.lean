/-
Reading decimal numerals.

A numeral is a sign, digits with at most one point among them, and an exponent; each part
but the digits may be absent.  Its value is the double-precision number nearest to the
number it denotes, however many digits it has.
-/
import Reckoner.Double.Basic
import Reckoner.Numeral

namespace Reckoner

/-- A decimal numeral in its parts. -/
structure DecimalNumeral where
  /-- Whether there is a minus sign. -/
  negative : Bool
  /-- The digits before the point. -/
  whole : List Char
  /-- The digits after the point. -/
  fraction : List Char
  /-- The power of ten by which the number is scaled. -/
  exponent : Int
  deriving DecidableEq, Repr

namespace DecimalNumeral

/-- The number that decimal digits denote. -/
def natOf (ds : List Char) : Nat := Numeral.value 10 (ds.map fun c => c.toNat - '0'.toNat)

/-- The number nearest to a numeral. -/
def toDouble (n : DecimalNumeral) : Double :=
  Double.ofDecimal n.negative (natOf (n.whole ++ n.fraction)) (n.exponent - n.fraction.length)

/-! ### Parts -/

/-- An optional sign, and what follows it. -/
def readSign : List Char → Bool × List Char
  | '+' :: rest => (false, rest)
  | '-' :: rest => (true, rest)
  | rest => (false, rest)

/-- The digits before and after the point, and what follows them; there is at least one digit. -/
def readDigits? (cs : List Char) : Option (List Char × List Char × List Char) :=
  let whole := cs.takeWhile Char.isDigit
  match cs.dropWhile Char.isDigit with
  | '.' :: rest =>
    let fraction := rest.takeWhile Char.isDigit
    if whole.isEmpty && fraction.isEmpty then none
    else some (whole, fraction, rest.dropWhile Char.isDigit)
  | rest => if whole.isEmpty then none else some (whole, [], rest)

/-- An exponent, and what follows it; a letter without digits is no exponent. -/
def readExponent? : List Char → Option (Int × List Char)
  | c :: rest =>
    if c = 'e' ∨ c = 'E' then
      let (negative, digits) := readSign rest
      let ds := digits.takeWhile Char.isDigit
      if ds.isEmpty then none
      else
        some (if negative then -(natOf ds : Int) else natOf ds, digits.dropWhile Char.isDigit)
    else none
  | [] => none

/-- The longest numeral at the start of a text, and what follows it. -/
def readPrefix? (cs : List Char) : Option (DecimalNumeral × List Char) := do
  let (negative, unsigned) := readSign cs
  let (whole, fraction, rest) ← readDigits? unsigned
  match readExponent? rest with
  | some (exponent, rest) => some (⟨negative, whole, fraction, exponent⟩, rest)
  | none => some (⟨negative, whole, fraction, 0⟩, rest)

/-- A text that is a numeral as a whole. -/
def read? (cs : List Char) : Option DecimalNumeral :=
  match readPrefix? cs with
  | some (n, []) => some n
  | _ => none

/-! ### Spans

The same parts as pieces of the text, for readers that have more than one class of digits or need
the text of what they read. -/

/-- A text split after the sign at its start, if there is one. -/
def spanSign : List Char → List Char × List Char
  | '+' :: rest => (['+'], rest)
  | '-' :: rest => (['-'], rest)
  | rest => ([], rest)

/-- A text split after the exponent at its start, if there is one. -/
def spanExponent (isDigit : Char → Bool) : List Char → List Char × List Char
  | [] => ([], [])
  | c :: rest =>
    let (sign, digits) := spanSign rest
    if (c = 'e' ∨ c = 'E') ∧ (digits.takeWhile isDigit) ≠ [] then
      (c :: sign ++ digits.takeWhile isDigit, digits.dropWhile isDigit)
    else ([], c :: rest)

end DecimalNumeral

/-- A number from its text: a numeral, or a word for infinity or the NaN in any letter case, after
an optional sign. -/
def Double.ofText? (cs : List Char) : Option Double :=
  let (negative, unsigned) := DecimalNumeral.readSign cs
  let word := String.ofList (unsigned.map Char.toLower)
  if word = "inf" ∨ word = "infinity" then some (.infinite negative)
  else if word = "nan" then some .nan
  else (DecimalNumeral.read? cs).map DecimalNumeral.toDouble

end Reckoner
