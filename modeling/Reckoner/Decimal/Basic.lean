/-
Decimal numbers and how they are written.

A positive decimal is a whole number of powers of ten.  It is written either plainly,
with zeros up to the point, or with one digit before the point and an exponent; which of
the two, and the details of each, are decided by the style of the output at hand.
-/
import Reckoner.Numeral

namespace Reckoner

/-- The number `digits * 10 ^ exponent`. -/
structure Decimal where
  /-- The digits, read as one number. -/
  digits : Nat
  /-- The power of ten of the last digit. -/
  exponent : Int
  deriving DecidableEq, Repr, Inhabited

namespace Decimal

/-- A number's digits without the zeros at its end, and how many there were; the first argument
bounds the number of steps. -/
def dropZeros : Nat → Nat → Nat → Nat × Nat
  | 0, n, dropped => (n, dropped)
  | steps + 1, n, dropped =>
    if n % 10 = 0 then dropZeros steps (n / 10) (dropped + 1) else (n, dropped)

/-- The same number with no zero as its last digit. -/
def normalize (d : Decimal) : Decimal :=
  let (n, dropped) := dropZeros (Nat.log2 d.digits) d.digits 0
  ⟨n, d.exponent + dropped⟩

/-- The digits as characters. -/
def digitChars (d : Decimal) : List Char := Numeral.write 10 d.digits

/-- The power of ten of the first digit. -/
def leadingExponent (d : Decimal) : Int := d.exponent + (d.digitChars.length - 1 : Nat)

/-! ### The two notations -/

/-- Plain notation; an integer ends in `.0` if asked for. -/
def plain (pointZero : Bool) (d : Decimal) : List Char :=
  let ds := d.digitChars
  if 0 ≤ d.exponent then
    ds ++ List.replicate d.exponent.toNat '0' ++ (if pointZero then ['.', '0'] else [])
  else
    let places := (-d.exponent).toNat
    if places < ds.length then
      ds.take (ds.length - places) ++ '.' :: ds.drop (ds.length - places)
    else '0' :: '.' :: List.replicate (places - ds.length) '0' ++ ds

/-- An exponent; a positive one carries a sign if asked for, and short ones are padded with
zeros. -/
def exponentChars (plus : Bool) (width : Nat) (e : Int) : List Char :=
  let ds := Numeral.write 10 e.natAbs
  (if e < 0 then ['-'] else if plus then ['+'] else []) ++
    List.replicate (width - ds.length) '0' ++ ds

/-- One digit before the point, and an exponent. -/
def scientific (plus : Bool) (width : Nat) (d : Decimal) : List Char :=
  let mantissa := match d.digitChars with
    | [] => []
    | [c] => [c]
    | c :: rest => c :: '.' :: rest
  mantissa ++ 'e' :: exponentChars plus width d.leadingExponent

end Decimal

end Reckoner
