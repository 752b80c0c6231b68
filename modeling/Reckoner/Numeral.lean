/-
Positional numerals.

A natural number has one numeral in each base, most significant digit first and without
leading zeros; reading digits is a left fold that accepts any number of them.
-/

namespace Reckoner.Numeral

/-! ### Digits as characters -/

/-- The character of a digit below 16, letters in upper case. -/
def digitChar (d : Nat) : Char :=
  if d < 10 then Char.ofNat ('0'.toNat + d) else Char.ofNat ('A'.toNat + (d - 10))

/-- The value of a digit or letter, whatever its case, and nothing for other characters. -/
def digitValue? (c : Char) : Option Nat :=
  if '0' ≤ c ∧ c ≤ '9' then some (c.toNat - '0'.toNat)
  else if 'A' ≤ c ∧ c ≤ 'Z' then some (c.toNat - 'A'.toNat + 10)
  else if 'a' ≤ c ∧ c ≤ 'z' then some (c.toNat - 'a'.toNat + 10)
  else none

/-- The value of a character as a digit of a base. -/
def digitIn? (base : Nat) (c : Char) : Option Nat :=
  (digitValue? c).filter (· < base)

/-! ### Writing -/

/-- The digits of a number in front of those already written; the first argument bounds the number
of steps. -/
def prepend (base : Nat) : Nat → Nat → List Nat → List Nat
  | 0, _, written => written
  | steps + 1, n, written =>
    if n = 0 then written else prepend base steps (n / base) (n % base :: written)

/-- The digits of a number, most significant first; zero has one digit. -/
def digits (base n : Nat) : List Nat :=
  if n = 0 then [0] else prepend base n n []

/-- The numeral of a number. -/
def write (base n : Nat) : List Char := (digits base n).map digitChar

/-! ### Reading -/

/-- The number that a list of digits denotes. -/
def value (base : Nat) (ds : List Nat) : Nat := ds.foldl (fun n d => n * base + d) 0

/-- The number that digit characters denote, nothing if one of them is not a digit of the base. -/
def read? (base : Nat) (cs : List Char) : Option Nat := (cs.mapM (digitIn? base)).map (value base)

end Reckoner.Numeral
