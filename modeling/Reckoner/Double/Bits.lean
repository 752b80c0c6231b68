/-
Interchange bits, and the elementary functions.

The 63 lower bits of a finite number are `shift * 2 ^ 52 + significand`: a carry out of
the significand is the next shift.  The elementary functions are the machine's own, and
are reached through the bits; nothing is known of their values here, only that equal
arguments give equal results.
-/
import Reckoner.Double.Basic

-- Powers are the built-in ones, whatever other instances are in scope.
attribute [local instance (high)] instPowNat

namespace Reckoner.Double

/-! ### Bits -/

/-- The bits below the sign for the infinities. -/
def infinityBits : Nat := 2047 * 2 ^ (52 : Nat)

/-- The sign bit. -/
def signBit (negative : Bool) : Nat := if negative then 2 ^ (63 : Nat) else 0

/-- The 64 bits of a number; the NaN is the positive quiet one. -/
def toBits : Double → UInt64
  | .nan => UInt64.ofNat (infinityBits + 2 ^ (51 : Nat))
  | .infinite negative => UInt64.ofNat (signBit negative + infinityBits)
  | .finite negative m => UInt64.ofNat (signBit negative + m.shift * 2 ^ (52 : Nat) + m.significand)

/-- The number with the given 64 bits. -/
def ofBits (bits : UInt64) : Double :=
  let negative := decide (2 ^ (63 : Nat) ≤ bits.toNat)
  let exponent := bits.toNat / 2 ^ (52 : Nat) % 2 ^ (11 : Nat)
  let fraction := bits.toNat % 2 ^ (52 : Nat)
  have fraction_lt : fraction < 2 ^ (52 : Nat) := Nat.mod_lt _ (by decide)
  if exponent = 2047 then
    if fraction = 0 then .infinite negative else .nan
  else if zero : exponent = 0 then
    .finite negative ⟨fraction, 0, by omega, by omega, Or.inr rfl⟩
  else if top : exponent - 1 ≤ 2045 then
    .finite negative ⟨2 ^ (52 : Nat) + fraction, exponent - 1, by omega, top, Or.inl (by omega)⟩
  else .infinite negative

/-! ### Elementary functions -/

/-- A number as the machine holds it. -/
def toFloat (x : Double) : Float := Float.ofBits x.toBits

/-- A machine number, exactly. -/
def ofFloat (x : Float) : Double := ofBits x.toBits

/-- The ratio of a circle's circumference to its diameter. -/
def pi : Double := 3.141592653589793

/-- The base of the natural logarithm. -/
def e : Double := 2.718281828459045

/-- The sine of an angle in radians. -/
def sin (x : Double) : Double := ofFloat x.toFloat.sin

/-- The cosine of an angle in radians. -/
def cos (x : Double) : Double := ofFloat x.toFloat.cos

/-- The tangent of an angle in radians. -/
def tan (x : Double) : Double := ofFloat x.toFloat.tan

/-- The angle in radians whose sine is given. -/
def asin (x : Double) : Double := ofFloat x.toFloat.asin

/-- The angle in radians whose cosine is given. -/
def acos (x : Double) : Double := ofFloat x.toFloat.acos

/-- The angle in radians whose tangent is given. -/
def atan (x : Double) : Double := ofFloat x.toFloat.atan

/-- The exponential function. -/
def exp (x : Double) : Double := ofFloat x.toFloat.exp

/-- The natural logarithm. -/
def ln (x : Double) : Double := ofFloat x.toFloat.log

/-- The logarithm to base ten. -/
def log10 (x : Double) : Double := ofFloat x.toFloat.log10

/-- The square root. -/
def sqrt (x : Double) : Double := ofFloat x.toFloat.sqrt

/-- The greatest integer not above a number. -/
def floor (x : Double) : Double := ofFloat x.toFloat.floor

/-- The least integer not below a number. -/
def ceil (x : Double) : Double := ofFloat x.toFloat.ceil

/-- A number raised to a power. -/
def pow (x y : Double) : Double := ofFloat (x.toFloat.pow y.toFloat)

end Reckoner.Double
