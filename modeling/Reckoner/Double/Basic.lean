/-
Double-precision numbers, exactly.

A finite number of the format is a whole number of units, a unit being `2^-1074`, so
the arithmetic of the format is the arithmetic of integers followed by one rounding.
`Double.round` is that rounding; addition, subtraction, multiplication, division and
the reading of decimal numerals are all defined by it.  There is one NaN, since no
part of the library tells two of them apart.
-/
import Reckoner.Rounding

-- Powers are the built-in ones, whatever other instances are in scope.
attribute [local instance (high)] instPowNat

namespace Reckoner

/-! ### Magnitudes -/

/-- The absolute value of a finite number: `significand * 2 ^ shift` units. -/
structure Magnitude where
  /-- The leading bits of the value. -/
  significand : Nat
  /-- The power of two by which the significand is scaled. -/
  shift : Nat
  /-- A significand has at most 53 bits. -/
  significand_lt : significand < 2 ^ (53 : Nat)
  /-- Larger shifts are beyond the range of the format. -/
  shift_le : shift ≤ 2045
  /-- Only the smallest numbers have fewer than 53 bits, so no value is written twice. -/
  normal : 2 ^ (52 : Nat) ≤ significand ∨ shift = 0
  deriving DecidableEq

namespace Magnitude

/-- Zero. -/
def zero : Magnitude := ⟨0, 0, by decide, by decide, Or.inr rfl⟩

instance : Inhabited Magnitude := ⟨zero⟩

/-- The number of units in a magnitude. -/
def units (m : Magnitude) : Nat := m.significand * 2 ^ m.shift

/-- The numerator of a magnitude as a fraction. -/
def num (m : Magnitude) : Nat := m.significand * 2 ^ (m.shift - 1074)

/-- The denominator of a magnitude as a fraction, a power of two. -/
def den (m : Magnitude) : Nat := 2 ^ (1074 - m.shift)

end Magnitude

/-- A double-precision number. -/
inductive Double where
  /-- The outcome of an operation without a value. -/
  | nan
  /-- An infinity, by its sign. -/
  | infinite (negative : Bool)
  /-- A finite number, by its sign and magnitude; zero has both signs. -/
  | finite (negative : Bool) (magnitude : Magnitude)
  deriving DecidableEq

namespace Double

/-- The number of units in 1. -/
def unitsPerOne : Nat := 2 ^ (1074 : Nat)

/-- Zero with the given sign. -/
def zero (negative : Bool) : Double := .finite negative .zero

instance : Inhabited Double := ⟨zero false⟩

/-! ### Rounding -/

/-- The shift at which `num / den` units have a significand of at most 53 bits. -/
def shiftFor (num den : Nat) : Nat := Nat.log2 (num / den) - 52

/-- The significand of `num / den` units at the shift chosen for them, rounded. -/
def significandFor (num den : Nat) : Nat := divNearest num (den * 2 ^ shiftFor num den)

/-- Rounding reaches 53 bits at most by a carry. -/
theorem significandFor_le (num den : Nat) : significandFor num den ≤ 2 ^ (53 : Nat) := by
  have h1 := divNearest_le num (den * 2 ^ shiftFor num den)
  have h2 : num / (den * 2 ^ shiftFor num den) < 2 ^ (53 : Nat) := by
    rw [← Nat.div_div_eq_div_mul]
    apply Nat.div_lt_of_lt_mul
    rw [← Nat.pow_add]
    by_cases h0 : num / den = 0
    · rw [h0]
      exact Nat.two_pow_pos _
    · rw [← Nat.log2_lt h0, shiftFor]
      omega
  unfold significandFor
  omega

/-- Above the smallest shift all 53 bits are used. -/
theorem significandFor_normal (num den : Nat) :
    2 ^ (52 : Nat) ≤ significandFor num den ∨ shiftFor num den = 0 := by
  by_cases hs : shiftFor num den = 0
  · exact Or.inr hs
  · refine Or.inl (Nat.le_trans ?_ (div_le_divNearest _ _))
    rw [← Nat.div_div_eq_div_mul, Nat.le_div_iff_mul_le (Nat.two_pow_pos _), ← Nat.pow_add]
    have h0 : num / den ≠ 0 := by
      intro h
      rw [shiftFor, h] at hs
      exact hs (by decide)
    rw [← Nat.le_log2 h0]
    rw [shiftFor] at hs ⊢
    omega

/-- The number nearest to `num / den` units, of two the one with an even significand, and
an infinity when the exponent range is exceeded. -/
def round (negative : Bool) (num den : Nat) : Double :=
  if carry : significandFor num den = 2 ^ (53 : Nat) then
    if range : shiftFor num den + 1 ≤ 2045 then
      .finite negative
        ⟨2 ^ (52 : Nat), shiftFor num den + 1, by decide, range, Or.inl (Nat.le_refl _)⟩
    else .infinite negative
  else if range : shiftFor num den ≤ 2045 then
    .finite negative ⟨significandFor num den, shiftFor num den,
      Nat.lt_of_le_of_ne (significandFor_le num den) carry, range, significandFor_normal num den⟩
  else .infinite negative

/-- The number nearest to the quotient `num / den`. -/
def ofRatio (negative : Bool) (num den : Nat) : Double :=
  round negative (num * unitsPerOne) den

/-! ### Signs and classes -/

/-- Whether the sign is minus, for a NaN no. -/
def isNegative : Double → Bool
  | .nan => false
  | .infinite negative => negative
  | .finite negative _ => negative

/-- Whether a value is neither infinite nor a NaN. -/
def isFinite : Double → Bool
  | .finite _ _ => true
  | _ => false

/-- Whether a value is the NaN. -/
def isNaN : Double → Bool
  | .nan => true
  | _ => false

/-- Whether a value is zero, of either sign. -/
def isZero : Double → Bool
  | .finite _ m => m.significand == 0
  | _ => false

/-- A value with its sign reversed. -/
def neg : Double → Double
  | .nan => .nan
  | .infinite negative => .infinite (!negative)
  | .finite negative m => .finite (!negative) m

/-- A value without its sign. -/
def abs : Double → Double
  | .nan => .nan
  | .infinite _ => .infinite false
  | .finite _ m => .finite false m

/-- The signed number of units of a finite number. -/
def signed (negative : Bool) (m : Magnitude) : Int :=
  if negative then -(m.units : Int) else m.units

/-! ### Arithmetic -/

/-- The sum, rounded; an exact zero is negative only when both terms are. -/
def add : Double → Double → Double
  | .nan, _ => .nan
  | _, .nan => .nan
  | .infinite s, .infinite t => if s = t then .infinite s else .nan
  | .infinite s, .finite _ _ => .infinite s
  | .finite _ _, .infinite t => .infinite t
  | .finite s m, .finite t n =>
    let sum := signed s m + signed t n
    if sum = 0 then zero (s && t) else round (decide (sum < 0)) sum.natAbs 1

/-- The difference, rounded. -/
def sub (x y : Double) : Double := add x (neg y)

/-- The product, rounded. -/
def mul : Double → Double → Double
  | .nan, _ => .nan
  | _, .nan => .nan
  | .infinite s, .infinite t => .infinite (s ^^ t)
  | .infinite s, .finite t n => if n.significand = 0 then .nan else .infinite (s ^^ t)
  | .finite s m, .infinite t => if m.significand = 0 then .nan else .infinite (s ^^ t)
  | .finite s m, .finite t n => round (s ^^ t) (m.units * n.units) unitsPerOne

/-- The quotient, rounded; a non-zero number over zero is infinite. -/
def div : Double → Double → Double
  | .nan, _ => .nan
  | _, .nan => .nan
  | .infinite _, .infinite _ => .nan
  | .infinite s, .finite t _ => .infinite (s ^^ t)
  | .finite s _, .infinite t => zero (s ^^ t)
  | .finite s m, .finite t n =>
    if n.significand = 0 then
      if m.significand = 0 then .nan else .infinite (s ^^ t)
    else round (s ^^ t) (m.units * unitsPerOne) n.units

instance : Neg Double := ⟨neg⟩
instance : Add Double := ⟨add⟩
instance : Sub Double := ⟨sub⟩
instance : Mul Double := ⟨mul⟩
instance : Div Double := ⟨div⟩

/-! ### Order -/

/-- A number's place in the order; both zeros share one, and a NaN has none. -/
def place? : Double → Option Int
  | .nan => none
  | .infinite negative => some (if negative then -(2 ^ (2099 : Nat)) else 2 ^ (2099 : Nat))
  | .finite negative m => some (signed negative m)

/-- Whether both values are numbers and stand in the relation `r`. -/
def compare (r : Int → Int → Bool) (x y : Double) : Bool :=
  match x.place?, y.place? with
  | some a, some b => r a b
  | _, _ => false

/-- Whether both are numbers and the first is less. -/
def lt (x y : Double) : Bool := compare (fun a b => decide (a < b)) x y

/-- Whether both are numbers and the first is at most the second. -/
def le (x y : Double) : Bool := compare (fun a b => decide (a ≤ b)) x y

/-- Whether both are numbers and equal, the sign of zero aside. -/
def eq (x y : Double) : Bool := compare (fun a b => decide (a = b)) x y

instance : LT Double := ⟨fun x y => lt x y = true⟩
instance : LE Double := ⟨fun x y => le x y = true⟩
instance (x y : Double) : Decidable (x < y) := inferInstanceAs (Decidable (lt x y = true))
instance (x y : Double) : Decidable (x ≤ y) := inferInstanceAs (Decidable (le x y = true))

/-! ### Decimal numerals -/

/-- The number nearest to `digits * 10 ^ exponent`.

Beyond `10 ^ 400` everything is infinite and below `10 ^ -400` zero, so an exponent far out of
the range of the format is settled without the power of ten. -/
def ofDecimal (negative : Bool) (digits : Nat) (exponent : Int) : Double :=
  if digits = 0 then zero negative
  else if 400 < exponent then .infinite negative
  else if exponent + (Nat.log2 digits : Int) < -400 then zero negative
  else if 0 ≤ exponent then ofRatio negative (digits * 10 ^ exponent.toNat) 1
  else ofRatio negative digits (10 ^ (-exponent).toNat)

/-- The number nearest to a natural number. -/
def ofNat (n : Nat) : Double := round false (n * unitsPerOne) 1

instance : OfScientific Double :=
  ⟨fun digits negativeExponent exponent =>
    ofDecimal false digits (if negativeExponent then -(exponent : Int) else exponent)⟩

instance (n : Nat) : OfNat Double n := ⟨ofNat n⟩

end Double

end Reckoner
