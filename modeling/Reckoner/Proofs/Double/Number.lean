/-
The rational numbers that doubles are.

A finite double is a whole number of units, and the order of doubles is the order of these
numbers; so a comparison in the format is one of rational numbers, whatever the signs and
shifts are.
-/
import Mathlib
import Reckoner.Double.Basic

namespace Reckoner

/-- A power with an integer exponent, as a fraction of two powers one of which is 1. -/
theorem zpow_eq_div (b : ℚ) (e : ℤ) : b ^ e = b ^ e.toNat / b ^ (-e).toNat := by
  rcases Int.eq_nat_or_neg e with ⟨k, rfl | rfl⟩
  · simp
  · simp

/-- Whole numbers of units that differ are a unit apart or more. -/
theorem add_unit_le_of_lt {x y : ℚ} {i j : ℤ} (hi : (i : ℚ) = x * 2 ^ 1074)
    (hj : (j : ℚ) = y * 2 ^ 1074) (h : x < y) : x + 2 ^ (-1074 : ℤ) ≤ y := by
  have hone : (0 : ℚ) < 2 ^ 1074 := by positivity
  have hunit : (2 : ℚ) ^ (-1074 : ℤ) * 2 ^ 1074 = 1 := by
    rw [← zpow_natCast, ← zpow_add₀ two_ne_zero]
    rfl
  have hlt := mul_lt_mul_of_pos_right h hone
  rw [← hi, ← hj] at hlt
  have hle : (i : ℚ) + 1 ≤ j := by exact_mod_cast hlt
  rw [hi, hj, ← hunit, ← add_mul] at hle
  exact le_of_mul_le_mul_right hle hone

/-! ### Magnitudes -/

namespace Magnitude

variable {m : Magnitude}

/-- The exact value of a magnitude. -/
def number (m : Magnitude) : ℚ := m.significand * 2 ^ ((m.shift : ℤ) - 1074)

theorem den_pos (m : Magnitude) : 0 < m.den := Nat.two_pow_pos _

theorem num_pos (h : m.significand ≠ 0) : 0 < m.num :=
  Nat.mul_pos (Nat.pos_of_ne_zero h) (Nat.two_pow_pos _)

theorem number_eq_div (m : Magnitude) : m.number = m.num / m.den := by
  have hup : ((m.shift : ℤ) - 1074).toNat = m.shift - 1074 := by omega
  have hdown : (-((m.shift : ℤ) - 1074)).toNat = 1074 - m.shift := by omega
  rw [number, zpow_eq_div, hup, hdown, num, den]
  push_cast
  rw [mul_div_assoc]

theorem number_nonneg (m : Magnitude) : 0 ≤ m.number := by
  unfold number
  positivity

theorem number_eq_zero_iff : m.number = 0 ↔ m.significand = 0 := by
  have hpos : (2 : ℚ) ^ ((m.shift : ℤ) - 1074) ≠ 0 := zpow_ne_zero _ two_ne_zero
  rw [number, mul_eq_zero, or_iff_left hpos, Nat.cast_eq_zero]

theorem number_zero : zero.number = 0 := number_eq_zero_iff.mpr rfl

theorem number_pos (h : m.significand ≠ 0) : 0 < m.number :=
  lt_of_le_of_ne m.number_nonneg (Ne.symm (mt number_eq_zero_iff.mp h))

/-- A magnitude counts its units. -/
theorem units_eq (m : Magnitude) : (m.units : ℚ) = m.number * 2 ^ 1074 := by
  have hpower : (2 : ℚ) ^ ((m.shift : ℤ) - 1074) * 2 ^ 1074 = 2 ^ m.shift := by
    rw [← zpow_natCast, ← zpow_natCast, ← zpow_add₀ two_ne_zero]
    congr 1
    omega
  rw [units, number, mul_assoc, hpower]
  push_cast
  rfl

/-- Two magnitudes are a unit apart or more. -/
theorem add_unit_le {other : Magnitude} (h : m.number < other.number) :
    m.number + 2 ^ (-1074 : ℤ) ≤ other.number :=
  add_unit_le_of_lt (i := m.units) (j := other.units) (by exact_mod_cast m.units_eq)
    (by exact_mod_cast other.units_eq) h

/-- A magnitude has no more bits than its significand and its shift together. -/
theorem units_lt {k : ℕ} (hk : 53 + m.shift ≤ k) : m.units < 2 ^ k := by
  calc m.units < 2 ^ 53 * 2 ^ m.shift :=
        Nat.mul_lt_mul_of_pos_right m.significand_lt (Nat.two_pow_pos _)
    _ = 2 ^ (53 + m.shift) := (pow_add 2 53 m.shift).symm
    _ ≤ 2 ^ k := Nat.pow_le_pow_right two_pos hk

end Magnitude

/-! ### Doubles -/

namespace Double

/-- The exact value of a finite double. -/
def number : Double → ℚ
  | .finite negative m => if negative then -m.number else m.number
  | _ => 0

theorem number_finite_false (m : Magnitude) : (Double.finite false m).number = m.number := rfl

theorem number_finite_true (m : Magnitude) : (Double.finite true m).number = -m.number := rfl

theorem abs_number_finite (negative : Bool) (m : Magnitude) :
    |(Double.finite negative m).number| = m.number := by
  cases negative with
  | false => rw [number_finite_false, abs_of_nonneg m.number_nonneg]
  | true => rw [number_finite_true, abs_neg, abs_of_nonneg m.number_nonneg]

theorem signed_eq (negative : Bool) (m : Magnitude) :
    (signed negative m : ℚ) = (Double.finite negative m).number * 2 ^ 1074 := by
  cases negative with
  | false => simp [signed, number, Magnitude.units_eq]
  | true => simp [signed, number, Magnitude.units_eq]

/-- Two finite doubles are a unit apart or more. -/
theorem number_add_unit_le {x y : Double} (hx : x.isFinite = true) (hy : y.isFinite = true)
    (h : x.number < y.number) : x.number + 2 ^ (-1074 : ℤ) ≤ y.number := by
  cases x with
  | finite s m =>
      cases y with
      | finite t n => exact add_unit_le_of_lt (signed_eq s m) (signed_eq t n) h
      | _ => cases hy
  | _ => cases hx

/-- The order of finite doubles is that of their values. -/
theorem place_le_iff {s t : Bool} {m n : Magnitude} :
    signed s m ≤ signed t n ↔ (Double.finite s m).number ≤ (Double.finite t n).number := by
  rw [← Int.cast_le (R := ℚ), signed_eq, signed_eq, mul_le_mul_iff_left₀ (by positivity)]

theorem le_iff_number_le {x y : Double} (hx : x.isFinite = true) (hy : y.isFinite = true) :
    x.le y = true ↔ x.number ≤ y.number := by
  cases x with
  | finite s m =>
      cases y with
      | finite t n => simp [le, compare, place?, place_le_iff]
      | _ => cases hy
  | _ => cases hx

theorem lt_iff_number_lt {x y : Double} (hx : x.isFinite = true) (hy : y.isFinite = true) :
    x.lt y = true ↔ x.number < y.number := by
  cases x with
  | finite s m =>
      cases y with
      | finite t n => simp [lt, compare, place?, ← not_le, place_le_iff]
      | _ => cases hy
  | _ => cases hx

/-- A double is positive if its number is. -/
theorem pos_iff {x : Double} (hx : x.isFinite = true) : 0 < x ↔ 0 < x.number := by
  have hzero : (0 : Double) = .finite false .zero := by decide +kernel
  rw [hzero]
  refine (lt_iff_number_lt rfl hx).trans ?_
  rw [number_finite_false, Magnitude.number_zero]

theorem le_zero_iff {x : Double} (hx : x.isFinite = true) : x ≤ 0.0 ↔ x.number ≤ 0 := by
  have hzero : (0.0 : Double) = .finite false .zero := by decide +kernel
  rw [hzero]
  refine (le_iff_number_le hx rfl).trans ?_
  rw [number_finite_false, Magnitude.number_zero]

theorem number_one : (1.0 : Double).number = 1 := by
  have hone : (1.0 : Double) =
      .finite false ⟨4503599627370496, 1022, by omega, by omega, by omega⟩ := by
    decide +kernel
  rw [hone, number_finite_false]
  norm_num [Magnitude.number]

/-- Every finite number has its place between the infinities. -/
theorem abs_signed_lt (negative : Bool) (m : Magnitude) : |signed negative m| < 2 ^ 2099 := by
  have hshift := m.shift_le
  have habs : |signed negative m| = m.units := by
    unfold signed
    split
    · rw [abs_neg, Nat.abs_cast]
    · rw [Nat.abs_cast]
  rw [habs]
  exact_mod_cast Magnitude.units_lt (by omega : 53 + m.shift ≤ 2099)

/-- A finite number lies between the infinities. -/
theorem infinite_le {x : Double} (hx : x.isFinite = true) : .infinite true ≤ x := by
  cases x with
  | finite s m => exact decide_eq_true (abs_lt.mp (abs_signed_lt s m)).1.le
  | _ => cases hx

theorem le_infinite {x : Double} (hx : x.isFinite = true) : x ≤ .infinite false := by
  cases x with
  | finite s m => exact decide_eq_true (abs_lt.mp (abs_signed_lt s m)).2.le
  | _ => cases hx

/-- What lies between finite numbers is finite. -/
theorem isFinite_of_between {lo hi x : Double} (hlo : lo.isFinite = true) (hhi : hi.isFinite = true)
    (h : lo.le x = true) (h' : x.le hi = true) : x.isFinite = true := by
  cases lo with
  | finite s m =>
      cases hi with
      | finite t n =>
          have hm := abs_lt.mp (abs_signed_lt s m)
          have hn := abs_lt.mp (abs_signed_lt t n)
          cases x with
          | nan => cases h
          | infinite negative =>
              simp only [le, compare, place?, decide_eq_true_eq] at h h'
              cases negative with
              | false => exact absurd h' (not_le.mpr hn.2)
              | true => exact absurd h (not_le.mpr hm.1)
          | finite _ _ => rfl
      | _ => cases hhi
  | _ => cases hlo

end Double

end Reckoner
