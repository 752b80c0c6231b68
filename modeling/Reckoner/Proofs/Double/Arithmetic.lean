/-
Arithmetic on doubles as rounded arithmetic of rational numbers.

Each operation rounds its exact result once, and so does the reading of a decimal, also where it
settles numbers far out of the range by their size alone.
-/
import Reckoner.Proofs.Double.Rounding

namespace Reckoner.Double

/-! ### Units and signs -/

section Units

-- Powers are the built-in ones, as in the number of units itself.
attribute [local instance (high)] instPowNat

theorem cast_eq_two_pow {n k : ℕ} (h : n = 2 ^ k) : (n : ℚ) = 2 ^ k := by
  rw [h]
  push_cast
  rfl

theorem unitsPerOne_eq : (unitsPerOne : ℚ) = 2 ^ 1074 := cast_eq_two_pow (by rw [unitsPerOne])

theorem unitsPerOne_pos : 0 < unitsPerOne := by
  have h : (0 : ℚ) < unitsPerOne := by
    rw [unitsPerOne_eq]
    positivity
  exact_mod_cast h

end Units

theorem units_pos {m : Magnitude} (h : m.significand ≠ 0) : 0 < m.units :=
  Nat.mul_pos (Nat.pos_of_ne_zero h) (Nat.two_pow_pos _)

theorem signOf_number (negative : Bool) (m : Magnitude) :
    SignOf negative (Double.finite negative m).number := by
  cases negative with
  | false => exact m.number_nonneg
  | true => exact neg_nonpos.mpr m.number_nonneg

theorem SignOf.mul {s t : Bool} {x y : ℚ} (hx : SignOf s x) (hy : SignOf t y) :
    SignOf (s ^^ t) (x * y) := by
  cases s <;> cases t <;> simp only [SignOf, Bool.xor_false, Bool.xor_true, Bool.not_true,
    Bool.not_false, Bool.false_eq_true, if_true, if_false] at *
  · exact mul_nonneg hx hy
  · exact mul_nonpos_of_nonneg_of_nonpos hx hy
  · exact mul_nonpos_of_nonpos_of_nonneg hx hy
  · exact mul_nonneg_of_nonpos_of_nonpos hx hy

theorem SignOf.inv {s : Bool} {x : ℚ} (hx : SignOf s x) : SignOf s x⁻¹ := by
  cases s <;> simpa [SignOf] using hx

theorem SignOf.div {s t : Bool} {x y : ℚ} (hx : SignOf s x) (hy : SignOf t y) :
    SignOf (s ^^ t) (x / y) := by
  rw [div_eq_mul_inv]
  exact hx.mul hy.inv

/-- What is within half a unit of zero is rounded to zero. -/
theorem rounds_zero {x : ℚ} {negative : Bool} (hsign : SignOf negative x)
    (hx : |x| * 2 ^ 1075 ≤ 1) : Rounds x (zero negative) := by
  have hhalf : |x| * 2 ^ 1074 ≤ 1 / 2 := by
    rw [pow_succ (2 : ℚ) 1074] at hx
    generalize (2 : ℚ) ^ 1074 = one at hx ⊢
    linarith
  have hone : (0 : ℚ) < 2 ^ 1074 := by positivity
  refine .finite hsign ?_ ⟨?_, fun _ _ _ => Even.zero⟩
  · rw [lt_limit_iff]
    refine lt_of_le_of_lt hhalf ?_
    refine lt_of_lt_of_le (by norm_num) (mul_le_mul_of_nonneg_left (one_le_pow₀ one_le_two) ?_)
    all_goals norm_num
  · intro other
    rw [Magnitude.number_zero, sub_zero, abs_abs]
    by_cases h : other.significand = 0
    · rw [Magnitude.number_eq_zero_iff.mpr h, sub_zero, abs_abs]
    · have hunit : (1 : ℚ) ≤ other.number * 2 ^ 1074 := by
        rw [← Magnitude.units_eq]
        exact_mod_cast units_pos h
      have hfar : |x| ≤ other.number - |x| := by
        refine le_of_mul_le_mul_right ?_ hone
        rw [sub_mul, le_sub_iff_add_le]
        exact le_trans (add_le_add hhalf hhalf) (by rwa [add_halves])
      rw [abs_sub_comm]
      exact le_trans hfar (le_abs_self _)

/-! ### Operations -/

theorem finite_mul (s t : Bool) (m n : Magnitude) :
    (.finite s m * .finite t n : Double) = round (s ^^ t) (m.units * n.units) unitsPerOne := by
  change mul _ _ = _
  rw [mul]

theorem finite_div (s t : Bool) (m : Magnitude) {n : Magnitude} (hn : n.significand ≠ 0) :
    (.finite s m / .finite t n : Double) = round (s ^^ t) (m.units * unitsPerOne) n.units :=
  if_neg hn

theorem rounds_mul {x y : Double} (hx : x.isFinite = true) (hy : y.isFinite = true) :
    Rounds (x.number * y.number) (x * y) := by
  cases x with
  | finite s m =>
      cases y with
      | finite t n =>
          have hone : (0 : ℚ) < 2 ^ 1074 := by positivity
          rw [finite_mul]
          refine rounds_round unitsPerOne_pos ((signOf_number s m).mul (signOf_number t n)) ?_
          rw [abs_mul, abs_number_finite, abs_number_finite, Nat.cast_mul, Magnitude.units_eq,
            Magnitude.units_eq, unitsPerOne_eq]
          generalize (2 : ℚ) ^ 1074 = one at hone ⊢
          field_simp
      | _ => cases hy
  | _ => cases hx

theorem rounds_div {x y : Double} (hx : x.isFinite = true) (hy : y.isFinite = true)
    (h0 : y.number ≠ 0) : Rounds (x.number / y.number) (x / y) := by
  cases x with
  | finite s m =>
      cases y with
      | finite t n =>
          have hn : n.significand ≠ 0 := by
            rw [← abs_pos, abs_number_finite] at h0
            exact mt Magnitude.number_eq_zero_iff.mpr (ne_of_gt h0)
          have hnumber := Magnitude.number_pos hn
          have hone : (0 : ℚ) < 2 ^ 1074 := by positivity
          rw [finite_div s t m hn]
          refine rounds_round (units_pos hn) ((signOf_number s m).div (signOf_number t n)) ?_
          rw [abs_div, abs_number_finite, abs_number_finite, Nat.cast_mul, Magnitude.units_eq,
            Magnitude.units_eq, unitsPerOne_eq]
          generalize (2 : ℚ) ^ 1074 = one at hone ⊢
          field_simp
      | _ => cases hy
  | _ => cases hx

theorem signOf_decide {n : ℤ} {x : ℚ} (h : (n : ℚ) = x * 2 ^ 1074) :
    SignOf (decide (n < 0)) x := by
  have hone : (0 : ℚ) < 2 ^ 1074 := by positivity
  have hneg : n < 0 ↔ x < 0 := by
    rw [← not_le, ← not_le, ← mul_nonneg_iff_of_pos_right hone, ← h, Int.cast_nonneg_iff]
  by_cases h0 : n < 0
  · rw [SignOf, if_pos (decide_eq_true h0)]
    exact le_of_lt (hneg.mp h0)
  · rw [SignOf, if_neg (by simpa using h0)]
    exact not_lt.mp (mt hneg.mpr h0)

theorem rounds_add {x y : Double} (hx : x.isFinite = true) (hy : y.isFinite = true) :
    Rounds (x.number + y.number) (x + y) := by
  cases x with
  | finite s m =>
      cases y with
      | finite t n =>
          have hone : (0 : ℚ) < 2 ^ 1074 := by positivity
          have hsum : ((signed s m + signed t n : ℤ) : ℚ) =
              ((Double.finite s m).number + (Double.finite t n).number) * 2 ^ 1074 := by
            rw [Int.cast_add, signed_eq, signed_eq, add_mul]
          change Rounds _ (if signed s m + signed t n = 0 then _ else _)
          generalize signed s m + signed t n = sum at hsum ⊢
          generalize (Double.finite s m).number + (Double.finite t n).number = z at hsum ⊢
          split
          · rename_i h0
            rw [h0, Int.cast_zero, zero_eq_mul, or_iff_left (ne_of_gt hone)] at hsum
            rw [hsum]
            exact rounds_zero (by simp [SignOf]) (by simp)
          · refine rounds_round one_pos (signOf_decide hsum) ?_
            rw [Nat.cast_one, div_one, Nat.cast_natAbs, Int.cast_abs, hsum, abs_mul,
              abs_of_pos hone]
      | _ => cases hy
  | _ => cases hx

theorem number_neg (x : Double) : (-x).number = -x.number := by
  change x.neg.number = _
  cases x with
  | finite s m => cases s <;> simp [neg, number]
  | _ => simp [neg, number]

theorem isFinite_neg (x : Double) : (-x).isFinite = x.isFinite := by
  change x.neg.isFinite = _
  cases x <;> rfl

theorem rounds_sub {x y : Double} (hx : x.isFinite = true) (hy : y.isFinite = true) :
    Rounds (x.number - y.number) (x - y) := by
  rw [sub_eq_add_neg, ← number_neg]
  exact rounds_add hx (by rwa [isFinite_neg])

/-- What is divided by one or more stays finite. -/
theorem isFinite_div {x y : Double} (hx : x.isFinite = true) (hy : y.isFinite = true)
    (h : 1 ≤ y.number) : (x / y).isFinite = true := by
  rw [(rounds_div hx hy (by linarith)).isFinite_iff]
  calc |x.number / y.number| = |x.number| / y.number := by
        rw [abs_div, abs_of_nonneg (by linarith : 0 ≤ y.number)]
    _ ≤ |x.number| := div_le_self (abs_nonneg _) h
    _ < limit := abs_number_lt_limit x

/-! ### Natural numbers -/

theorem rounds_ofNat (n : ℕ) : Rounds n (ofNat n) := by
  have hn : (0 : ℚ) ≤ n := n.cast_nonneg
  refine rounds_round one_pos (by simp [SignOf]) ?_
  rw [abs_of_nonneg hn, Nat.cast_mul, unitsPerOne_eq, Nat.cast_one, div_one]

/-! ### Decimal numerals -/

theorem rounds_ofRatio {negative : Bool} {num den : ℕ} {x : ℚ} (hden : 0 < den)
    (hsign : SignOf negative x) (hx : |x| = num / den) :
    Rounds x (ofRatio negative num den) := by
  refine rounds_round hden hsign ?_
  rw [hx, Nat.cast_mul, unitsPerOne_eq, div_mul_eq_mul_div]

theorem two_pow_le_ten_pow {j k : ℕ} (h : j ≤ 3 * k) : (2 : ℚ) ^ j ≤ 10 ^ k := by
  calc (2 : ℚ) ^ j ≤ 2 ^ (3 * k) := pow_le_pow_right₀ one_le_two h
    _ = (2 ^ 3) ^ k := pow_mul 2 3 k
    _ ≤ 10 ^ k := pow_le_pow_left₀ (by norm_num) (by norm_num) k

/-- A decimal far above the largest magnitude. -/
theorem limit_le_decimal {digits : ℕ} {exponent : ℤ} (h0 : digits ≠ 0) (h : 400 < exponent) :
    limit ≤ digits * 10 ^ exponent := by
  have hdigits : (1 : ℚ) ≤ digits := by exact_mod_cast Nat.one_le_iff_ne_zero.mpr h0
  calc limit ≤ 2 ^ 53 * 2 ^ 971 := mul_le_mul_of_nonneg_right (by norm_num) (by positivity)
    _ = 2 ^ 1024 := by rw [← pow_add]
    _ ≤ 10 ^ exponent.toNat := two_pow_le_ten_pow (by omega)
    _ = 10 ^ exponent := by rw [← zpow_natCast, Int.toNat_of_nonneg (by omega)]
    _ ≤ digits * 10 ^ exponent := le_mul_of_one_le_left (by positivity) hdigits

/-- A decimal far below the smallest one. -/
theorem decimal_mul_le_one {digits : ℕ} {exponent : ℤ}
    (h : exponent + (Nat.log2 digits : ℤ) < -400) :
    (digits * 10 ^ exponent : ℚ) * 2 ^ 1075 ≤ 1 := by
  have hdigits : (digits : ℚ) ≤ 2 ^ (digits.log2 + 1) := by
    exact_mod_cast le_of_lt Nat.lt_log2_self
  rw [zpow_eq_div, Int.toNat_of_nonpos (by omega : exponent ≤ 0), pow_zero, mul_one_div,
    div_mul_eq_mul_div, div_le_one (by positivity)]
  calc (digits * 2 ^ 1075 : ℚ) ≤ 2 ^ (digits.log2 + 1) * 2 ^ 1075 :=
        mul_le_mul_of_nonneg_right hdigits (by positivity)
    _ = 2 ^ (digits.log2 + 1 + 1075) := by rw [← pow_add]
    _ ≤ 10 ^ (-exponent).toNat := two_pow_le_ten_pow (by omega)

/-- Reading a decimal rounds the number it is, however large or small. -/
theorem rounds_ofDecimal (negative : Bool) (digits : ℕ) (exponent : ℤ) :
    Rounds (if negative then -(digits * 10 ^ exponent : ℚ) else digits * 10 ^ exponent)
      (ofDecimal negative digits exponent) := by
  have hnonneg : (0 : ℚ) ≤ digits * 10 ^ exponent := by positivity
  have habs : |if negative then -(digits * 10 ^ exponent : ℚ) else digits * 10 ^ exponent| =
      digits * 10 ^ exponent := by
    split
    · rw [abs_neg, abs_of_nonneg hnonneg]
    · rw [abs_of_nonneg hnonneg]
  have hsign : SignOf negative
      (if negative then -(digits * 10 ^ exponent : ℚ) else digits * 10 ^ exponent) := by
    unfold SignOf
    split
    · exact neg_nonpos.mpr hnonneg
    · exact hnonneg
  generalize (if negative then -(digits * 10 ^ exponent : ℚ) else digits * 10 ^ exponent) = x
    at habs hsign ⊢
  have hfraction := zpow_eq_div 10 exponent
  unfold ofDecimal
  split_ifs with h0 hlarge hsmall hup
  · exact rounds_zero hsign (by simp [habs, h0])
  · exact .infinite hsign (habs ▸ limit_le_decimal h0 hlarge)
  · exact rounds_zero hsign (habs ▸ decimal_mul_le_one hsmall)
  · refine rounds_ofRatio one_pos hsign ?_
    rw [habs, hfraction, Int.toNat_of_nonpos (by omega : -exponent ≤ 0)]
    push_cast
    rw [pow_zero, div_one, div_one]
  · refine rounds_ofRatio (Nat.pos_of_ne_zero (by positivity)) hsign ?_
    rw [habs, hfraction, Int.toNat_of_nonpos (by omega : exponent ≤ 0)]
    push_cast
    rw [pow_zero, mul_one_div]

end Reckoner.Double
