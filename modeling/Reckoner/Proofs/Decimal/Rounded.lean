/-
Rounding to places and to significant digits.

The decade of a number is found by counting the digits of its numerator and denominator,
and corrected by one comparison.  From the decade on, rounding to significant digits is
rounding to the nearest integer at some power of ten.  It may end in the next decade, and
then it is a power of ten; rounding again one place further to the left changes nothing.
-/
import Reckoner.Decimal.Rounded
import Reckoner.Proofs.Double.Number
import Reckoner.Proofs.Numeral
import Reckoner.Proofs.Rounding

namespace Reckoner

/-! ### Numbers as fractions -/

/-- The exact value of a decimal. -/
def Decimal.number (d : Decimal) : ℚ := d.digits * 10 ^ d.exponent

/-- A fraction of natural numbers that is scaled by a power of ten is one again. -/
theorem scaled_eq_div (num den : ℕ) (e : ℤ) :
    ((num * 10 ^ (-e).toNat : ℕ) / (den * 10 ^ e.toNat : ℕ) : ℚ) = num / den * 10 ^ (-e) := by
  rw [zpow_eq_div 10 (-e), neg_neg]
  push_cast
  rw [mul_div_mul_comm]

/-! ### Decades -/

/-- A number lies in the decade that starts at a power of ten. -/
structure InDecade (x : ℚ) (e : ℤ) : Prop where
  lower : 10 ^ e ≤ x
  upper : x < 10 ^ (e + 1)

theorem ten_zpow_pos (e : ℤ) : (0 : ℚ) < 10 ^ e := zpow_pos (by norm_num) e

theorem ten_zpow_succ (e : ℤ) : (10 : ℚ) ^ (e + 1) = 10 ^ e * 10 := zpow_add_one₀ (by norm_num) e

/-- A power of ten and its inverse. -/
theorem mul_ten_zpow_cancel (x : ℚ) (e k : ℤ) : x * 10 ^ (e - k) * 10 ^ (k - e) = x := by
  rw [mul_assoc, ← zpow_add₀ (by norm_num), sub_add_sub_cancel, sub_self, zpow_zero, mul_one]

theorem InDecade.unique {x : ℚ} {e k : ℤ} (h : InDecade x e) (h' : InDecade x k) : e = k := by
  have hle : e < k + 1 :=
    (zpow_lt_zpow_iff_right₀ (by norm_num : (1 : ℚ) < 10)).mp (lt_of_le_of_lt h.lower h'.upper)
  have hge : k < e + 1 :=
    (zpow_lt_zpow_iff_right₀ (by norm_num : (1 : ℚ) < 10)).mp (lt_of_le_of_lt h'.lower h.upper)
  omega

/-- Comparing a fraction with a power of ten is comparing natural numbers. -/
theorem ten_zpow_le_div_iff (num : Nat) {den : Nat} (hden : 0 < den) (e : ℤ) :
    (10 : ℚ) ^ e ≤ num / den ↔ den * 10 ^ e.toNat ≤ num * 10 ^ (-e).toNat := by
  have hpos : (0 : ℚ) < den := by exact_mod_cast hden
  rw [zpow_eq_div, div_le_div_iff₀ (by positivity) hpos, mul_comm]
  exact_mod_cast Iff.rfl

/-- A number with a count of digits, on the scale of powers of ten. -/
theorem ten_pow_length_digits {n : Nat} (hn : 0 < n) :
    (10 : ℚ) ^ (Numeral.digits 10 n).length ≤ n * 10 ∧
      (n : ℚ) < 10 ^ (Numeral.digits 10 n).length := by
  obtain ⟨h1, h2⟩ := Numeral.length_digits (by omega : 1 < 10) hn
  have hlength : 0 < (Numeral.digits 10 n).length :=
    List.length_pos_iff.mpr (Numeral.digits_ne_nil (by omega) n)
  have h1' := Nat.mul_le_mul_right 10 h1
  rw [← pow_succ, Nat.sub_add_cancel hlength] at h1'
  exact ⟨by exact_mod_cast h1', by exact_mod_cast h2⟩

/-- Counting digits finds the decade of a fraction up to one, and a comparison settles it. -/
theorem inDecade_firstExponent {num den : Nat} (hnum : 0 < num) (hden : 0 < den) :
    InDecade (num / den : ℚ) (Decimal.firstExponent num den) := by
  obtain ⟨hnum1, hnum2⟩ := ten_pow_length_digits hnum
  obtain ⟨hden1, hden2⟩ := ten_pow_length_digits hden
  have hpos : (0 : ℚ) < den := by exact_mod_cast hden
  unfold Decimal.firstExponent
  have hguess : (10 : ℚ) ^ (((Numeral.digits 10 num).length : ℤ) - (Numeral.digits 10 den).length) =
      10 ^ (Numeral.digits 10 num).length / 10 ^ (Numeral.digits 10 den).length := by
    rw [zpow_sub₀ (by norm_num), zpow_natCast, zpow_natCast]
  generalize ((Numeral.digits 10 num).length : ℤ) - (Numeral.digits 10 den).length = guess
    at hguess ⊢
  generalize (10 : ℚ) ^ (Numeral.digits 10 num).length = a at hnum1 hnum2 hguess
  have hb : (0 : ℚ) < 10 ^ (Numeral.digits 10 den).length := by positivity
  generalize (10 : ℚ) ^ (Numeral.digits 10 den).length = b at hden1 hden2 hguess hb
  have hupper : (num / den : ℚ) < 10 ^ guess * 10 := by
    rw [hguess, div_mul_eq_mul_div, div_lt_div_iff₀ hpos hb]
    nlinarith
  have hlower : (10 : ℚ) ^ guess ≤ num / den * 10 := by
    rw [hguess, div_mul_eq_mul_div, div_le_div_iff₀ hb hpos]
    nlinarith
  simp only [← ten_zpow_le_div_iff num hden]
  by_cases hle : (10 : ℚ) ^ guess ≤ num / den
  · rw [if_pos hle]
    exact ⟨hle, by rwa [ten_zpow_succ]⟩
  · rw [if_neg hle]
    have hsucc := ten_zpow_succ (guess - 1)
    rw [sub_add_cancel] at hsucc
    refine ⟨?_, ?_⟩
    · linarith
    · rw [sub_add_cancel]
      exact not_le.mp hle

/-- The first digit of a decimal tells its decade. -/
theorem Decimal.inDecade_leadingExponent {d : Decimal} (h : 0 < d.digits) :
    InDecade d.number d.leadingExponent := by
  obtain ⟨h1, h2⟩ := ten_pow_length_digits h
  have hlength : 0 < (Numeral.digits 10 d.digits).length :=
    List.length_pos_iff.mpr (Numeral.digits_ne_nil (by omega) _)
  have hexponent : d.leadingExponent + 1 =
      (Numeral.digits 10 d.digits).length + d.exponent := by
    rw [leadingExponent, digitChars, Numeral.length_write]
    omega
  have hpower : (10 : ℚ) ^ (d.leadingExponent + 1) =
      10 ^ (Numeral.digits 10 d.digits).length * 10 ^ d.exponent := by
    rw [hexponent, zpow_add₀ (by norm_num), zpow_natCast]
  have hpos := ten_zpow_pos d.exponent
  refine ⟨?_, ?_⟩
  · rw [ten_zpow_succ] at hpower
    rw [number]
    nlinarith
  · rw [hpower, number]
    exact mul_lt_mul_of_pos_right h2 hpos

theorem InDecade.scale {x : ℚ} {e : ℤ} (h : InDecade x e) (k : ℤ) :
    InDecade (x * 10 ^ k) (e + k) := by
  have hpos := ten_zpow_pos k
  refine ⟨?_, ?_⟩
  · rw [zpow_add₀ (by norm_num)]
    exact mul_le_mul_of_nonneg_right h.lower (le_of_lt hpos)
  · rw [add_right_comm, zpow_add₀ (by norm_num)]
    exact mul_lt_mul_of_pos_right h.upper hpos

/-- Rounding does not leave a decade, except for its upper end. -/
theorem InDecade.isNearest_bounds {x : ℚ} {c : ℕ} (h : InDecade x c) {n : ℤ}
    (hn : IsNearest x n) : 10 ^ c ≤ n ∧ n ≤ 10 ^ (c + 1) := by
  refine ⟨hn.le_of_le ?_, hn.ge_of_ge ?_⟩
  · have := h.lower
    rw [zpow_natCast] at this
    exact_mod_cast this
  · have := le_of_lt h.upper
    rw [← Nat.cast_succ, zpow_natCast] at this
    exact_mod_cast this

/-! ### Significant digits -/

/-- A number is rounded to a count of significant digits if it is rounded to the nearest multiple
of the power of ten at the last of them, the first one being that of the unrounded number. -/
def IsRounded (count : ℕ) (x r : ℚ) : Prop :=
  ∃ e n : ℤ, InDecade |x| e ∧ IsNearest (x * 10 ^ ((count : ℤ) - 1 - e)) n ∧
    r = n * 10 ^ (e - ((count : ℤ) - 1))

theorem IsRounded.neg {count : ℕ} {x r : ℚ} (h : IsRounded count x r) :
    IsRounded count (-x) (-r) := by
  obtain ⟨e, n, he, hn, rfl⟩ := h
  refine ⟨e, -n, ?_, ?_, ?_⟩
  · rwa [abs_neg]
  · rw [neg_mul]
    exact hn.neg
  · rw [Int.cast_neg, neg_mul]

theorem IsRounded.unique {count : ℕ} {x r r' : ℚ} (h : IsRounded count x r)
    (h' : IsRounded count x r') : r = r' := by
  obtain ⟨e, n, he, hn, rfl⟩ := h
  obtain ⟨e', n', he', hn', rfl⟩ := h'
  obtain rfl := he.unique he'
  rw [hn.unique hn']

/-- What is left of a decade after rounding a number in it. -/
theorem inDecade_of_isNearest {x : ℚ} {e : ℤ} {c : ℕ} {n : ℤ} (h : InDecade x e)
    (hn : IsNearest (x * 10 ^ ((c : ℤ) - e)) n) :
    (10 ^ c ≤ n ∧ n < 10 ^ (c + 1) ∧ InDecade (n * 10 ^ (e - c)) e) ∨ n = 10 ^ (c + 1) := by
  have hscale := h.scale ((c : ℤ) - e)
  rw [add_sub_cancel] at hscale
  obtain ⟨hlo, hhi⟩ := hscale.isNearest_bounds hn
  rcases lt_or_eq_of_le hhi with hlt | heq
  · refine Or.inl ⟨hlo, hlt, ?_⟩
    have hn' : InDecade (n : ℚ) c := by
      refine ⟨?_, ?_⟩
      · rw [zpow_natCast]
        exact_mod_cast hlo
      · rw [← Nat.cast_succ, zpow_natCast]
        exact_mod_cast hlt
    have := hn'.scale (e - c)
    rwa [add_sub_cancel] at this
  · exact Or.inr heq

/-- The digits that are computed are as many as asked for, and those of the rounded number. -/
theorem Decimal.isRounded_significant {m : Magnitude} (hm : m.significand ≠ 0) (c : ℕ) :
    IsRounded (c + 1) m.number (significant (c + 1) m).number ∧
      10 ^ c ≤ (significant (c + 1) m).digits ∧ (significant (c + 1) m).digits < 10 ^ (c + 1) := by
  have hdecade := inDecade_firstExponent (Magnitude.num_pos hm) m.den_pos
  rw [← m.number_eq_div] at hdecade
  unfold significant
  simp only [Nat.add_sub_cancel]
  generalize firstExponent m.num m.den = e at hdecade ⊢
  have hden : 0 < m.den * 10 ^ (e - (c : ℤ)).toNat := Nat.mul_pos m.den_pos (Nat.pow_pos (by omega))
  have hnearest := isNearest_divNearest (m.num * 10 ^ (-(e - (c : ℤ))).toNat) hden
  rw [scaled_eq_div, ← m.number_eq_div] at hnearest
  generalize divNearest (m.num * 10 ^ (-(e - (c : ℤ))).toNat) (m.den * 10 ^ (e - (c : ℤ)).toNat) = n
    at hnearest ⊢
  rw [neg_sub] at hnearest
  have hrounded : IsRounded (c + 1) m.number (n * 10 ^ (e - (c : ℤ))) := by
    refine ⟨e, n, ?_, ?_, ?_⟩
    · rwa [abs_of_pos (Magnitude.number_pos hm)]
    · rwa [Nat.cast_succ, add_sub_cancel_right]
    · rw [Nat.cast_succ, add_sub_cancel_right, Int.cast_natCast]
  by_cases hcarry : n = 10 ^ (c + 1)
  · have hnumber : Decimal.number ⟨10 ^ c, e - c + 1⟩ = n * 10 ^ (e - (c : ℤ)) := by
      rw [number, ten_zpow_succ, hcarry]
      push_cast
      ring
    rw [if_pos hcarry, hnumber]
    exact ⟨hrounded, le_refl _, Nat.pow_lt_pow_succ (by omega)⟩
  · rw [if_neg hcarry]
    rcases inDecade_of_isNearest hdecade hnearest with ⟨hlo, hhi, -⟩ | heq
    · exact ⟨hrounded, by exact_mod_cast hlo, by exact_mod_cast hhi⟩
    · exact absurd (by exact_mod_cast heq) hcarry

/-- Rounding at the place that the rounded number calls for is the same as rounding at the one that
the unrounded number calls for, even if they are in different decades. -/
theorem IsRounded.isNearest {c : ℕ} {x r : ℚ} (hx : 0 < x) (h : IsRounded (c + 1) x r) {k : ℤ}
    (hk : InDecade r k) :
    ∃ n : ℤ, IsNearest (x * 10 ^ ((c : ℤ) - k)) n ∧ r = n * 10 ^ (k - c) := by
  obtain ⟨e, n, he, hn, hr⟩ := h
  rw [abs_of_pos hx] at he
  rw [Nat.cast_succ, add_sub_cancel_right] at hn hr
  rcases inDecade_of_isNearest he hn with ⟨-, -, hdecade⟩ | hcarry
  · rw [← hr] at hdecade
    obtain rfl := hdecade.unique hk
    exact ⟨n, hn, hr⟩
  · -- The rounded number starts the next decade, and is next to the number there as well.
    have hpower : r = 10 ^ (e + 1) := by
      rw [hr, hcarry]
      push_cast
      rw [← zpow_natCast, ← zpow_add₀ (by norm_num)]
      congr 1
      push_cast
      ring
    have hdecade : InDecade r (e + 1) := by
      rw [hpower]
      exact ⟨le_refl _, zpow_lt_zpow_right₀ (by norm_num) (by omega)⟩
    obtain rfl := hdecade.unique hk
    have htenth : x * 10 ^ ((c : ℤ) - (e + 1)) = x * 10 ^ ((c : ℤ) - e) / 10 := by
      rw [sub_add_eq_sub_sub, zpow_sub_one₀ (by norm_num)]
      ring
    refine ⟨10 ^ c, IsNearest.of_lt ?_, ?_⟩
    · have hnear := abs_le.mp hn.near
      rw [hcarry] at hnear
      push_cast at hnear
      rw [htenth, abs_lt]
      push_cast
      rw [pow_succ] at hnear
      constructor <;> linarith [hnear.1, hnear.2]
    · rw [hpower]
      push_cast
      rw [← zpow_natCast, ← zpow_add₀ (by norm_num)]
      congr 1
      ring

/-- Rounding at a place does not cross the powers of ten to the left of it. -/
theorem IsNearest.ten_zpow_bounds {x r : ℚ} {p : ℤ} {n : ℤ} (hn : IsNearest (x * 10 ^ p) n)
    (hr : r * 10 ^ p = n) {k : ℤ} (hk : 0 ≤ k + p) :
    (10 ^ k ≤ x → 10 ^ k ≤ r) ∧ (x ≤ 10 ^ k → r ≤ 10 ^ k) := by
  have hpos := ten_zpow_pos p
  obtain ⟨i, hi⟩ := Int.eq_ofNat_of_zero_le hk
  have hpower : (10 : ℚ) ^ k * 10 ^ p = ((10 ^ i : ℤ) : ℚ) := by
    rw [← zpow_add₀ (by norm_num), hi, zpow_natCast]
    push_cast
    rfl
  constructor
  all_goals
    intro hle
    have hle' := mul_le_mul_of_nonneg_right hle (le_of_lt hpos)
    refine le_of_mul_le_mul_right ?_ hpos
    rw [hpower] at hle' ⊢
    rw [hr]
  · exact_mod_cast hn.le_of_le hle'
  · exact_mod_cast hn.ge_of_ge hle'

section PowersOfTen

variable {c : ℕ} {x r : ℚ} (hx : 0 < x) (h : IsRounded (c + 1) x r) {k : ℤ}

include hx h

/-- Rounding does not go below a power of ten. -/
theorem IsRounded.ten_zpow_le (hk : 10 ^ k ≤ x) : 10 ^ k ≤ r := by
  obtain ⟨e, n, he, hn, rfl⟩ := h
  rw [abs_of_pos hx] at he
  rw [Nat.cast_succ, add_sub_cancel_right] at hn ⊢
  have hle : k < e + 1 :=
    (zpow_lt_zpow_iff_right₀ (by norm_num : (1 : ℚ) < 10)).mp (lt_of_le_of_lt hk he.upper)
  calc (10 : ℚ) ^ k ≤ 10 ^ e := zpow_le_zpow_right₀ (by norm_num) (by omega)
    _ ≤ n * 10 ^ (e - c) :=
        (hn.ten_zpow_bounds (mul_ten_zpow_cancel _ _ _) (by omega)).1 he.lower

/-- Nor does it go beyond one. -/
theorem IsRounded.le_ten_zpow (hk : x < 10 ^ k) : r ≤ 10 ^ k := by
  obtain ⟨e, n, he, hn, rfl⟩ := h
  rw [abs_of_pos hx] at he
  rw [Nat.cast_succ, add_sub_cancel_right] at hn ⊢
  have hlt : e < k :=
    (zpow_lt_zpow_iff_right₀ (by norm_num : (1 : ℚ) < 10)).mp (lt_of_le_of_lt he.lower hk)
  calc (n : ℚ) * 10 ^ (e - (c : ℤ)) ≤ 10 ^ (e + 1) :=
        (hn.ten_zpow_bounds (mul_ten_zpow_cancel _ _ _) (by omega)).2 (le_of_lt he.upper)
    _ ≤ 10 ^ k := zpow_le_zpow_right₀ (by norm_num) (by omega)

end PowersOfTen

/-- Rounding keeps the order of numbers: in one decade the places are the same, and what is rounded
in different decades stays on the two sides of a power of ten. -/
theorem IsRounded.mono {c : ℕ} {x y r s : ℚ} (hx : 0 < x) (hle : x ≤ y)
    (h : IsRounded (c + 1) x r) (h' : IsRounded (c + 1) y s) : r ≤ s := by
  have hy := lt_of_lt_of_le hx hle
  obtain ⟨k, hlo, hhi⟩ := exists_mem_Ico_zpow hy (by norm_num : (1 : ℚ) < 10)
  rcases lt_or_ge x (10 ^ k) with hlt | hge
  · exact (h.le_ten_zpow hx hlt).trans (h'.ten_zpow_le hy hlo)
  · obtain ⟨e, n, he, hn, rfl⟩ := h
    obtain ⟨e', i, he', hi, rfl⟩ := h'
    rw [abs_of_pos hx] at he
    rw [abs_of_pos hy] at he'
    obtain rfl := he.unique ⟨hge, lt_of_le_of_lt hle hhi⟩
    obtain rfl := he'.unique ⟨hlo, hhi⟩
    have hni := hn.mono hi (mul_le_mul_of_nonneg_right hle (le_of_lt (ten_zpow_pos _)))
    exact mul_le_mul_of_nonneg_right (by exact_mod_cast hni) (le_of_lt (ten_zpow_pos _))

/-- The rounded number has as many digits as were asked for. -/
theorem IsRounded.exists_digits {c : ℕ} {x r : ℚ} (hx : 0 < x) (h : IsRounded (c + 1) x r) :
    ∃ (k : ℤ) (n : ℕ), InDecade r k ∧ r = n * 10 ^ (k - c) ∧ 10 ^ c ≤ n ∧ n < 10 ^ (c + 1) := by
  obtain ⟨e, hlo, -⟩ := exists_mem_Ico_zpow hx (by norm_num : (1 : ℚ) < 10)
  have hr := lt_of_lt_of_le (ten_zpow_pos e) (h.ten_zpow_le hx hlo)
  obtain ⟨k, hklo, hkhi⟩ := exists_mem_Ico_zpow hr (by norm_num : (1 : ℚ) < 10)
  have hk : InDecade r k := ⟨hklo, hkhi⟩
  obtain ⟨n, -, hn⟩ := h.isNearest hx hk
  have hscale : InDecade (n : ℚ) c := by
    have hscale := hk.scale (c - k)
    rwa [add_sub_cancel, hn, mul_ten_zpow_cancel] at hscale
  have hlower := hscale.lower
  have hupper := hscale.upper
  rw [zpow_natCast] at hlower
  rw [← Nat.cast_succ, zpow_natCast] at hupper
  have hlo' : 10 ^ c ≤ n := by exact_mod_cast hlower
  obtain ⟨i, rfl⟩ := Int.eq_ofNat_of_zero_le (le_trans (by positivity) hlo')
  refine ⟨k, i, hk, by exact_mod_cast hn, by exact_mod_cast hlo', ?_⟩
  exact_mod_cast hupper

/-- The digits that are computed are those of the rounded number in its own decade. -/
theorem Decimal.significant_eq {m : Magnitude} (hm : m.significand ≠ 0) {c : ℕ} {r : ℚ} {k : ℤ}
    (h : IsRounded (c + 1) m.number r) (hk : InDecade r k) {n : ℕ} (hn : r = n * 10 ^ (k - c)) :
    significant (c + 1) m = ⟨n, k - c⟩ ∧ (significant (c + 1) m).leadingExponent = k := by
  obtain ⟨hrounded, hlo, hhi⟩ := isRounded_significant hm c
  have hnumber := hrounded.unique h
  have hdecade := inDecade_leadingExponent (Nat.lt_of_lt_of_le (Nat.pow_pos (by omega)) hlo)
  rw [hnumber] at hdecade
  have hleading := hdecade.unique hk
  refine ⟨?_, hleading⟩
  generalize significant (c + 1) m = d at hlo hhi hnumber hleading
  obtain ⟨digits, exponent⟩ := d
  have hexponent : exponent = k - c := by
    have hlength := Numeral.length_digits_eq (by omega) hlo hhi
    rw [leadingExponent, digitChars, Numeral.length_write, hlength] at hleading
    simp only [Nat.add_sub_cancel] at hleading
    omega
  have hdigits : digits = n := by
    rw [hn, number, hexponent] at hnumber
    exact_mod_cast mul_right_cancel₀ (ne_of_gt (ten_zpow_pos _)) hnumber
  rw [hexponent, hdigits]

/-- Rounding to places is rounding to the nearest multiple of a power of ten. -/
theorem Decimal.isNearest_fixed (places : ℕ) (m : Magnitude) :
    IsNearest (m.number * 10 ^ places) (fixed places m).digits := by
  have hnearest := isNearest_divNearest (m.num * 10 ^ places) m.den_pos
  rw [Nat.cast_mul, Nat.cast_pow, Nat.cast_ofNat, mul_div_right_comm, ← m.number_eq_div] at hnearest
  exact hnearest

theorem Decimal.fixed_eq {places : ℕ} {m : Magnitude} {n : ℕ}
    (h : IsNearest (m.number * 10 ^ places) n) : fixed places m = ⟨n, -places⟩ := by
  have hdigits := (isNearest_fixed places m).unique h
  rw [Nat.cast_inj] at hdigits
  rw [← hdigits]
  rfl

end Reckoner
