/-
What rounding to a double gives.

Rounding is specified among the magnitudes themselves: no other magnitude is nearer, and of two
that are equally near the even one is taken.  The significand is rounded to an integer at one
shift, so the magnitudes at larger shifts are on the same grid and cannot be nearer, and those at
smaller shifts lie below the least of 53 bits, which is on the grid.  Numbers from half a step
beyond the largest magnitude on become infinite, and no others do.
-/
import Reckoner.Proofs.Double.Number
import Reckoner.Proofs.Rounding

namespace Reckoner

/-! ### Nearest integers among all -/

namespace IsNearest

variable {x : ℚ} {n : ℤ}

theorem half_le_of_ne (h : IsNearest x n) {k : ℤ} (hk : k ≠ n) : 1 / 2 ≤ |x - k| := by
  have hgap : (1 : ℚ) ≤ |(n : ℚ) - k| := by
    have : (1 : ℤ) ≤ |n - k| := Int.one_le_abs (by omega)
    exact_mod_cast this
  have htriangle : |(n : ℚ) - k| ≤ |x - n| + |x - k| := by
    rw [abs_sub_comm x n]
    exact abs_sub_le _ _ _
  linarith [h.near]

/-- No integer is nearer than a nearest one. -/
theorem dist_le (h : IsNearest x n) (k : ℤ) : |x - n| ≤ |x - k| := by
  by_cases hk : k = n
  · rw [hk]
  · exact le_trans h.near (h.half_le_of_ne hk)

/-- If another integer is as near, then the nearest one is even. -/
theorem even_of_dist_eq (h : IsNearest x n) {k : ℤ} (hk : k ≠ n) (heq : |x - k| = |x - n|) :
    Even n :=
  h.even (le_antisymm h.near (heq ▸ h.half_le_of_ne hk))

end IsNearest

/-! ### Nearest magnitudes -/

/-- A magnitude is the nearest one to a number; of two that are equally near, it is the one with an
even significand. -/
structure Magnitude.IsNearest (x : ℚ) (m : Magnitude) : Prop where
  near : ∀ other : Magnitude, |x - m.number| ≤ |x - other.number|
  even : ∀ other : Magnitude, other.number ≠ m.number → |x - other.number| = |x - m.number| →
    Even m.significand

namespace Magnitude

variable {m other : Magnitude}

/-- Below another magnitude there is a next one, a unit of the last place farther up. -/
theorem exists_next (h : m.number < other.number) :
    ∃ next : Magnitude, next.number = m.number + 2 ^ ((m.shift : ℤ) - 1074) := by
  by_cases hlast : m.significand + 1 < 2 ^ 53
  · refine ⟨⟨m.significand + 1, m.shift, hlast, m.shift_le, ?_⟩, ?_⟩
    · exact m.normal.imp Nat.le_succ_of_le id
    · rw [number, number]
      push_cast
      ring
  · have hfull : m.significand + 1 = 2 ^ 53 :=
      Nat.le_antisymm m.significand_lt (not_lt.mp hlast)
    have hfull' : (m.significand : ℚ) = 2 ^ 53 - 1 := by
      rw [eq_sub_iff_add_eq]
      exact_mod_cast hfull
    by_cases hshift : m.shift + 1 ≤ 2045
    · refine ⟨⟨2 ^ 52, m.shift + 1, by decide, hshift, .inl le_rfl⟩, ?_⟩
      have hexponent : ((m.shift + 1 : ℕ) : ℤ) - 1074 = m.shift - 1074 + 1 := by omega
      rw [number, number, hfull', hexponent, zpow_add_one₀ two_ne_zero]
      push_cast
      ring
    · -- This is the largest magnitude.
      have hunits : other.units ≤ m.units :=
        Nat.mul_le_mul (by have := other.significand_lt; omega)
          (Nat.pow_le_pow_right two_pos (by have := other.shift_le; omega))
      have hle : (other.units : ℚ) ≤ m.units := by exact_mod_cast hunits
      rw [units_eq, units_eq] at hle
      exact absurd (le_of_mul_le_mul_right hle (by positivity)) (not_le.mpr h)

/-- The nearest magnitude is within half a unit of the last place. -/
theorem IsNearest.sub_le {x : ℚ} (hm : m.IsNearest x) (hlo : m.number < x)
    (hhi : x < other.number) : x - m.number ≤ 2 ^ ((m.shift : ℤ) - 1074) / 2 := by
  obtain ⟨next, hnext⟩ := exists_next (hlo.trans hhi)
  have hpos : (0 : ℚ) < 2 ^ ((m.shift : ℤ) - 1074) := zpow_pos two_pos _
  have hnear := hm.near next
  rw [abs_of_pos (sub_pos.mpr hlo)] at hnear
  rcases le_total next.number x with hle | hle
  · rw [abs_of_nonneg (sub_nonneg.mpr hle)] at hnear
    linarith
  · rw [abs_of_nonpos (sub_nonpos.mpr hle)] at hnear
    linarith

end Magnitude

namespace Double

/-- The least number that is rounded to an infinity, half a step beyond the largest magnitude. -/
def limit : ℚ := (2 ^ 53 - 1 / 2) * 2 ^ 971

/-- A sign is that of a number; zero has both. -/
def SignOf (negative : Bool) (x : ℚ) : Prop := if negative then x ≤ 0 else 0 ≤ x

/-- A double is what a number is rounded to. -/
inductive Rounds (x : ℚ) : Double → Prop
  | finite {negative : Bool} {m : Magnitude} (sign : SignOf negative x) (below : |x| < limit)
      (nearest : m.IsNearest |x|) : Rounds x (.finite negative m)
  | infinite {negative : Bool} (sign : SignOf negative x) (beyond : limit ≤ |x|) :
      Rounds x (.infinite negative)

theorem Rounds.isFinite_iff {x : ℚ} {d : Double} (h : Rounds x d) :
    d.isFinite = true ↔ |x| < limit := by
  cases h with
  | finite _ below _ => exact iff_of_true rfl below
  | infinite _ beyond => exact iff_of_false (by simp [isFinite]) (not_lt.mpr beyond)

theorem Rounds.ne_nan {x : ℚ} {d : Double} (h : Rounds x d) : d ≠ .nan := by
  cases h <;> simp

/-- Rounding does not go beyond a magnitude. -/
theorem Rounds.abs_number_le {x : ℚ} {d : Double} (h : Rounds x d) {m : Magnitude}
    (hm : |x| ≤ m.number) : |d.number| ≤ m.number := by
  cases h with
  | @finite negative n _ _ nearest =>
      rw [abs_number_finite]
      have hnear := nearest.near m
      rw [abs_of_nonpos (sub_nonpos.mpr hm)] at hnear
      linarith [neg_le_abs (|x| - n.number)]
  | infinite _ _ =>
      change |(0 : ℚ)| ≤ m.number
      rw [abs_zero]
      exact m.number_nonneg

/-- Rounding does not fall below a magnitude. -/
theorem Rounds.le_number {x : ℚ} {d : Double} (h : Rounds x d) (hd : d.isFinite = true)
    {m : Magnitude} (hpos : 0 < m.number) (hm : m.number ≤ x) : m.number ≤ d.number := by
  have hx : 0 < x := lt_of_lt_of_le hpos hm
  cases h with
  | @finite negative n sign _ nearest =>
      obtain rfl : negative = false := by
        by_contra hnegative
        rw [SignOf, if_pos (Bool.eq_true_of_not_eq_false hnegative)] at sign
        exact absurd sign (not_le.mpr hx)
      rw [number_finite_false]
      have hnear := nearest.near m
      rw [abs_of_pos hx, abs_of_nonneg (sub_nonneg.mpr hm)] at hnear
      linarith [le_abs_self (x - n.number)]
  | infinite _ _ => cases hd

/-- The powers of two of the format are magnitudes. -/
theorem exists_number_eq_two_pow {n : ℕ} (hn : n ≤ 1023) : ∃ m : Magnitude, m.number = 2 ^ n := by
  refine ⟨⟨2 ^ 52, n + 1022, by decide, by omega, .inl le_rfl⟩, ?_⟩
  have hexponent : (n : ℤ) = (52 : ℕ) + (((n + 1022 : ℕ) : ℤ) - 1074) := by omega
  rw [Magnitude.number, ← zpow_natCast, hexponent, zpow_add₀ two_ne_zero, zpow_natCast]
  norm_num

theorem two_pow_lt_limit {n : ℕ} (hn : n ≤ 1023) : (2 : ℚ) ^ n < limit := by
  calc (2 : ℚ) ^ n ≤ 2 ^ (52 + 971) := pow_le_pow_right₀ one_le_two (by omega)
    _ = 2 ^ 52 * 2 ^ 971 := pow_add _ _ _
    _ < limit := by
        unfold limit
        exact mul_lt_mul_of_pos_right (by norm_num) (by positivity)

/-! ### The grid -/

section Grid

variable {num den : ℕ} (hden : 0 < den)

variable (num) in
include hden in
theorem isNearest_significandFor :
    IsNearest (num / den / 2 ^ shiftFor num den : ℚ) (significandFor num den) := by
  have h := isNearest_divNearest num (Nat.mul_pos hden (Nat.two_pow_pos (shiftFor num den)))
  rw [Nat.cast_mul, Nat.cast_pow, Nat.cast_ofNat, ← div_div] at h
  exact h

variable (num) in
include hden in
/-- Above the smallest shift the number has 53 bits before it is rounded. -/
theorem two_pow_le_of_shiftFor (hs : shiftFor num den ≠ 0) :
    (2 : ℚ) ^ 52 * 2 ^ shiftFor num den ≤ num / den := by
  have hpos : (0 : ℚ) < den := by exact_mod_cast hden
  have hquotient : num / den ≠ 0 := by
    intro h0
    rw [shiftFor, h0] at hs
    exact hs rfl
  have hnat : 2 ^ (52 + shiftFor num den) ≤ num / den := by
    rw [← Nat.le_log2 hquotient]
    unfold shiftFor at hs ⊢
    omega
  rw [← pow_add, le_div_iff₀ hpos]
  exact_mod_cast (Nat.le_div_iff_mul_le hden).mp hnat

/-- Magnitudes at larger shifts are on the grid. -/
theorem units_eq_mul {m : Magnitude} {s : ℕ} (h : s ≤ m.shift) :
    ∃ k : ℤ, (m.units : ℚ) = k * 2 ^ s := by
  obtain ⟨j, hj⟩ := Nat.exists_eq_add_of_le h
  refine ⟨m.significand * 2 ^ j, ?_⟩
  rw [Magnitude.units, hj, pow_add]
  push_cast
  ring

include hden in
/-- No magnitude is nearer than the point of the grid that is taken, and if another one is as near
then that point is even. -/
theorem grid_nearest {x p : ℚ} (hx : x = num / den)
    (hp : p = significandFor num den * 2 ^ shiftFor num den) (m : Magnitude) :
    |x - p| ≤ |x - m.units| ∧
      ((m.units : ℚ) ≠ p → |x - m.units| = |x - p| → Even (significandFor num den)) := by
  have hnearest := isNearest_significandFor num hden
  have hbits := two_pow_le_of_shiftFor num hden
  rw [← hx] at hnearest hbits
  generalize significandFor num den = n at hnearest hp ⊢
  generalize shiftFor num den = s at hnearest hbits hp
  have hpow : (0 : ℚ) < 2 ^ s := by positivity
  -- Distances on the grid are those of integers.
  have hscale : ∀ k : ℤ, |x - k * 2 ^ s| = |x / 2 ^ s - k| * 2 ^ s := by
    intro k
    rw [← abs_of_pos hpow, ← abs_mul, abs_of_pos hpow, sub_mul, div_mul_cancel₀ _ (ne_of_gt hpow)]
  have hpoint : |x - p| = |x / 2 ^ s - (n : ℤ)| * 2 ^ s := by
    rw [hp, ← hscale, Int.cast_natCast]
  have hgrid : ∀ k : ℤ, |x - p| ≤ |x - k * 2 ^ s| := by
    intro k
    rw [hscale, hpoint]
    exact mul_le_mul_of_nonneg_right (hnearest.dist_le k) (le_of_lt hpow)
  by_cases hshift : s ≤ m.shift
  · obtain ⟨k, hk⟩ := units_eq_mul hshift
    rw [hk]
    refine ⟨hgrid k, fun hne heq => ?_⟩
    have hkn : k ≠ n := by
      rintro rfl
      exact hne (by rw [hp, Int.cast_natCast])
    rw [hscale, hpoint] at heq
    exact_mod_cast hnearest.even_of_dist_eq hkn (mul_right_cancel₀ (ne_of_gt hpow) heq)
  · -- The magnitude is less than the least number of 53 bits, which is on the grid.
    have hx := hbits (by omega)
    have hless : (m.units : ℚ) < 2 ^ 52 * 2 ^ s := by
      rw [← pow_add]
      exact_mod_cast m.units_lt (by omega : 53 + m.shift ≤ 52 + s)
    have hleast : |x - p| ≤ x - 2 ^ 52 * 2 ^ s := by
      have h := hgrid (2 ^ 52)
      rw [Int.cast_pow, Int.cast_ofNat] at h
      rwa [abs_of_nonneg (sub_nonneg.mpr hx)] at h
    rw [abs_of_nonneg (by linarith : (0 : ℚ) ≤ x - m.units)]
    exact ⟨by linarith, fun _ heq => by linarith⟩

/-! ### Rounding -/

variable {x : ℚ} (hx : x * 2 ^ 1074 = num / den)

include hden hx in
/-- A magnitude that is the point of the grid is nearest. -/
theorem isNearest_of_units {m : Magnitude}
    (hunits : (m.units : ℚ) = significandFor num den * 2 ^ shiftFor num den)
    (heven : Even (significandFor num den) → Even m.significand) : m.IsNearest x := by
  have hone : (0 : ℚ) < 2 ^ 1074 := by positivity
  have hscale : ∀ other : Magnitude,
      |x * 2 ^ 1074 - other.units| = |x - other.number| * 2 ^ 1074 := by
    intro other
    rw [Magnitude.units_eq, ← sub_mul, abs_mul, abs_of_pos hone]
  constructor
  · intro other
    have h := (grid_nearest hden hx hunits other).1
    rw [hscale, hscale] at h
    exact le_of_mul_le_mul_right h hone
  · intro other hne heq
    refine heven ((grid_nearest hden hx hunits other).2 ?_ (by rw [hscale, hscale, heq]))
    rw [Magnitude.units_eq, Magnitude.units_eq]
    exact fun h => hne (mul_right_cancel₀ (ne_of_gt hone) h)

/-! ### The range

It ends at the same multiple of the last shift's power of two as each binade of its own. -/

variable {y : ℚ} (hy : y = num / den)

include hden hy in
theorem lt_of_significandFor_lt (h : significandFor num den < 2 ^ 53) :
    y < (2 ^ 53 - 1 / 2) * 2 ^ shiftFor num den := by
  have hnearest := isNearest_significandFor num hden
  rw [← hy] at hnearest
  generalize significandFor num den = n at h hnearest
  have hn : (n : ℚ) + 1 ≤ 2 ^ 53 := by exact_mod_cast h
  have hnear := (abs_le.mp hnearest.near).2
  rw [Int.cast_natCast] at hnear
  rw [← div_lt_iff₀ (by positivity)]
  -- A tie is not possible at the end of a binade, where the significand is odd.
  refine lt_of_le_of_ne (by linarith) fun htie => ?_
  have hodd : n = 2 ^ 53 - 1 := by
    have : (n : ℚ) + 1 = 2 ^ 53 := by linarith
    have : n + 1 = 2 ^ 53 := by exact_mod_cast this
    omega
  have heven : Even (n : ℤ) := by
    apply hnearest.even
    rw [Int.cast_natCast, abs_of_nonneg (by linarith)]
    linarith
  rw [hodd] at heven
  exact absurd heven (by decide)

include hden hy in
theorem bounds_of_carry (h : significandFor num den = 2 ^ 53) :
    (2 ^ 53 - 1 / 2) * 2 ^ shiftFor num den ≤ y ∧
      y < (2 ^ 53 - 1 / 2) * 2 ^ (shiftFor num den + 1) := by
  have hnearest := isNearest_significandFor num hden
  rw [← hy, h] at hnearest
  generalize shiftFor num den = s at hnearest ⊢
  have hpow : (0 : ℚ) < 2 ^ s := by positivity
  have hnear := abs_le.mp hnearest.near
  rw [Int.cast_natCast, Nat.cast_pow, Nat.cast_ofNat] at hnear
  rw [pow_succ' 2 s, ← mul_assoc, ← le_div_iff₀ hpow, ← div_lt_iff₀ hpow]
  constructor <;> linarith [hnear.1, hnear.2]

include hden hy in
/-- What is rounded to a magnitude lies below the end of the range, -/
theorem lt_of_fits (h : significandFor num den = 2 ^ 53 → shiftFor num den + 1 ≤ 2045)
    (h' : significandFor num den ≠ 2 ^ 53 → shiftFor num den ≤ 2045) :
    y < (2 ^ 53 - 1 / 2) * 2 ^ 2045 := by
  have hgrow : ∀ {s : ℕ}, s ≤ 2045 →
      ((2 : ℚ) ^ 53 - 1 / 2) * 2 ^ s ≤ (2 ^ 53 - 1 / 2) * 2 ^ 2045 := fun hs =>
    mul_le_mul_of_nonneg_left (pow_le_pow_right₀ one_le_two hs) (by norm_num)
  by_cases hcarry : significandFor num den = 2 ^ 53
  · exact lt_of_lt_of_le (bounds_of_carry hden hy hcarry).2 (hgrow (h hcarry))
  · have hlt := lt_of_le_of_ne (significandFor_le num den) hcarry
    exact lt_of_lt_of_le (lt_of_significandFor_lt hden hy hlt) (hgrow (h' hcarry))

include hden hy in
/-- and everything else does not. -/
theorem le_of_not_fits (h : significandFor num den = 2 ^ 53 ∧ 2045 ≤ shiftFor num den ∨
    2045 < shiftFor num den) : (2 ^ 53 - 1 / 2) * 2 ^ 2045 ≤ y := by
  rcases h with ⟨hcarry, hshift⟩ | hshift
  · refine le_trans ?_ (bounds_of_carry hden hy hcarry).1
    exact mul_le_mul_of_nonneg_left (pow_le_pow_right₀ one_le_two hshift) (by norm_num)
  · have hbits := two_pow_le_of_shiftFor num hden (by omega)
    rw [← hy] at hbits
    have hgrow : (2 : ℚ) ^ (2045 + 1) ≤ 2 ^ shiftFor num den :=
      pow_le_pow_right₀ one_le_two hshift
    rw [pow_succ] at hgrow
    have hpos : (0 : ℚ) < 2 ^ 2045 := by positivity
    generalize (2 : ℚ) ^ 2045 = top at hgrow hpos ⊢
    linarith

theorem lt_limit_iff (x : ℚ) : x < limit ↔ x * 2 ^ 1074 < (2 ^ 53 - 1 / 2) * 2 ^ 2045 := by
  rw [limit, ← mul_lt_mul_iff_left₀ (by positivity : (0 : ℚ) < 2 ^ 1074), mul_assoc _ (2 ^ 971),
    ← pow_add]

/-- Every magnitude is in the range. -/
theorem number_lt_limit (m : Magnitude) : m.number < limit := by
  have hbits : (m.significand : ℚ) < 2 ^ 53 - 1 / 2 := by
    have : (m.significand : ℚ) + 1 ≤ 2 ^ 53 := by exact_mod_cast m.significand_lt
    linarith
  have hunits : (m.units : ℚ) = m.significand * 2 ^ m.shift := by
    rw [Magnitude.units]
    push_cast
    rfl
  rw [lt_limit_iff, ← Magnitude.units_eq, hunits]
  refine lt_of_lt_of_le (mul_lt_mul_of_pos_right hbits (by positivity)) ?_
  exact mul_le_mul_of_nonneg_left (pow_le_pow_right₀ one_le_two m.shift_le) (by norm_num)

theorem abs_number_lt_limit (d : Double) : |d.number| < limit := by
  cases d with
  | finite negative m =>
      rw [abs_number_finite]
      exact number_lt_limit m
  | infinite _ | nan =>
      change |(0 : ℚ)| < limit
      norm_num [limit]

theorem even_two_pow_52 : Even (2 ^ 52) := by decide

include hden in
/-- The rounding of the format is to the nearest, to even in a tie, with everything beyond the range
infinite. -/
theorem rounds_round {negative : Bool} (hsign : SignOf negative x)
    (hx : |x| * 2 ^ 1074 = num / den) : Rounds x (round negative num den) := by
  have hlimit := lt_limit_iff |x|
  unfold round
  split
  · rename_i hcarry
    split
    · rename_i hrange
      refine .finite hsign ?_ (isNearest_of_units hden hx ?_ fun _ => even_two_pow_52)
      · exact hlimit.mpr (lt_of_fits hden hx (fun _ => hrange) fun h => absurd hcarry h)
      · rw [Magnitude.units, hcarry]
        push_cast
        rw [pow_succ]
        ring
    · rename_i hrange
      refine .infinite hsign (not_lt.mp fun h => ?_)
      have hle := le_of_not_fits hden hx (.inl ⟨hcarry, by omega⟩)
      exact absurd (hlimit.mp h) (not_lt.mpr hle)
  · rename_i hcarry
    split
    · rename_i hrange
      refine .finite hsign ?_ (isNearest_of_units hden hx ?_ id)
      · exact hlimit.mpr (lt_of_fits hden hx (fun h => absurd h hcarry) fun _ => hrange)
      · rw [Magnitude.units]
        push_cast
        rfl
    · rename_i hrange
      refine .infinite hsign (not_lt.mp fun h => ?_)
      have hle := le_of_not_fits hden hx (.inr (by omega))
      exact absurd (hlimit.mp h) (not_lt.mpr hle)

end Grid

end Double

end Reckoner
