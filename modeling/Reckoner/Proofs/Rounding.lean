/-
What it is to be nearest.

Rounding is specified on the rational numbers: the distance is at most a half, and a half
only from an even integer.  There is exactly one such integer, so two roundings of the same
number agree however they were computed, and rounding never crosses an integer.
-/
import Mathlib
import Reckoner.Rounding

namespace Reckoner

/-- An integer is the nearest one to a number; of two that are equally near, it is the even one. -/
structure IsNearest (x : ℚ) (n : ℤ) : Prop where
  near : |x - n| ≤ 1 / 2
  even : |x - n| = 1 / 2 → Even n

namespace IsNearest

variable {x : ℚ} {n k : ℤ}

theorem of_lt (h : |x - n| < 1 / 2) : IsNearest x n :=
  ⟨le_of_lt h, fun heq => absurd heq (ne_of_lt h)⟩

/-- No integer lies between a number and its nearest integer. -/
theorem le_of_le (h : IsNearest x n) (hk : (k : ℚ) ≤ x) : k ≤ n := by
  have hnear := abs_le.mp h.near
  have hlt : (k : ℚ) < n + 1 := by linarith [hnear.2]
  exact Int.lt_add_one_iff.mp (by exact_mod_cast hlt)

theorem neg (h : IsNearest x n) : IsNearest (-x) (-n) := by
  have hdist : |(-x) - ((-n : ℤ) : ℚ)| = |x - n| := by
    rw [Int.cast_neg, neg_sub_neg, abs_sub_comm]
  refine ⟨?_, ?_⟩
  · rw [hdist]
    exact h.near
  · intro heq
    rw [hdist] at heq
    exact (h.even heq).neg

theorem ge_of_ge (h : IsNearest x n) (hk : x ≤ k) : n ≤ k := by
  have hneg : ((-k : ℤ) : ℚ) ≤ -x := by
    rw [Int.cast_neg]
    exact neg_le_neg hk
  have := h.neg.le_of_le hneg
  omega

/-- What is no farther from an integer than a number is rounded as that number. -/
theorem of_dist_le {y : ℚ} (h : IsNearest x n) (hle : |y - n| ≤ |x - n|) : IsNearest y n :=
  ⟨hle.trans h.near, fun heq => h.even (le_antisymm h.near (heq ▸ hle))⟩

/-- Of two nearest integers one would be odd. -/
theorem unique (h : IsNearest x n) (h' : IsNearest x k) : n = k := by
  by_contra hne
  wlog hlt : n < k with hwlog
  · exact hwlog h' h (Ne.symm hne) (by omega)
  have hn := abs_le.mp h.near
  have hk := abs_le.mp h'.near
  have hgap : ((n : ℚ) + 1 : ℚ) ≤ k := by exact_mod_cast hlt
  have hxn : x - n = 1 / 2 := by linarith [hn.2, hk.1]
  have hxk : x - k = -(1 / 2) := by linarith [hn.2, hk.1]
  have hsucc : k = n + 1 := by
    have : (k : ℚ) = n + 1 := by linarith
    exact_mod_cast this
  have hevenn : Even n := h.even (by rw [hxn]; norm_num)
  have hevenk : Even k := h'.even (by rw [hxk]; norm_num)
  rw [hsucc, Int.even_add_one] at hevenk
  exact hevenk hevenn

/-- Rounding keeps the order of numbers. -/
theorem mono {y : ℚ} (h : IsNearest x n) (h' : IsNearest y k) (hle : x ≤ y) : n ≤ k := by
  by_contra hlt
  have hstep : (k : ℚ) + 1 ≤ n := by exact_mod_cast not_le.mp hlt
  have hn := abs_le.mp h.near
  have hk := abs_le.mp h'.near
  -- Only the half between the two integers could be rounded to both of them.
  have hxy : x = y := le_antisymm hle (by linarith [hn.1, hk.2])
  exact hlt (le_of_eq (h.unique (hxy ▸ h')))

end IsNearest

/-- Division to the nearest finds the nearest integer. -/
theorem isNearest_divNearest (num : Nat) {den : Nat} (hden : 0 < den) :
    IsNearest (num / den : ℚ) (divNearest num den) := by
  have hpos : (0 : ℚ) < den := by exact_mod_cast hden
  have hdivide : (num / den : ℚ) = (num / den : ℕ) + (num % den : ℕ) / den := by
    have hnum : (num : ℚ) = den * (num / den : ℕ) + (num % den : ℕ) := by
      exact_mod_cast (Nat.div_add_mod num den).symm
    rw [hnum]
    field_simp
  have hrest : num % den < den := Nat.mod_lt num hden
  rw [hdivide, divNearest]
  generalize num / den = quotient
  generalize num % den = rest at hrest ⊢
  have hnonneg : (0 : ℚ) ≤ rest / den := by positivity
  by_cases hlow : 2 * rest < den
  · rw [if_pos hlow]
    have hhalf : (rest / den : ℚ) < 1 / 2 := by
      rw [div_lt_div_iff₀ hpos two_pos]
      exact_mod_cast (by omega : rest * 2 < 1 * den)
    apply IsNearest.of_lt
    rw [abs_lt]
    constructor <;> push_cast <;> linarith
  · rw [if_neg hlow]
    by_cases hhigh : den < 2 * rest
    · rw [if_pos hhigh]
      have hhalf : 1 / 2 < (rest / den : ℚ) := by
        rw [div_lt_div_iff₀ two_pos hpos]
        exact_mod_cast (by omega : 1 * den < rest * 2)
      have hone : (rest / den : ℚ) < 1 := by
        rw [div_lt_one hpos]
        exact_mod_cast hrest
      apply IsNearest.of_lt
      rw [abs_lt]
      constructor <;> push_cast <;> linarith
    · rw [if_neg hhigh]
      -- The number is a half above an even quotient, or a half below the successor of an odd one.
      have hhalf : (rest / den : ℚ) = 1 / 2 := by
        rw [div_eq_div_iff (ne_of_gt hpos) two_ne_zero]
        exact_mod_cast (by omega : rest * 2 = 1 * den)
      have heven : Even (quotient + quotient % 2) := by
        rw [Nat.even_iff]
        omega
      refine ⟨?_, fun _ => by exact_mod_cast heven⟩
      rw [hhalf]
      rcases Nat.mod_two_eq_zero_or_one quotient with h | h
      · rw [h, abs_le]
        constructor <;> push_cast <;> linarith
      · rw [h, abs_le]
        constructor <;> push_cast <;> linarith

end Reckoner
