/-
The nearest double, with its sign.

No double is nearer to a number than the one it is rounded to, whatever the signs are; so rounding
does not lead past a double.  One more or one less than a double is rounded to another double as
long as its neighbours are less than two away.  Where they are two away the even one of two
neighbours is taken, and beyond that the difference is lost.
-/
import Reckoner.Proofs.Double.Arithmetic

namespace Reckoner

/-! ### Large magnitudes -/

namespace Magnitude

variable {m : Magnitude}

/-- The significand of a large magnitude is doubled at least. -/
theorem exists_shift_eq (h : 2 ^ 53 ≤ m.number) :
    ∃ k : ℕ, m.shift = k + 1075 ∧ m.number = m.significand * 2 * 2 ^ k := by
  have hshift : 1075 ≤ m.shift := by
    by_contra hsmall
    have hpower : (2 : ℚ) ^ ((m.shift : ℤ) - 1074) ≤ 1 :=
      zpow_le_one_of_nonpos₀ one_le_two (by omega)
    have hsignificand : (m.significand : ℚ) < 2 ^ 53 := by exact_mod_cast m.significand_lt
    have hle : m.number ≤ m.significand :=
      mul_le_of_le_one_right (Nat.cast_nonneg _) hpower
    linarith
  obtain ⟨k, hk⟩ := Nat.exists_eq_add_of_le' hshift
  refine ⟨k, hk, ?_⟩
  have hexponent : (m.shift : ℤ) - 1074 = (k + 1 : ℕ) := by omega
  rw [number, hexponent, zpow_natCast, pow_succ']
  ring

/-- Large magnitudes are even numbers, -/
theorem exists_eq_two_mul (h : 2 ^ 53 ≤ m.number) : ∃ k : ℤ, m.number = 2 * k := by
  obtain ⟨k, -, hnumber⟩ := exists_shift_eq h
  refine ⟨m.significand * 2 ^ k, ?_⟩
  rw [hnumber]
  push_cast
  ring

/-- and multiples of four where the significand is even or the neighbours are farther apart. -/
theorem exists_eq_four_mul (h : 2 ^ 53 ≤ m.number)
    (heven : Even m.significand ∨ 2 ^ 54 ≤ m.number) : ∃ k : ℤ, m.number = 4 * k := by
  obtain ⟨k, -, hnumber⟩ := exists_shift_eq h
  cases k with
  | zero =>
      rw [pow_zero, mul_one] at hnumber
      have hsignificand : (m.significand : ℚ) < 2 ^ 53 := by exact_mod_cast m.significand_lt
      obtain ⟨j, hj⟩ := heven.resolve_right (by rw [hnumber]; linarith)
      refine ⟨j, ?_⟩
      rw [hnumber, hj]
      push_cast
      ring
  | succ k =>
      refine ⟨m.significand * 2 ^ k, ?_⟩
      rw [hnumber, pow_succ]
      push_cast
      ring

/-- The largest magnitude. -/
theorem number_le (m : Magnitude) : m.number ≤ (2 ^ 53 - 1) * 2 ^ 971 := by
  have hsignificand : (m.significand : ℚ) ≤ 2 ^ 53 - 1 := by
    rw [le_sub_iff_add_le]
    exact_mod_cast m.significand_lt
  have hshift := m.shift_le
  have hpower : (2 : ℚ) ^ ((m.shift : ℤ) - 1074) ≤ 2 ^ 971 := by
    rw [← zpow_natCast]
    exact zpow_le_zpow_right₀ one_le_two (by omega)
  exact mul_le_mul hsignificand hpower (zpow_nonneg two_pos.le _) (by norm_num)

end Magnitude

namespace Double

variable {x : ℚ} {d y a b : Double}

/-! ### Distance -/

theorem SignOf.neg {negative : Bool} (h : SignOf negative x) : SignOf (!negative) (-x) := by
  cases negative <;> simpa [SignOf] using h

theorem Rounds.neg (h : Rounds x d) : Rounds (-x) (-d) := by
  cases h with
  | finite sign below nearest =>
      exact .finite sign.neg (by rwa [abs_neg]) (by rwa [abs_neg])
  | infinite sign beyond => exact .infinite sign.neg (by rwa [abs_neg])

/-- The distance from a double of the same sign is that from its magnitude. -/
theorem abs_sub_number {negative : Bool} (h : SignOf negative x) (m : Magnitude) :
    |x - (Double.finite negative m).number| = |(|x|) - m.number| := by
  cases negative with
  | false =>
      rw [number_finite_false, abs_of_nonneg (show 0 ≤ x from h)]
  | true =>
      rw [number_finite_true, abs_of_nonpos (show x ≤ 0 from h), ← abs_neg]
      congr 1
      ring

/-- No double is nearer. -/
theorem Rounds.dist_le (h : Rounds x d) (hd : d.isFinite = true) (hy : y.isFinite = true) :
    |x - d.number| ≤ |x - y.number| := by
  cases h with
  | infinite _ _ => cases hd
  | @finite negative m sign _ nearest =>
      cases y with
      | finite s n =>
          calc |x - (Double.finite negative m).number| = |(|x|) - m.number| := abs_sub_number sign m
            _ ≤ |(|x|) - n.number| := nearest.near n
            _ = |(|x|) - (|(Double.finite s n).number|)| := by rw [abs_number_finite]
            _ ≤ |x - (Double.finite s n).number| := abs_abs_sub_abs_le _ _
      | _ => cases hy

/-- If another double of the same sign is as near, then the significand is even. -/
theorem Rounds.even_of_dist_eq {negative : Bool} {m n : Magnitude}
    (h : Rounds x (Double.finite negative m)) (hne : n.number ≠ m.number)
    (heq : |x - (Double.finite negative n).number| = |x - (Double.finite negative m).number|) :
    Even m.significand := by
  cases h with
  | finite sign _ nearest =>
      rw [abs_sub_number sign, abs_sub_number sign] at heq
      exact nearest.even n hne heq

/-! ### Order -/

/-- Rounding does not lead above a double, -/
theorem Rounds.le_of_le (h : Rounds x d) (hy : y.isFinite = true) (hle : x ≤ y.number) : d ≤ y := by
  cases hd : d.isFinite with
  | true =>
      refine (le_iff_number_le hd hy).mpr ?_
      by_contra hlt
      have hdist := h.dist_le hd hy
      rw [abs_of_nonpos (by linarith), abs_of_nonpos (by linarith)] at hdist
      linarith
  | false =>
      cases h with
      | finite _ _ _ => cases hd
      | @infinite negative sign beyond =>
          have hbelow := abs_lt.mp (abs_number_lt_limit y)
          cases negative with
          | false =>
              rw [abs_of_nonneg (show 0 ≤ x from sign)] at beyond
              linarith
          | true => exact infinite_le hy

/-- nor below one. -/
theorem Rounds.ge_of_ge (h : Rounds x d) (hy : y.isFinite = true) (hle : y.number ≤ x) : y ≤ d := by
  cases hd : d.isFinite with
  | true =>
      refine (le_iff_number_le hy hd).mpr ?_
      by_contra hlt
      have hdist := h.dist_le hd hy
      rw [abs_of_nonneg (by linarith), abs_of_nonneg (by linarith)] at hdist
      linarith
  | false =>
      cases h with
      | finite _ _ _ => cases hd
      | @infinite negative sign beyond =>
          have hbelow := abs_lt.mp (abs_number_lt_limit y)
          cases negative with
          | true =>
              rw [abs_of_nonpos (show x ≤ 0 from sign)] at beyond
              linarith
          | false => exact le_infinite hy

/-! ### One more and one less -/

/-- A number of this kind is the same with one more and with one less. -/
def Absorbs (x : ℚ) : Prop := 2 ^ 53 < |x| ∧ ∃ k : ℤ, x = 4 * k

theorem absorbs_neg : Absorbs (-x) ↔ Absorbs x := by
  unfold Absorbs
  rw [abs_neg]
  refine and_congr_right fun _ => ⟨?_, ?_⟩
  · rintro ⟨k, hk⟩
    exact ⟨-k, by rw [Int.cast_neg, mul_neg, ← hk, neg_neg]⟩
  · rintro ⟨k, hk⟩
    exact ⟨-k, by rw [Int.cast_neg, mul_neg, ← hk]⟩

section One

variable {m n : Magnitude} {j k : ℤ}

/-- Two is the least difference of an even number to a multiple of four below it. -/
theorem two_mul_eq_of_lt (hlt : (4 * j : ℚ) < 2 * k) (hle : (2 * k : ℚ) ≤ 4 * j + 2) :
    (2 * k : ℚ) = 4 * j + 2 := by
  have hlt' : 4 * j < 2 * k := by exact_mod_cast hlt
  have hle' : 2 * k ≤ 4 * j + 2 := by exact_mod_cast hle
  have heq : 2 * k = 4 * j + 2 := by omega
  exact_mod_cast heq

/-- Two more than a multiple of four is not one. -/
theorem four_mul_ne : (4 * k : ℚ) ≠ 4 * j + 2 := by
  intro h
  have heq : 4 * k = 4 * j + 2 := by exact_mod_cast h
  omega

/-- What one more is rounded to is no more, -/
theorem number_le_of_absorbs (h : Absorbs m.number)
    (ha : Rounds (m.number + 1) (.finite false n)) : n.number ≤ m.number := by
  obtain ⟨hlarge, j, hj⟩ := h
  rw [abs_of_nonneg m.number_nonneg] at hlarge
  by_contra hlt
  have hdist := ha.dist_le rfl (y := .finite false m) rfl
  rw [number_finite_false, number_finite_false, add_sub_cancel_left, abs_one] at hdist
  obtain ⟨k, hk⟩ := Magnitude.exists_eq_two_mul (m := n) (by linarith)
  -- An even number above it, but by two at most.
  have hnext : n.number = m.number + 2 := by
    have hnear := (abs_le.mp hdist).1
    rw [hk, hj] at hlt hnear ⊢
    exact two_mul_eq_of_lt (by linarith) (by linarith)
  have heven : Even n.significand := by
    refine ha.even_of_dist_eq (n := m) (by linarith) ?_
    rw [number_finite_false, number_finite_false, hnext]
    norm_num
  obtain ⟨i, hi⟩ := Magnitude.exists_eq_four_mul (m := n) (by linarith) (.inl heven)
  rw [hi, hj] at hnext
  exact four_mul_ne hnext

/-- and what one less is rounded to is no less. -/
theorem le_number_of_absorbs (h : Absorbs m.number)
    (hb : Rounds (m.number - 1) (.finite false n)) : m.number ≤ n.number := by
  obtain ⟨hlarge, j, hj⟩ := h
  rw [abs_of_nonneg m.number_nonneg] at hlarge
  by_contra hlt
  have hdist := hb.dist_le rfl (y := .finite false m) rfl
  rw [number_finite_false, number_finite_false, sub_sub_cancel_left, abs_neg, abs_one] at hdist
  have hnear := (abs_le.mp hdist).2
  have hlow : (2 : ℚ) ^ 53 + 4 ≤ m.number := by
    have hint : (2 : ℤ) ^ 53 < 4 * j := by
      rw [hj] at hlarge
      exact_mod_cast hlarge
    have hint' : (2 : ℤ) ^ 53 + 4 ≤ 4 * j := by omega
    rw [hj]
    exact_mod_cast hint'
  obtain ⟨k, hk⟩ := Magnitude.exists_eq_two_mul (m := n) (by linarith)
  -- An even number below it, but by two at most.
  have hnext : n.number = m.number - 2 := by
    rw [hk, hj] at hlt hnear ⊢
    have heq := two_mul_eq_of_lt (j := -j) (k := -k) (by push_cast; linarith) (by push_cast; linarith)
    push_cast at heq
    linarith
  have heven : Even n.significand := by
    refine hb.even_of_dist_eq (n := m) (by linarith) ?_
    rw [number_finite_false, number_finite_false, hnext]
    norm_num
  obtain ⟨i, hi⟩ := Magnitude.exists_eq_four_mul (m := n) (by linarith) (.inl heven)
  rw [hi, hj] at hnext
  exact four_mul_ne (k := i) (j := j - 1) (by push_cast; linarith)

theorem exists_finite_of_pos (h : Rounds x d) (hd : d.isFinite = true) (hx : 0 < x) :
    ∃ n, d = .finite false n := by
  cases h with
  | infinite _ _ => cases hd
  | @finite negative n sign _ _ =>
      cases negative with
      | false => exact ⟨n, rfl⟩
      | true => exact absurd hx (not_lt.mpr sign)

/-- Below `2 ^ 53` the neighbours are at most one away. -/
theorem two_zpow_shift_le_one (h : m.number < 2 ^ 53) :
    (2 : ℚ) ^ ((m.shift : ℤ) - 1074) ≤ 1 := by
  refine zpow_le_one_of_nonpos₀ one_le_two ?_
  by_contra hshift
  have hsignificand : (2 : ℚ) ^ 52 ≤ m.significand := by
    exact_mod_cast m.normal.resolve_right (by omega)
  have hpower : (2 : ℚ) ^ (1 : ℤ) ≤ 2 ^ ((m.shift : ℤ) - 1074) :=
    zpow_le_zpow_right₀ one_le_two (by omega)
  have hle : (2 : ℚ) ^ 52 * 2 ^ (1 : ℤ) ≤ m.number :=
    mul_le_mul hsignificand hpower (by positivity) (Nat.cast_nonneg _)
  norm_num at hle h
  linarith

/-- Beyond `2 ^ 53` they are two away, if the magnitude is no multiple of four. -/
theorem two_zpow_shift_eq_two (hlarge : 2 ^ 53 ≤ m.number) (hfour : ¬∃ k : ℤ, m.number = 4 * k) :
    (2 : ℚ) ^ ((m.shift : ℤ) - 1074) = 2 := by
  obtain ⟨k, hshift, hnumber⟩ := Magnitude.exists_shift_eq hlarge
  cases k with
  | zero =>
      rw [hshift]
      norm_num
  | succ k =>
      refine absurd ⟨m.significand * 2 ^ k, ?_⟩ hfour
      rw [hnumber, pow_succ]
      push_cast
      ring

/-- A magnitude below `2 ^ 54` has a neighbour above it. -/
theorem exists_next_of_lt (h : m.number < 2 ^ 54) :
    ∃ next : Magnitude, next.number = m.number + 2 ^ ((m.shift : ℤ) - 1074) := by
  obtain ⟨other, hother⟩ := exists_number_eq_two_pow (n := 54) (by norm_num)
  exact Magnitude.exists_next (hother ▸ h)

/-- Where the neighbour above is at most one away, one more is rounded to something larger. -/
theorem number_lt_of_lt_two_pow (hsmall : m.number < 2 ^ 53)
    (ha : Rounds (m.number + 1) (.finite false n)) : m.number < n.number := by
  have hstep := two_zpow_shift_le_one hsmall
  have hpos : (0 : ℚ) < 2 ^ ((m.shift : ℤ) - 1074) := zpow_pos two_pos _
  obtain ⟨next, hnext⟩ := exists_next_of_lt (m := m) (by linarith)
  have hdist := ha.dist_le rfl (y := .finite false next) rfl
  rw [number_finite_false, number_finite_false, hnext, add_sub_add_left_eq_sub,
    abs_of_nonneg (sub_nonneg.mpr hstep)] at hdist
  have := (abs_le.mp hdist).2
  linarith

/-- One less than `2 ^ 53` is a double itself. -/
theorem number_lt_of_eq_two_pow (hequal : m.number = 2 ^ 53) (hb : Rounds (m.number - 1) b)
    (hbfinite : b.isFinite = true) : b.number < m.number := by
  have hfewer : (2 ^ 53 - 1 : ℕ) < 2 ^ 53 := by decide
  have hdist := hb.dist_le hbfinite
    (y := .finite false ⟨2 ^ 53 - 1, 1074, hfewer, by decide, .inl (by decide)⟩) rfl
  have hnumber : (⟨2 ^ 53 - 1, 1074, hfewer, by decide, .inl (by decide)⟩ : Magnitude).number =
      2 ^ 53 - 1 := by
    norm_num [Magnitude.number]
  rw [number_finite_false, hnumber, hequal, sub_self, abs_zero] at hdist
  have := (abs_le.mp hdist).1
  linarith

/-- Where the neighbour above is two away, one more is in the middle and is rounded to the even one
of the two, which is not the magnitude if that is no multiple of four. -/
theorem number_ne_of_two_pow_lt (hlarge : 2 ^ 53 < m.number) (hfour : ¬∃ k : ℤ, m.number = 4 * k)
    (ha : Rounds (m.number + 1) (.finite false n)) : m.number ≠ n.number := by
  intro heq
  have hbound : m.number < 2 ^ 54 := by
    by_contra hge
    exact hfour (Magnitude.exists_eq_four_mul hlarge.le (.inr (not_lt.mp hge)))
  obtain ⟨next, hnext⟩ := exists_next_of_lt hbound
  rw [two_zpow_shift_eq_two hlarge.le hfour] at hnext
  have heven : Even n.significand := by
    refine ha.even_of_dist_eq (n := next) (by linarith) ?_
    rw [number_finite_false, number_finite_false, hnext, ← heq]
    norm_num
  refine hfour ?_
  rw [heq]
  exact Magnitude.exists_eq_four_mul (heq ▸ hlarge.le) (.inl heven)

/-- A magnitude that is not of that kind differs from what one of the two is rounded to. -/
theorem number_lt_of_not_absorbs (h : ¬Absorbs m.number)
    (ha : Rounds (m.number + 1) (.finite false n)) (hb : Rounds (m.number - 1) b)
    (hbfinite : b.isFinite = true) : b.number < n.number := by
  have hbelow : b.number ≤ m.number :=
    (le_iff_number_le hbfinite rfl).mp
      (hb.le_of_le (y := .finite false m) rfl (by rw [number_finite_false]; linarith))
  have habove : m.number ≤ n.number :=
    (le_iff_number_le (x := .finite false m) (y := .finite false n) rfl rfl).mp
      (ha.ge_of_ge (y := .finite false m) rfl (by rw [number_finite_false]; linarith))
  rcases lt_trichotomy m.number (2 ^ 53) with hsmall | hequal | hlarge
  · exact lt_of_le_of_lt hbelow (number_lt_of_lt_two_pow hsmall ha)
  · exact lt_of_lt_of_le (number_lt_of_eq_two_pow hequal hb hbfinite) habove
  · have hfour : ¬∃ k : ℤ, m.number = 4 * k := by
      intro hfour
      exact h ⟨by rwa [abs_of_nonneg m.number_nonneg], hfour⟩
    exact lt_of_le_of_lt hbelow (lt_of_le_of_ne habove (number_ne_of_two_pow_lt hlarge hfour ha))

theorem number_le_number_iff_of_nonneg (ha : Rounds (m.number + 1) a) (hb : Rounds (m.number - 1) b)
    (hafinite : a.isFinite = true) (hbfinite : b.isFinite = true) :
    a.number ≤ b.number ↔ Absorbs m.number := by
  have hnonneg := m.number_nonneg
  obtain ⟨n, rfl⟩ := exists_finite_of_pos ha hafinite (by linarith)
  rw [number_finite_false]
  constructor
  · intro hle
    by_contra h
    exact absurd hle (not_le.mpr (number_lt_of_not_absorbs h ha hb hbfinite))
  · intro h
    have hlarge := h.1
    rw [abs_of_nonneg hnonneg] at hlarge
    obtain ⟨l, rfl⟩ := exists_finite_of_pos hb hbfinite (by linarith)
    exact (number_le_of_absorbs h ha).trans (le_number_of_absorbs h hb)

/-- One more than a double and one less are rounded to different doubles, unless it is large and
either its neighbours are more than two away or it is the even one of them. -/
theorem number_le_number_iff (hy : y.isFinite = true) (ha : Rounds (y.number + 1) a)
    (hb : Rounds (y.number - 1) b) (hafinite : a.isFinite = true) (hbfinite : b.isFinite = true) :
    a.number ≤ b.number ↔ Absorbs y.number := by
  cases y with
  | finite negative m =>
      cases negative with
      | false => exact number_le_number_iff_of_nonneg ha hb hafinite hbfinite
      | true =>
          rw [number_finite_true] at ha hb ⊢
          have ha' : Rounds (m.number - 1) (-a) := by
            have := ha.neg
            rwa [neg_add, neg_neg, ← sub_eq_add_neg] at this
          have hb' : Rounds (m.number + 1) (-b) := by
            have := hb.neg
            rwa [neg_sub, sub_neg_eq_add, add_comm] at this
          have h := number_le_number_iff_of_nonneg hb' ha' (by rwa [isFinite_neg])
            (by rwa [isFinite_neg])
          rwa [number_neg, number_neg, neg_le_neg_iff, ← absorbs_neg] at h
  | _ => cases hy

end One

/-- No double is so large that one more would be out of range. -/
theorem abs_number_add_one_lt_limit (y : Double) : |y.number| + 1 < limit := by
  have hlargest : |y.number| ≤ (2 ^ 53 - 1) * 2 ^ 971 := by
    cases y with
    | finite negative m => exact abs_number_finite negative m ▸ m.number_le
    | infinite _ | nan =>
        change |(0 : ℚ)| ≤ _
        rw [abs_zero]
        exact mul_nonneg (by norm_num) (by positivity)
  have hroom : (1 : ℚ) < 2 ^ 970 := one_lt_pow₀ one_lt_two (by norm_num)
  have hstep : (2 : ℚ) ^ 971 = 2 ^ 970 * 2 := pow_succ 2 970
  rw [limit]
  rw [hstep] at hlargest ⊢
  generalize (2 : ℚ) ^ 970 = step at hlargest hroom ⊢
  linarith

end Double

end Reckoner
