/-
Amounts are shown in their order.

Between the thresholds all numbers are rounded at one place, and outside of them each decade has a
place of its own; in both ranges rounding keeps the order.  The thresholds are powers of ten, up to
a threshold that is no double, and no rounding crosses a power of ten that is a multiple of its
place.  So what is shown below a threshold is at most the threshold, and what is shown above it is
at least that.
-/
import Reckoner.Proofs.Decimal.Reading

namespace Reckoner.Amount

/-! ### What is shown for a magnitude -/

/-- The number that is shown for a positive magnitude. -/
inductive ShownAs (m : Magnitude) : ℚ → Prop
  /-- Between the thresholds it is the nearest multiple of a millionth. -/
  | everyday {n : ℕ} (h : isEveryday m = true) (hn : IsNearest (m.number * 10 ^ 6) n) :
      ShownAs m (n / 10 ^ 6)
  /-- Outside of them it has six significant digits. -/
  | general {r : ℚ} (h : ¬ isEveryday m = true) (hr : IsRounded 6 m.number r) : ShownAs m r

/-- With either sign in front, the text of a magnitude shows this number. -/
theorem exists_shownAs (negative : Bool) {m : Magnitude} (hm : m.significand ≠ 0) :
    ∃ r, 0 < r ∧ ShownAs m r ∧ Shows (text (.finite negative m)) (if negative then -r else r) := by
  by_cases h : isEveryday m = true
  · obtain ⟨n, hpos, hn, hplain⟩ := signed_everyday negative hm h
    have hpos' : (0 : ℚ) < n := by exact_mod_cast hpos
    exact ⟨n / 10 ^ 6, by positivity, .everyday h hn, .inl hplain⟩
  · obtain ⟨r, k, hrounded, hdecade, hnotation⟩ := signed_general negative hm h
    refine ⟨r, lt_of_lt_of_le (ten_zpow_pos k) hdecade.lower, .general h hrounded, ?_⟩
    by_cases hscientific : k < -4 ∨ 6 ≤ k
    · rw [if_pos hscientific] at hnotation
      exact .inr ⟨k, hnotation⟩
    · rw [if_neg hscientific] at hnotation
      exact .inl hnotation

namespace ShownAs

variable {m m' : Magnitude} {r r' : ℚ} {k : ℤ}

/-- What is shown does not go beyond a power of ten, unless it is one below the last place. -/
theorem le_ten_zpow (hm : m.significand ≠ 0) (h : ShownAs m r) (hk : -6 ≤ k)
    (hlt : m.number < 10 ^ k) : r ≤ 10 ^ k := by
  cases h with
  | @everyday n _ hn =>
      exact (IsNearest.ten_zpow_bounds (p := 6) hn (div_mul_cancel₀ _ (by norm_num))
        (by omega)).2 (le_of_lt hlt)
  | general _ hr => exact hr.le_ten_zpow (c := 5) (Magnitude.number_pos hm) hlt

/-- Nor does it go below one. -/
theorem ten_zpow_le (hm : m.significand ≠ 0) (h : ShownAs m r) (hk : -6 ≤ k)
    (hle : 10 ^ k ≤ m.number) : 10 ^ k ≤ r := by
  cases h with
  | @everyday n _ hn =>
      exact (IsNearest.ten_zpow_bounds (p := 6) hn (div_mul_cancel₀ _ (by norm_num))
        (by omega)).1 hle
  | general _ hr => exact hr.ten_zpow_le (c := 5) (Magnitude.number_pos hm) hle

/-- Magnitudes on the two sides of a power of ten are shown in their order. -/
theorem le_of_separated (hm : m.significand ≠ 0) (hm' : m'.significand ≠ 0) (h : ShownAs m r)
    (h' : ShownAs m' r') (hk : -6 ≤ k) (hlt : m.number < 10 ^ k) (hle : 10 ^ k ≤ m'.number) :
    r ≤ r' :=
  (h.le_ten_zpow hm hk hlt).trans (h'.ten_zpow_le hm' hk hle)

/-- Magnitudes are shown in their order. -/
theorem mono (hm : m.significand ≠ 0) (hm' : m'.significand ≠ 0) (h : ShownAs m r)
    (h' : ShownAs m' r') (hle : m.number ≤ m'.number) : r ≤ r' := by
  cases h with
  | everyday h hn =>
      cases h' with
      | everyday h' hn' =>
          have hcount := hn.mono hn' (mul_le_mul_of_nonneg_right hle (by norm_num))
          exact div_le_div_of_nonneg_right (by exact_mod_cast hcount) (by norm_num)
      | general h' hr' =>
          -- The smaller number is below a million, and the larger one is not.
          obtain ⟨hlo, hhi⟩ := (isEveryday_iff m).mp h
          have hlarge : million.number ≤ m'.number := by
            rw [isEveryday_iff, not_and, not_lt] at h'
            exact h' (hlo.trans hle)
          have hpower : million.number = 10 ^ (6 : ℤ) := by
            rw [number_million]
            norm_num
          rw [hpower] at hhi hlarge
          exact le_of_separated hm hm' (.everyday h hn) (.general h' hr') (by norm_num) hhi hlarge
  | general h hr =>
      cases h' with
      | everyday h' hn' =>
          -- The smaller number is below a thousandth, and the larger one is not.
          obtain ⟨hlo, hhi⟩ := (isEveryday_iff m').mp h'
          have hsmall : m.number < thousandth.number := by
            rw [isEveryday_iff, not_and_or, not_le, not_lt] at h
            exact h.resolve_right (not_le.mpr (lt_of_le_of_lt hle hhi))
          have hbelow := le_of_lt_thousandth hsmall
          rw [number_thousandth] at hlo
          have hpower : (10 : ℚ) ^ (-3 : ℤ) = 1 / 1000 := by norm_num
          refine le_of_separated (k := -3) hm hm' (.general h hr) (.everyday h' hn') (by norm_num)
            ?_ ?_
          · rw [hpower]
            linarith
          · rw [hpower]
            linarith
      | general h' hr' => exact hr.mono (c := 5) (Magnitude.number_pos hm) hle hr'

end ShownAs

/-! ### What is shown for a double -/

/-- The number that is shown for a finite double. -/
inductive Shown : Double → ℚ → Prop
  | zero {negative : Bool} {m : Magnitude} (hm : m.significand = 0) : Shown (.finite negative m) 0
  | positive {m : Magnitude} {r : ℚ} (hm : m.significand ≠ 0) (hr : 0 < r) (h : ShownAs m r) :
      Shown (.finite false m) r
  | negative {m : Magnitude} {r : ℚ} (hm : m.significand ≠ 0) (hr : 0 < r) (h : ShownAs m r) :
      Shown (.finite true m) (-r)

theorem exists_shown {v : Double} (hv : v.isFinite = true) : ∃ r, Shown v r ∧ Shows (text v) r := by
  cases v with
  | finite negative m =>
      by_cases hm : m.significand = 0
      · have htext : text (.finite negative m) = "0" := if_pos hm
        exact ⟨0, .zero hm, htext ▸ .inl isPlain_zero⟩
      · obtain ⟨r, hpos, hshown, hshows⟩ := exists_shownAs negative hm
        cases negative with
        | false => exact ⟨r, .positive hm hpos hshown, hshows⟩
        | true => exact ⟨-r, .negative hm hpos hshown, hshows⟩
  | _ => cases hv

namespace Shown

variable {v w : Double} {r s : ℚ}

/-- What is shown has the sign of the number. -/
theorem sign (h : Shown v r) : (0 < r ↔ 0 < v.number) ∧ (r < 0 ↔ v.number < 0) := by
  cases h with
  | @zero negative m hm =>
      have hnumber : (Double.finite negative m).number = 0 := by
        rw [← abs_eq_zero, Double.abs_number_finite]
        exact Magnitude.number_eq_zero_iff.mpr hm
      rw [hnumber]
      exact ⟨Iff.rfl, Iff.rfl⟩
  | positive hm hr _ =>
      have hnumber := Magnitude.number_pos hm
      exact ⟨iff_of_true hr hnumber, iff_of_false (lt_asymm hr) (lt_asymm hnumber)⟩
  | negative hm hr _ =>
      have hshown := neg_neg_of_pos hr
      have hnumber := neg_neg_of_pos (Magnitude.number_pos hm)
      exact ⟨iff_of_false (lt_asymm hshown) (lt_asymm hnumber), iff_of_true hshown hnumber⟩

theorem exists_of_pos (h : Shown v r) (hr : 0 < r) :
    ∃ m, v = .finite false m ∧ m.significand ≠ 0 ∧ ShownAs m r := by
  cases h with
  | zero _ => exact absurd hr (lt_irrefl 0)
  | positive hm _ hshown => exact ⟨_, rfl, hm, hshown⟩
  | negative _ hpos _ => exact absurd (neg_pos.mp hr) (lt_asymm hpos)

theorem exists_of_neg (h : Shown v r) (hr : r < 0) :
    ∃ m, v = .finite true m ∧ m.significand ≠ 0 ∧ ShownAs m (-r) := by
  cases h with
  | zero _ => exact absurd hr (lt_irrefl 0)
  | positive _ hpos _ => exact absurd hr (lt_asymm hpos)
  | negative hm _ hshown =>
      refine ⟨_, rfl, hm, ?_⟩
      rwa [neg_neg]

/-- Doubles are shown in their order.  If they were not, then both would have the sign of what is
out of order, and their magnitudes would be out of order too. -/
theorem mono (h : Shown v r) (h' : Shown w s) (hle : v.number ≤ w.number) : r ≤ s := by
  by_contra hlt
  rw [not_le] at hlt
  rcases lt_or_ge 0 r with hr | hr
  · have hs := h'.sign.1.mpr (lt_of_lt_of_le (h.sign.1.mp hr) hle)
    obtain ⟨m, rfl, hm, hshown⟩ := h.exists_of_pos hr
    obtain ⟨m', rfl, hm', hshown'⟩ := h'.exists_of_pos hs
    exact absurd (hshown.mono hm hm' hshown' hle) (not_le.mpr hlt)
  · have hs := lt_of_lt_of_le hlt hr
    have hr' := h.sign.2.mpr (lt_of_le_of_lt hle (h'.sign.2.mp hs))
    obtain ⟨m, rfl, hm, hshown⟩ := h.exists_of_neg hr'
    obtain ⟨m', rfl, hm', hshown'⟩ := h'.exists_of_neg hs
    have hreverse := hshown'.mono hm' hm hshown (neg_le_neg_iff.mp hle)
    exact absurd (neg_le_neg_iff.mp hreverse) (not_le.mpr hlt)

end Shown

/-! ### Order and sign -/

/-- The text of a negative number is that of the positive one behind a minus sign. -/
theorem text_neg {m : Magnitude} (hm : m.significand ≠ 0) :
    text (-.finite false m) = "-" ++ text (.finite false m) := by
  have hneg : (-.finite false m : Double) = .finite true m := rfl
  rw [hneg, text_of_significand_ne_zero hm, text_of_significand_ne_zero hm, ← String.toList_inj]
  simp

/--
**Amounts are shown in their order and with their sign.**  The text of a finite double shows
exactly one number.  Of two doubles the smaller one does not show the greater number, whatever
notations and places the two are shown in.  A positive double shows a positive number, and the text
of its negative is the same text behind a minus sign.
-/
theorem shows_in_order {v w : Double} (hv : v.isFinite = true) (hw : w.isFinite = true) :
    (∃! r, Shows (text v) r) ∧
      (v ≤ w → ∃ r s, Shows (text v) r ∧ Shows (text w) s ∧ r ≤ s) ∧
      (0 < v → text (-v) = "-" ++ text v ∧ ∃ r, Shows (text v) r ∧ 0 < r) := by
  obtain ⟨r, hr, hshows⟩ := exists_shown hv
  obtain ⟨s, hs, hshows'⟩ := exists_shown hw
  refine ⟨⟨r, hshows, fun _ h => h.unique hshows⟩, ?_, ?_⟩
  · intro hle
    exact ⟨r, s, hshows, hshows', hr.mono hs ((Double.le_iff_number_le hv hw).mp hle)⟩
  · intro hpos
    have hpositive := hr.sign.1.mpr ((Double.pos_iff hv).mp hpos)
    obtain ⟨m, rfl, hm, -⟩ := hr.exists_of_pos hpositive
    exact ⟨text_neg hm, r, hshows, hpositive⟩

/-- Two numbers that are a unit of their last places apart are shown in different notations on the
two sides of a million. -/
theorem shows_in_order_million :
    text 999999.9999999999 = "1000000" ∧ text 1000000.0 = "1e+06" ∧
      text (-999999.9999999999) = "-1000000" ∧
      ∃ r s, Shows "1000000" r ∧ Shows "1e+06" s ∧ r ≤ s := by
  have hbelow : text 999999.9999999999 = "1000000" := by decide +kernel
  have hmillion : text 1000000.0 = "1e+06" := by decide +kernel
  obtain ⟨-, hle, hneg⟩ := shows_in_order (v := 999999.9999999999) (w := 1000000.0)
    (by decide +kernel) (by decide +kernel)
  have hshown := hle (by decide +kernel)
  have hsign := (hneg (by decide +kernel)).1
  rw [hbelow, hmillion] at hshown
  rw [hbelow] at hsign
  exact ⟨hbelow, hmillion, hsign, hshown⟩

end Reckoner.Amount
