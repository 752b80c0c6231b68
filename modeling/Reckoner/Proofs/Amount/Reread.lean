/-
Amounts are shown again as they were.

What is read back is a double nearest to the number that is shown, so it is no farther from
that number than the double that was shown first.  In the decade of the shown number it is
therefore rounded to that number again.  Below the decade, where the places are ten times as
fine, the shown number is a power of ten and the double that is read is within half a unit of
its last place; that is close enough for all but the smallest doubles, and for these the
doubles are too far apart to have both of them that close, with one exception.
-/
import Reckoner.Proofs.Amount.Order

namespace Reckoner

/-! ### Close to a power of ten -/

section PowerOfTen

variable {y : ℚ} {k : ℤ}

/-- Powers of ten at the first of six digits and at half of the last. -/
theorem ten_zpow_eq_mul (k : ℤ) :
    (10 : ℚ) ^ k = 10 ^ 6 * 10 ^ (k - 6) ∧ (10 : ℚ) ^ (k - 1) = 10 ^ 5 * 10 ^ (k - 6) := by
  constructor
  all_goals
    rw [← zpow_natCast, ← zpow_add₀ (by norm_num)]
    congr 1
    push_cast
    ring

/-- What is just below a power of ten is rounded up to it. -/
theorem isRounded_ten_zpow (hy : y < 10 ^ k) (hclose : 10 ^ k - y ≤ 10 ^ (k - 6) / 2) :
    IsRounded 6 y (10 ^ k) := by
  obtain ⟨hk, hk'⟩ := ten_zpow_eq_mul k
  have hpos := ten_zpow_pos (k - 6)
  have hplace : ((6 : ℕ) : ℤ) - 1 - (k - 1) = -(k - 6) := by
    push_cast
    ring
  have hplace' : k - 1 - (((6 : ℕ) : ℤ) - 1) = k - 6 := by
    push_cast
    ring
  refine ⟨k - 1, 10 ^ 6, ?_, ⟨?_, fun _ => by decide⟩, ?_⟩
  · have hlo : (10 : ℚ) ^ (k - 1) ≤ y := by linarith
    rw [abs_of_pos (lt_of_lt_of_le (ten_zpow_pos _) hlo)]
    refine ⟨hlo, ?_⟩
    rwa [sub_add_cancel]
  · rw [hplace, zpow_neg, abs_sub_comm, abs_of_nonneg]
    all_goals
      rw [hk] at hclose hy
      generalize (10 : ℚ) ^ (k - 6) = p at hclose hy hpos
      push_cast
    · rw [sub_le_iff_le_add, ← sub_le_iff_le_add', ← div_eq_mul_inv, le_div_iff₀ hpos]
      linarith
    · rw [sub_nonneg, ← div_eq_mul_inv, div_le_iff₀ hpos]
      linarith
  · rw [hplace', hk]
    push_cast
    rfl

/-- Only what is that close is rounded up to a power of ten. -/
theorem IsRounded.sub_le (hy : 0 < y) (hlt : y < 10 ^ k) (h : IsRounded 6 y (10 ^ k)) :
    10 ^ k - y ≤ 10 ^ (k - 6) / 2 := by
  obtain ⟨e, n, he, hn, hr⟩ := h
  rw [abs_of_pos hy] at he
  have hplace : ((6 : ℕ) : ℤ) - 1 - e = -(e - 5) := by
    push_cast
    ring
  have hplace' : e - (((6 : ℕ) : ℤ) - 1) = e - 5 := by
    push_cast
    ring
  rw [hplace, zpow_neg] at hn
  rw [hplace'] at hr
  have he' : e < k :=
    (zpow_lt_zpow_iff_right₀ (by norm_num : (1 : ℚ) < 10)).mp (lt_of_le_of_lt he.lower hlt)
  have hpower : (10 : ℚ) ^ (e - 5) ≤ 10 ^ (k - 6) := zpow_le_zpow_right₀ (by norm_num) (by omega)
  have hpos := ten_zpow_pos (e - 5)
  have hnear := (abs_le.mp hn.near).1
  rw [hr]
  generalize (10 : ℚ) ^ (e - 5) = p at hpower hpos hnear
  rw [← div_eq_mul_inv, le_sub_iff_add_le, le_div_iff₀ hpos] at hnear
  linarith

end PowerOfTen

/-! ### Magnitudes beside a power of ten -/

namespace Amount

variable {x w : Magnitude} {r : ℚ} {k : ℤ}

/-- The one magnitude that is not shown again as it was. -/
def unstable : Magnitude :=
  { Magnitude.zero with significand := 202403, significand_lt := by decide, normal := .inr rfl }

/-- Where the digits are as fine as the units, one magnitude is rounded down to a power of ten. -/
theorem units_eq_of_close (hlo : 10 ^ (-318 : ℤ) < x.number)
    (hhi : x.number - 10 ^ (-318 : ℤ) ≤ 10 ^ (-318 - 5 : ℤ) / 2) : x.units = 202403 := by
  have hnumber : x.number = x.units / 2 ^ 1074 := by
    rw [Magnitude.units_eq, mul_div_cancel_right₀ _ (by positivity)]
  have hpower : (10 : ℚ) ^ (-318 : ℤ) = 1 / 10 ^ 318 := by
    rw [zpow_neg, one_div]
    rfl
  have hplace : (10 : ℚ) ^ (-318 - 5 : ℤ) = 1 / (10 ^ 5 * 10 ^ 318) := by
    rw [← pow_add, one_div, ← zpow_natCast, ← zpow_neg]
    rfl
  rw [hnumber, hpower] at hlo hhi
  rw [hplace] at hhi
  have hpos : (0 : ℚ) < 2 ^ 1074 := by positivity
  have hpos' : (0 : ℚ) < 10 ^ 318 := by positivity
  have hbelow : (202402 : ℚ) * 10 ^ 318 ≤ 2 ^ 1074 := by
    have : 202402 * 10 ^ 318 ≤ 2 ^ 1074 := by decide +kernel
    exact_mod_cast this
  have habove : (200001 : ℚ) * 2 ^ 1074 < 404808 * 10 ^ 5 * 10 ^ 318 := by
    have : 200001 * 2 ^ 1074 < 404808 * 10 ^ 5 * 10 ^ 318 := by decide +kernel
    exact_mod_cast this
  generalize (2 : ℚ) ^ 1074 = two at hlo hhi hpos hbelow habove
  generalize (10 : ℚ) ^ 318 = ten at hlo hhi hpos' hbelow habove
  have hlo' : (202402 : ℚ) < x.units := by
    rw [div_lt_div_iff₀ hpos' hpos] at hlo
    nlinarith
  have hhi' : (x.units : ℚ) < 202404 := by
    have hsum : 1 / (10 ^ 5 * ten) / 2 + 1 / ten = 200001 / (200000 * ten) := by
      field_simp
      norm_num
    rw [sub_le_iff_le_add, hsum, div_le_div_iff₀ hpos (by positivity)] at hhi
    nlinarith
  have hlo'' : 202402 < x.units := by exact_mod_cast hlo'
  have hhi'' : x.units < 202404 := by exact_mod_cast hhi'
  omega

theorem eq_unstable (hunits : x.units = 202403) : x = unstable := by
  have hshift : x.shift = 0 := by
    rcases x.normal with hnormal | hshift
    · have hle : x.significand ≤ x.units := Nat.le_mul_of_pos_right _ (Nat.two_pow_pos _)
      omega
    · exact hshift
  obtain ⟨significand, shift, hlt, hle, hnormal⟩ := x
  obtain rfl : shift = 0 := hshift
  obtain rfl : significand = 202403 := by simpa [Magnitude.units] using hunits
  rfl

/-- The magnitude nearest to a power of ten is rounded to it if the power of ten is what another
magnitude is rounded down to. -/
theorem sub_le_of_isNearest (hw : w.IsNearest (10 ^ k)) (hlo : w.number < 10 ^ k)
    (hhi : 10 ^ k < x.number) (hclose : x.number - 10 ^ k ≤ 10 ^ (k - 5) / 2) (hx : x ≠ unstable) :
    10 ^ k - w.number ≤ 10 ^ (k - 6) / 2 := by
  have hgap := hw.sub_le hlo hhi
  rcases w.normal with hnormal | hshift
  · -- The unit of the last place is small beside the number itself.
    have hnumber : (2 : ℚ) ^ 52 * 2 ^ ((w.shift : ℤ) - 1074) ≤ w.number :=
      mul_le_mul_of_nonneg_right (by exact_mod_cast hnormal) (by positivity)
    rw [(ten_zpow_eq_mul k).1] at hlo hgap ⊢
    generalize (2 : ℚ) ^ ((w.shift : ℤ) - 1074) = unit at hnumber hgap
    linarith
  · rw [hshift, Nat.cast_zero, zero_sub] at hgap
    rcases lt_trichotomy k (-318) with hk | rfl | hk
    · -- There is not enough room for both magnitudes.
      have hunit : (10 : ℚ) ^ (k - 5) < 2 ^ (-1074 : ℤ) := by
        refine lt_of_le_of_lt (zpow_le_zpow_right₀ (by norm_num) (by omega : k - 5 ≤ -324)) ?_
        have hnat : 2 ^ 1074 < 10 ^ 324 := by decide +kernel
        have hrat : (2 : ℚ) ^ 1074 < 10 ^ 324 := by exact_mod_cast hnat
        exact inv_strictAnti₀ (by positivity) hrat
      have hroom := Magnitude.add_unit_le (hlo.trans hhi)
      linarith
    · exact absurd (eq_unstable (units_eq_of_close hhi hclose)) hx
    · have hunit : (2 : ℚ) ^ (-1074 : ℤ) ≤ 10 ^ (k - 6) := by
        refine le_trans ?_ (zpow_le_zpow_right₀ (by norm_num) (by omega : -323 ≤ k - 6))
        have hnat : 10 ^ 323 ≤ 2 ^ 1074 := by decide +kernel
        have hrat : (10 : ℚ) ^ 323 ≤ 2 ^ 1074 := by exact_mod_cast hnat
        exact inv_anti₀ (by positivity) hrat
      linarith

/-! ### Rounded again -/

/-- What is nearest to a number with few digits is rounded at their last place as what was rounded
to that number. -/
theorem isNearest_reread {q : ℚ} (hq : 0 < q) {n : ℤ} (hn : IsNearest (x.number * q) n)
    (hr : r * q = n) (hw : w.IsNearest r) : IsNearest (w.number * q) n := by
  have hscale : ∀ y, |y * q - n| = |r - y| * q := by
    intro y
    rw [← hr, ← sub_mul, abs_mul, abs_of_pos hq, abs_sub_comm]
  refine hn.of_dist_le ?_
  rw [hscale, hscale]
  exact mul_le_mul_of_nonneg_right (hw.near x) (le_of_lt hq)

/-- What is read is rounded to the number that was read. -/
theorem isRounded_reread (hm : x.significand ≠ 0) (h : IsRounded 6 x.number r)
    (hw : w.IsNearest r) (hx : x ≠ unstable) : IsRounded 6 w.number r := by
  have hpos := Magnitude.number_pos hm
  obtain ⟨k, -, hk, -⟩ := h.exists_digits (c := 5) hpos
  obtain ⟨n, hn, hr⟩ := h.isNearest (c := 5) hpos hk
  rw [Nat.cast_ofNat] at hn hr
  have hq := ten_zpow_pos (5 - k)
  have hrn : r * 10 ^ (5 - k) = n := by rw [hr, mul_ten_zpow_cancel]
  have hn' := isNearest_reread hq hn hrn hw
  rcases le_or_gt (10 ^ k) w.number with hlo | hlo
  · -- Both are in the decade of the number.
    refine ⟨k, n, ?_, hn', hr⟩
    rw [abs_of_pos (lt_of_lt_of_le (ten_zpow_pos k) hlo)]
    refine ⟨hlo, not_le.mp fun hhi => not_le.mpr hk.upper ?_⟩
    exact (hn'.ten_zpow_bounds hrn (by omega)).1 hhi
  · -- The number is the power of ten at which its decade starts.
    have hr' : r = 10 ^ k :=
      le_antisymm ((hn'.ten_zpow_bounds hrn (by omega)).2 (le_of_lt hlo)) hk.lower
    subst hr'
    refine isRounded_ten_zpow hlo ?_
    have hnear := hw.near x
    rw [abs_of_pos (sub_pos.mpr hlo)] at hnear
    rcases lt_trichotomy x.number (10 ^ k) with hxk | hxk | hxk
    · rw [abs_of_pos (sub_pos.mpr hxk)] at hnear
      exact hnear.trans (h.sub_le hpos hxk)
    · rw [hxk, sub_self, abs_zero] at hnear
      linarith
    · refine sub_le_of_isNearest hw hlo hxk ?_ hx
      have hclose := (abs_le.mp hn.near).2
      rw [← hrn, ← sub_mul] at hclose
      refine le_of_mul_le_mul_right ?_ hq
      rw [div_eq_inv_mul, mul_ten_zpow_cancel]
      linarith

theorem significand_ne_zero_of_isRounded {count : ℕ} (h : IsRounded count w.number r) :
    w.significand ≠ 0 := by
  obtain ⟨e, -, he, -⟩ := h
  have hpos := lt_of_lt_of_le (ten_zpow_pos e) he.lower
  exact mt Magnitude.number_eq_zero_iff.mpr (abs_pos.mp hpos)

/-! ### The thresholds again -/

/-- What is read is not below the threshold if what is shown is not. -/
theorem thousandth_le (hw : w.IsNearest r) (hr : 1 / 1000 ≤ r) :
    thousandth.number ≤ w.number := by
  by_contra hlt
  have hbelow := le_of_lt_thousandth (not_le.mp hlt)
  have hnear := hw.near thousandth
  rw [number_thousandth] at hnear
  rw [abs_of_nonneg (by linarith)] at hnear
  rcases le_total (4611686018427388 / 2 ^ 62) r with h | h
  · rw [abs_of_nonneg (by linarith)] at hnear
    linarith
  · rw [abs_of_nonpos (by linarith)] at hnear
    linarith

/-- Between the thresholds the same multiple of a millionth is shown. -/
theorem magnitudeChars_everyday (h : isEveryday x = true) {n : ℕ}
    (hn : IsNearest (x.number * 10 ^ 6) n) (hlast : n ≠ 10 ^ 12) (hw : w.IsNearest (n / 10 ^ 6)) :
    w.significand ≠ 0 ∧ magnitudeChars w = magnitudeChars x := by
  obtain ⟨hlo, hhi⟩ := (isEveryday_iff x).mp h
  have hn' := isNearest_reread (by positivity) hn (by field_simp; rfl) hw
  have hlo' : 1000 ≤ n := by
    have : (1000 : ℤ) ≤ n := hn.le_of_le (by rw [number_thousandth] at hlo; push_cast; linarith)
    exact_mod_cast this
  have hhi' : n ≤ 10 ^ 12 := by
    have : (n : ℤ) ≤ 10 ^ 12 := hn.ge_of_ge (by rw [number_million] at hhi; push_cast; linarith)
    exact_mod_cast this
  have heveryday : isEveryday w = true := by
    refine (isEveryday_iff w).mpr ⟨thousandth_le hw ?_, ?_⟩
    · have : (1000 : ℚ) ≤ n := by exact_mod_cast hlo'
      linarith
    · have hlt : (n : ℚ) + 1 ≤ 10 ^ 12 := by
        exact_mod_cast Nat.lt_of_le_of_ne hhi' hlast
      have hnear := (abs_le.mp hn'.near).2
      push_cast at hnear
      rw [number_million]
      linarith
  refine ⟨?_, ?_⟩
  · intro hzero
    have hle := ((isEveryday_iff w).mp heveryday).1
    rw [Magnitude.number_eq_zero_iff.mpr hzero, number_thousandth] at hle
    norm_num at hle
  · rw [magnitudeChars, magnitudeChars, if_pos h, if_pos heveryday, Decimal.fixed_eq hn,
      Decimal.fixed_eq hn']

/-- Outside of them the same six digits are shown. -/
theorem general_reread (hx : x.significand ≠ 0) (h : IsRounded 6 x.number r)
    (h' : IsRounded 6 w.number r) : general w = general x := by
  obtain ⟨k, n, hk, hn, -⟩ := h.exists_digits (c := 5) (Magnitude.number_pos hx)
  rw [general_eq hx h hk hn, general_eq (significand_ne_zero_of_isRounded h') h' hk hn]

/-- A number that is carried up to a thousandth is read on the other side of the threshold, where
it is shown with other places. -/
theorem general_thousandth (hx : x.significand ≠ 0) (h : IsRounded 6 x.number (1 / 1000))
    (hw : w.IsNearest (1 / 1000)) : isEveryday w = true ∧ magnitudeChars w = general x := by
  have hthousandth : IsNearest (thousandth.number * 10 ^ 6) (1000 : ℤ) := by
    refine IsNearest.of_lt ?_
    rw [number_thousandth]
    norm_num
  have hn := isNearest_reread (by positivity) hthousandth (by norm_num) hw
  have heveryday : isEveryday w = true := by
    refine (isEveryday_iff w).mpr ⟨thousandth_le hw le_rfl, ?_⟩
    have hnear := (abs_le.mp hn.near).2
    push_cast at hnear
    rw [number_million]
    linarith
  refine ⟨heveryday, ?_⟩
  have hdecade : InDecade (1 / 1000) (-3) := by
    constructor
    all_goals norm_num
  rw [magnitudeChars, if_pos heveryday, Decimal.fixed_eq (n := 1000) hn,
    general_eq hx h hdecade (n := 100000) (by norm_num)]
  decide

theorem magnitudeChars_general (hm : x.significand ≠ 0) (h : ¬ isEveryday x = true)
    (hr : IsRounded 6 x.number r) (hw : w.IsNearest r) (hx : x ≠ unstable) :
    w.significand ≠ 0 ∧ magnitudeChars w = magnitudeChars x := by
  have hpos := Magnitude.number_pos hm
  have hr' := isRounded_reread hm hr hw hx
  refine ⟨significand_ne_zero_of_isRounded hr', ?_⟩
  have hgeneral : magnitudeChars x = general x := by rw [magnitudeChars, if_neg h]
  have hsame : ¬ isEveryday w = true → magnitudeChars w = magnitudeChars x := by
    intro hw'
    rw [magnitudeChars, if_neg hw', hgeneral, general_reread hm hr hr']
  rw [isEveryday_iff, not_and_or, not_le, not_lt] at h
  rcases h with hlo | hhi
  · have hbelow := le_of_lt_thousandth hlo
    have hpower : (10 : ℚ) ^ (-3 : ℤ) = 1 / 1000 := by norm_num
    have hle : r ≤ 10 ^ (-3 : ℤ) := hr.le_ten_zpow (c := 5) hpos (by rw [hpower]; linarith)
    rcases lt_or_eq_of_le hle with hlt | rfl
    · refine hsame fun hw' => not_le.mpr hlt ?_
      have hwlo := ((isEveryday_iff w).mp hw').1
      rw [number_thousandth] at hwlo
      exact hr'.ten_zpow_le (c := 5) (by linarith) (by rw [hpower]; linarith)
    · rw [hpower] at hr hw
      rw [hgeneral]
      exact (general_thousandth hm hr hw).2
  · have hpower : million.number = 10 ^ (6 : ℤ) := by
      rw [number_million]
      norm_num
    have hge : million.number ≤ r := by
      rw [hpower] at hhi ⊢
      exact hr.ten_zpow_le (c := 5) hpos hhi
    refine hsame fun hw' => ?_
    have hwhi := ((isEveryday_iff w).mp hw').2
    have hnear := hw.near million
    rw [abs_of_pos (by linarith), abs_of_nonneg (by linarith)] at hnear
    linarith

/-! ### The text again -/

/-- Whatever is shown for a magnitude, its digits are shown again for what is nearest to it. -/
theorem exists_shown_reread (negative : Bool) (hm : x.significand ≠ 0)
    (hmillion : text (.finite negative x) ≠ "1000000" ∧ text (.finite negative x) ≠ "-1000000")
    (hx : x ≠ unstable) :
    ∃ r, 0 < r ∧ Shows (text (.finite negative x)) (if negative then -r else r) ∧
      ∀ w : Magnitude, w.IsNearest r → w.significand ≠ 0 ∧ magnitudeChars w = magnitudeChars x := by
  obtain ⟨r, hpos, hshown, hshows⟩ := exists_shownAs negative hm
  refine ⟨r, hpos, hshows, ?_⟩
  cases hshown with
  | @everyday n h hn =>
      have hlast : n ≠ 10 ^ 12 := by
        rintro rfl
        rw [text_of_significand_ne_zero hm, magnitudeChars, if_pos h, Decimal.fixed_eq hn] at hmillion
        cases negative with
        | false => exact hmillion.1 (by decide)
        | true => exact hmillion.2 (by decide)
      exact fun w hw => magnitudeChars_everyday h hn hlast hw
  | general h hrounded => exact fun w hw => magnitudeChars_general hm h hrounded hw hx

/-- Zero is read as zero. -/
theorem text_of_rounds_zero {v : Double} (h : Double.Rounds 0 v) : text v = "0" := by
  cases h with
  | @finite negative m _ _ nearest =>
      have hnear := nearest.near .zero
      rw [Magnitude.number_zero, abs_zero, sub_zero, zero_sub, abs_neg, abs_zero,
        abs_nonpos_iff, Magnitude.number_eq_zero_iff] at hnear
      exact if_pos hnear
  | infinite _ beyond =>
      rw [abs_zero] at beyond
      exact absurd beyond (not_le.mpr (by unfold Double.limit; positivity))

/--
**Amounts are stable.**  The text of a finite double is a numeral, and the double that is read from
it, the nearest one to the number that is shown, has the same text again.  There are two kinds of
exceptions: a number just below a million that is shown as a million, from where on numbers are
shown with an exponent, and the one magnitude, of either sign, that is shown as `1e-318`.
-/
theorem text_reread {v : Double} (hv : v.isFinite = true)
    (hmillion : text v ≠ "1000000" ∧ text v ≠ "-1000000")
    (hstable : ∀ negative, v ≠ .finite negative unstable) :
    (∃ r, Shows (text v) r) ∧ ∃ w : Double,
      (DecimalNumeral.read? (text v).toList).map DecimalNumeral.toDouble = some w ∧
      w.isFinite = true ∧ (∀ r, Shows (text v) r → Double.Rounds r w) ∧ text w = text v := by
  obtain ⟨s, hshows, hlimit⟩ := exists_shows hv
  obtain ⟨t, htext, -⟩ := hshows.exists_signedNumeral
  have hrounds : ∀ r, Shows (text v) r → Double.Rounds r t.parts.toDouble :=
    fun r hr => hr.rounds_of_text htext
  have hfinite := (hrounds s hshows).isFinite_iff.mpr hlimit
  have hread : (DecimalNumeral.read? (text v).toList).map DecimalNumeral.toDouble =
      some t.parts.toDouble := by
    rw [htext, String.toList_ofList, t.read?_chars]
    rfl
  refine ⟨⟨s, hshows⟩, _, hread, hfinite, hrounds, ?_⟩
  generalize t.parts.toDouble = w at hrounds hfinite
  cases v with
  | nan => cases hv
  | infinite _ => cases hv
  | finite negative m =>
      by_cases hm : m.significand = 0
      · have hzero : text (.finite negative m) = "0" := if_pos hm
        rw [hzero] at hrounds ⊢
        exact text_of_rounds_zero (hrounds 0 (.inl isPlain_zero))
      · obtain ⟨r, hpos, hshown, hagain⟩ := exists_shown_reread negative hm hmillion
          fun h => hstable negative (by rw [h])
        have hw := hrounds _ hshown
        cases hw with
        | infinite _ _ => cases hfinite
        | @finite negative' m' sign _ nearest =>
            rw [abs_signed hpos] at nearest
            obtain ⟨hm', hchars⟩ := hagain m' nearest
            have hsign : negative' = negative := by
              unfold Double.SignOf at sign
              cases negative <;> cases negative' <;> simp at sign ⊢ <;> linarith
            rw [text_of_significand_ne_zero hm', text_of_significand_ne_zero hm, hchars, hsign]

/-- What is carried up to a thousandth is read above the threshold and shown as it was. -/
theorem text_reread_thousandth :
    text 0.00099999995 = "0.001" ∧
      ∃ w, (DecimalNumeral.read? "0.001".toList).map DecimalNumeral.toDouble = some w ∧
        text w = "0.001" := by
  have htext : text 0.00099999995 = "0.001" := by decide +kernel
  obtain ⟨-, w, hread, -, -, hagain⟩ := text_reread (v := 0.00099999995) (by decide +kernel)
    (by rw [htext]; decide) (by decide +kernel)
  rw [htext] at hread hagain
  exact ⟨htext, w, hread, hagain⟩

/-- The exception among the smallest magnitudes: the power of ten that is shown is nearer to the
next magnitude below it, which is shown with six digits. -/
theorem text_of_unstable :
    ∃ w, text (.finite false unstable) = "1e-318" ∧
      (DecimalNumeral.read? "1e-318".toList).map DecimalNumeral.toDouble = some w ∧
      Double.Rounds (10 ^ (-318 : ℤ)) w ∧ text w = "9.99999e-319" := by
  have hrounds := DecimalNumeral.rounds_toDouble ⟨false, ['1'], [], -318⟩
  have hnumber : DecimalNumeral.number ⟨false, ['1'], [], -318⟩ = 10 ^ (-318 : ℤ) := by
    have hnatOf : DecimalNumeral.natOf (['1'] ++ []) = 1 := by decide
    rw [DecimalNumeral.number, hnatOf, Nat.cast_one, one_mul]
    rfl
  rw [hnumber] at hrounds
  refine ⟨_, ?_, ?_, hrounds, ?_⟩
  all_goals decide +kernel

end Amount

end Reckoner
