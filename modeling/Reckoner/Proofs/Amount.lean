/-
What the text of an amount says.

The text is always a numeral in canonical form, of the exact value rounded once: to six
places between the two thresholds, and to six significant digits outside of them.
-/
import Reckoner.Proofs.Decimal.Notation
import Reckoner.Proofs.Decimal.Rounded

namespace Reckoner

/-! ### Numerals with a sign -/

/-- The sign of a number, if it has one. -/
def signChars (r : ℚ) : List Char := if r < 0 then ['-'] else []

/-- A text is the plain numeral of a number. -/
def IsPlain (text : String) (r : ℚ) : Prop :=
  ∃ t : PlainNumeral, t.number = |r| ∧ text = String.ofList (signChars r ++ t.chars)

/-- A text is the scientific numeral of a number with an exponent. -/
def IsScientific (text : String) (r : ℚ) (e : ℤ) : Prop :=
  ∃ t : ScientificNumeral, t.number = |r| ∧ t.exponent = e ∧
    text = String.ofList (signChars r ++ t.chars)

/-- The first digit of a numeral, and whether there is more. -/
theorem PlainNumeral.chars_eq_cons (t : PlainNumeral) :
    ∃ d rest, d < 10 ∧ t.chars = Numeral.digitChar d :: rest ∧ (rest = [] → t.number = d) := by
  obtain ⟨d, whole, hwhole⟩ : ∃ d whole, t.whole = d :: whole := by
    rcases t.leading with h | ⟨h, -⟩
    · exact ⟨0, [], h⟩
    · exact List.exists_cons_of_ne_nil h
  refine ⟨d, _, t.whole_lt d (by simp [hwhole]), by rw [chars, hwhole]; rfl, ?_⟩
  intro hrest
  obtain ⟨hnil, hfraction⟩ := List.append_eq_nil_iff.mp hrest
  have hnone : t.fraction = [] := by
    by_contra hne
    rw [if_neg hne] at hfraction
    cases hfraction
  rw [number, hwhole, hnone, List.map_eq_nil_iff.mp hnil]
  simp [Numeral.value]

/-- A signed numeral is a lone zero only if it is a numeral of zero. -/
theorem signed_ne_zero {r : ℚ} {d : Nat} (hd : d < 10) {rest : List Char}
    (h : d = 0 → rest ≠ []) :
    String.ofList (signChars r ++ Numeral.digitChar d :: rest) ≠ "0" ∧
      String.ofList (signChars r ++ Numeral.digitChar d :: rest) ≠ "-0" := by
  have hminus : Numeral.digitChar d ≠ '-' := by
    clear h
    revert hd d
    decide
  have hzero : ¬ (Numeral.digitChar d = '0' ∧ rest = []) := by
    rintro ⟨hchar, hrest⟩
    have := Numeral.digitChar_beq_zero d (by omega)
    rw [hchar] at this
    exact h (by simpa using this) hrest
  have h0 : "0" = String.ofList ['0'] := rfl
  have hminus0 : "-0" = String.ofList ['-', '0'] := rfl
  rw [h0, hminus0, Ne, String.ofList_inj, Ne, String.ofList_inj, signChars]
  by_cases hr : r < 0
  · simp [hr, hzero]
  · simp [hr, hzero, hminus]

theorem IsPlain.ne_zero {text : String} {r : ℚ} (h : IsPlain text r) (hr : r ≠ 0) :
    text ≠ "0" ∧ text ≠ "-0" := by
  obtain ⟨t, hnumber, rfl⟩ := h
  obtain ⟨d, rest, hd, hchars, hrest⟩ := t.chars_eq_cons
  rw [hchars]
  refine signed_ne_zero hd ?_
  intro h0 hnil
  rw [hrest hnil, h0] at hnumber
  exact hr (abs_eq_zero.mp (by simpa using hnumber.symm))

theorem IsScientific.ne_zero {text : String} {r : ℚ} {e : ℤ} (h : IsScientific text r e) :
    text ≠ "0" ∧ text ≠ "-0" := by
  obtain ⟨t, -, -, rfl⟩ := h
  obtain ⟨d, rest, hd, hchars, -⟩ := t.mantissa.chars_eq_cons
  rw [ScientificNumeral.chars, hchars]
  exact signed_ne_zero hd fun _ => by simp

namespace Amount

/-! ### The magnitude -/

/-- Between the thresholds there are six places. -/
theorem fixed_chars (m : Magnitude) :
    ∃ n : ℕ, IsNearest (m.number * 10 ^ 6) n ∧
      stripZeros (Decimal.plain false (Decimal.fixed 6 m)) = (PlainNumeral.ofDigits n 6).chars :=
  ⟨_, Decimal.isNearest_fixed 6 m, stripZeros_plain _ 6⟩

/-- Outside of them there are six significant digits.  Without an exponent the value is rounded a
second time, at the places of the number that came out of the first, and comes out the same. -/
theorem general_eq {m : Magnitude} (hm : m.significand ≠ 0) {r : ℚ} {k : ℤ}
    (h : IsRounded 6 m.number r) (hk : InDecade r k) {n : ℕ} (hn : r = n * 10 ^ (k - 5)) :
    general m =
      if k < -4 ∨ 6 ≤ k then
        stripZeros (Decimal.plain false ⟨n, -5⟩) ++ 'e' :: Decimal.exponentChars true 2 k
      else stripZeros (Decimal.plain false ⟨n, -((5 - k).toNat : ℤ)⟩) := by
  obtain ⟨hsignificant, hleading⟩ := Decimal.significant_eq hm (c := 5) h hk hn
  unfold general
  simp only [hleading]
  by_cases hscientific : k < -4 ∨ 6 ≤ k
  · rw [if_pos hscientific, if_pos hscientific, hsignificant]
  · rw [if_neg hscientific, if_neg hscientific]
    obtain ⟨i, hi, hr⟩ := h.isNearest (c := 5) (Magnitude.number_pos hm) hk
    have hplaces : ((5 : ℕ) : ℤ) - k = (5 - k).toNat := by omega
    have hni : i = n := by
      have hmul := hr.symm.trans hn
      exact_mod_cast mul_right_cancel₀ (ne_of_gt (ten_zpow_pos _)) hmul
    rw [hplaces, zpow_natCast, hni] at hi
    rw [Decimal.fixed_eq hi]

/-- The exponent of the rounded number selects the notation. -/
theorem general_chars {m : Magnitude} (hm : m.significand ≠ 0) :
    ∃ (r : ℚ) (k : ℤ), IsRounded 6 m.number r ∧ InDecade r k ∧
      if k < -4 ∨ 6 ≤ k then
        ∃ t : ScientificNumeral, t.number = r ∧ t.exponent = k ∧ general m = t.chars
      else ∃ t : PlainNumeral, t.number = r ∧ general m = t.chars := by
  obtain ⟨hrounded, -, -⟩ := Decimal.isRounded_significant hm 5
  obtain ⟨k, n, hk, hn, hlo, hhi⟩ := hrounded.exists_digits (Magnitude.number_pos hm)
  generalize (Decimal.significant (5 + 1) m).number = r at hrounded hk hn
  have hgeneral := general_eq hm hrounded hk hn
  refine ⟨r, k, hrounded, hk, ?_⟩
  by_cases hscientific : k < -4 ∨ 6 ≤ k
  · rw [if_pos hscientific] at hgeneral ⊢
    refine ⟨ScientificNumeral.ofDigits n 5 hlo hhi k, ?_,
      ScientificNumeral.exponent_ofDigits hlo hhi _,
      hgeneral.trans (ScientificNumeral.chars_ofDigits hlo hhi _).symm⟩
    rw [ScientificNumeral.number_ofDigits, hn, zpow_sub₀ (by norm_num)]
    norm_num
    ring
  · rw [if_neg hscientific] at hgeneral ⊢
    refine ⟨PlainNumeral.ofDigits n (5 - k).toNat, ?_, ?_⟩
    · have hplaces : k - (5 : ℕ) = -((5 - k).toNat : ℤ) := by omega
      rw [PlainNumeral.number_ofDigits, hn, hplaces, zpow_neg, zpow_natCast]
      rfl
    · rw [hgeneral, stripZeros_plain]

/-! ### The thresholds -/

/-- The magnitude nearest to a thousandth. -/
def thousandth : Magnitude := ⟨4611686018427388, 1012, by omega, by omega, by omega⟩

/-- A million, which is a magnitude. -/
def million : Magnitude := ⟨8589934592000000, 1041, by omega, by omega, by omega⟩

theorem thousandth_eq : (0.001 : Double) = .finite false thousandth := by
  decide +kernel

theorem million_eq : (1000000.0 : Double) = .finite false million := by
  decide +kernel

theorem number_million : million.number = 1000000 := by
  norm_num [Magnitude.number, million]

theorem number_thousandth : thousandth.number = 4611686018427388 / 2 ^ 62 := by
  norm_num [Magnitude.number, thousandth]

/-- The next magnitude below the one that is nearest to a thousandth. -/
theorem le_of_lt_thousandth {m : Magnitude} (h : m.number < thousandth.number) :
    m.number ≤ 4611686018427387 / 2 ^ 62 := by
  rw [number_thousandth] at h
  by_cases hshift : 1012 ≤ m.shift
  · -- These are whole numbers of the last place of the nearest one.
    obtain ⟨j, hj⟩ := Nat.exists_eq_add_of_le hshift
    have hnumber : m.number = (m.significand * 2 ^ j : ℕ) / 2 ^ 62 := by
      have hexponent : (m.shift : ℤ) - 1074 = j - 62 := by omega
      rw [Magnitude.number, hexponent, zpow_sub₀ two_ne_zero, zpow_natCast]
      push_cast
      rw [mul_div_assoc]
      rfl
    rw [hnumber] at h ⊢
    generalize m.significand * 2 ^ j = k at h ⊢
    have hk : k < 4611686018427388 := by
      have := (div_lt_div_iff_of_pos_right (by positivity : (0 : ℚ) < 2 ^ 62)).mp h
      exact_mod_cast this
    have hk' : (k : ℚ) ≤ 4611686018427387 := by exact_mod_cast Nat.le_of_lt_succ hk
    exact (div_le_div_iff_of_pos_right (by positivity)).mpr hk'
  · -- These are below the binade of a thousandth.
    have hsignificand : (m.significand : ℚ) ≤ 2 ^ 53 := by
      exact_mod_cast Nat.le_of_lt m.significand_lt
    have hpower : (2 : ℚ) ^ ((m.shift : ℤ) - 1074) ≤ 2 ^ (-63 : ℤ) :=
      zpow_le_zpow_right₀ (by norm_num) (by omega)
    have hnumber : m.number ≤ 2 ^ 53 * 2 ^ (-63 : ℤ) :=
      mul_le_mul hsignificand hpower (by positivity) (by positivity)
    norm_num at hnumber ⊢
    linarith

/-- No magnitude is nearer to a thousandth. -/
theorem thousandth_nearest (m : Magnitude) :
    |thousandth.number - 1 / 1000| ≤ |m.number - 1 / 1000| := by
  have hdist : |thousandth.number - 1 / 1000| = 96 / (1000 * 2 ^ 62) := by
    rw [number_thousandth]
    norm_num
  rw [hdist, le_abs]
  rcases lt_or_ge m.number thousandth.number with h | h
  · have := le_of_lt_thousandth h
    right
    linarith
  · rw [number_thousandth] at h
    left
    linarith

theorem isEveryday_iff (m : Magnitude) :
    isEveryday m = true ↔ thousandth.number ≤ m.number ∧ m.number < million.number := by
  rw [isEveryday, Bool.and_eq_true, thousandth_eq, million_eq, Double.le_iff_number_le rfl rfl,
    Double.lt_iff_number_lt rfl rfl]
  rfl

/-! ### The text -/

theorem text_of_significand_ne_zero {negative : Bool} {m : Magnitude} (hm : m.significand ≠ 0) :
    text (.finite negative m) =
      String.ofList ((if negative then ['-'] else []) ++ magnitudeChars m) := by
  rw [text, if_neg hm]

/-- The sign is that of the number. -/
theorem signChars_number {negative : Bool} {r : ℚ} (hr : 0 < r) :
    signChars (if negative then -r else r) = if negative then ['-'] else [] := by
  unfold signChars
  cases negative with
  | false => exact if_neg (not_lt.mpr (le_of_lt hr))
  | true => exact if_pos (neg_lt_zero.mpr hr)

theorem abs_signed {negative : Bool} {r : ℚ} (hr : 0 < r) :
    |if negative then -r else r| = r := by
  cases negative with
  | false => exact abs_of_pos hr
  | true =>
      rw [if_pos rfl, abs_neg]
      exact abs_of_pos hr

theorem isPlain_text (negative : Bool) {m : Magnitude} (hm : m.significand ≠ 0) {r : ℚ}
    (hr : 0 < r) {t : PlainNumeral} (ht : t.number = r) (hchars : magnitudeChars m = t.chars) :
    IsPlain (text (.finite negative m)) (if negative then -r else r) := by
  refine ⟨t, ?_, ?_⟩
  · rw [abs_signed hr, ht]
  · rw [text_of_significand_ne_zero hm, signChars_number hr, hchars]

theorem isScientific_text (negative : Bool) {m : Magnitude} (hm : m.significand ≠ 0) {r : ℚ}
    (hr : 0 < r) {t : ScientificNumeral} (ht : t.number = r)
    (hchars : magnitudeChars m = t.chars) :
    IsScientific (text (.finite negative m)) (if negative then -r else r) t.exponent := by
  refine ⟨t, ?_, rfl, ?_⟩
  · rw [abs_signed hr, ht]
  · rw [text_of_significand_ne_zero hm, signChars_number hr, hchars]

/-- The magnitude is rounded, and the text has its sign in front. -/
theorem signed_everyday (negative : Bool) {m : Magnitude} (hm : m.significand ≠ 0)
    (h : isEveryday m = true) :
    ∃ n : ℕ, 0 < n ∧ IsNearest (m.number * 10 ^ 6) n ∧
      IsPlain (text (.finite negative m)) (if negative then -(n / 10 ^ 6) else n / 10 ^ 6) := by
  obtain ⟨n, hn, hchars⟩ := fixed_chars m
  have hn1 : (1 : ℤ) ≤ n := by
    refine hn.le_of_le ?_
    have hlo := ((isEveryday_iff m).mp h).1
    rw [number_thousandth] at hlo
    push_cast
    linarith
  have hpos : (0 : ℚ) < n / 10 ^ 6 := by
    have : (0 : ℚ) < n := by exact_mod_cast hn1
    positivity
  exact ⟨n, by exact_mod_cast hn1, hn, isPlain_text negative hm hpos
    (PlainNumeral.number_ofDigits n 6) (by rw [magnitudeChars, if_pos h, hchars])⟩

theorem signed_general (negative : Bool) {m : Magnitude} (hm : m.significand ≠ 0)
    (h : ¬ isEveryday m = true) :
    ∃ (r : ℚ) (k : ℤ), IsRounded 6 m.number r ∧ InDecade r k ∧
      if k < -4 ∨ 6 ≤ k then
        IsScientific (text (.finite negative m)) (if negative then -r else r) k
      else IsPlain (text (.finite negative m)) (if negative then -r else r) := by
  have hmagnitude : magnitudeChars m = general m := by
    rw [magnitudeChars, if_neg h]
  obtain ⟨r, k, hrounded, hdecade, hchars⟩ := general_chars hm
  have hr : 0 < r := lt_of_lt_of_le (ten_zpow_pos k) hdecade.lower
  refine ⟨r, k, hrounded, hdecade, ?_⟩
  by_cases hscientific : k < -4 ∨ 6 ≤ k
  · rw [if_pos hscientific] at hchars ⊢
    obtain ⟨t, ht, hexponent, hgeneral⟩ := hchars
    rw [← hexponent]
    exact isScientific_text negative hm hr ht (hmagnitude.trans hgeneral)
  · rw [if_neg hscientific] at hchars ⊢
    obtain ⟨t, ht, hgeneral⟩ := hchars
    exact isPlain_text negative hm hr ht (hmagnitude.trans hgeneral)

theorem text_everyday (negative : Bool) {m : Magnitude} (hm : m.significand ≠ 0)
    (h : isEveryday m = true) :
    ∃ n : ℤ, n ≠ 0 ∧ IsNearest ((Double.finite negative m).number * 10 ^ 6) n ∧
      IsPlain (text (.finite negative m)) (n / 10 ^ 6) := by
  obtain ⟨n, hpos, hn, hplain⟩ := signed_everyday negative hm h
  cases negative with
  | false => exact ⟨n, by omega, hn, by rwa [Int.cast_natCast]⟩
  | true =>
      refine ⟨-n, by omega, ?_, ?_⟩
      · rw [Double.number_finite_true, neg_mul]
        exact hn.neg
      · rw [Int.cast_neg, Int.cast_natCast, neg_div]
        exact hplain

theorem text_general (negative : Bool) {m : Magnitude} (hm : m.significand ≠ 0)
    (h : ¬ isEveryday m = true) :
    ∃ (r : ℚ) (k : ℤ), r ≠ 0 ∧ IsRounded 6 (Double.finite negative m).number r ∧ InDecade |r| k ∧
      if k < -4 ∨ 6 ≤ k then IsScientific (text (.finite negative m)) r k
      else IsPlain (text (.finite negative m)) r := by
  obtain ⟨r, k, hrounded, hdecade, hnotation⟩ := signed_general negative hm h
  have hr : 0 < r := lt_of_lt_of_le (ten_zpow_pos k) hdecade.lower
  refine ⟨if negative then -r else r, k, ?_, ?_, ?_, hnotation⟩
  · rw [← abs_pos, abs_signed hr]
    exact hr
  · cases negative with
    | false => exact hrounded
    | true => exact hrounded.neg
  · rwa [abs_signed hr]

/--
**The text of an amount.**  It is a lone zero exactly for the two zeros.  From the double nearest
to a thousandth up to a million, it is the plain numeral of the nearest multiple of a millionth.
Any other value is rounded to six significant digits, and the text is the scientific numeral of
the rounded number if its first digit is below the fourth place after the point or above the sixth
before it, and otherwise its plain numeral.  A half goes to the even digit, and zero never has a
sign.
-/
theorem text_finite (negative : Bool) (m : Magnitude) :
    let x := Double.finite negative m
    let lo := (0.001 : Double).number
    let hi := (1000000.0 : Double).number
    (∀ other : Magnitude, |lo - 1 / 1000| ≤ |other.number - 1 / 1000|) ∧ hi = 1000000 ∧
      (text x = "0" ↔ x.number = 0) ∧ text x ≠ "-0" ∧
      if x.number = 0 then IsPlain (text x) 0
      else if lo ≤ |x.number| ∧ |x.number| < hi then
        ∃ n : ℤ, IsNearest (x.number * 10 ^ 6) n ∧ IsPlain (text x) (n / 10 ^ 6)
      else
        ∃ (r : ℚ) (k : ℤ), IsRounded 6 x.number r ∧ InDecade |r| k ∧
          if k < -4 ∨ 6 ≤ k then IsScientific (text x) r k else IsPlain (text x) r := by
  intro x lo hi
  have hlo : lo = thousandth.number := by
    show (0.001 : Double).number = _
    rw [thousandth_eq, Double.number_finite_false]
  have hhi : hi = million.number := by
    show (1000000.0 : Double).number = _
    rw [million_eq, Double.number_finite_false]
  have habs : |x.number| = m.number := Double.abs_number_finite negative m
  have hzero : x.number = 0 ↔ m.significand = 0 := by
    rw [← abs_eq_zero, habs, Magnitude.number_eq_zero_iff]
  refine ⟨fun other => hlo ▸ thousandth_nearest other, hhi.trans number_million, ?_⟩
  by_cases hm : m.significand = 0
  · have htext : text x = "0" := if_pos hm
    rw [if_pos (hzero.mpr hm), htext]
    refine ⟨⟨fun _ => hzero.mpr hm, fun _ => rfl⟩, by decide, PlainNumeral.ofDigits 0 0, ?_, rfl⟩
    rw [PlainNumeral.number_ofDigits]
    simp
  · rw [if_neg (mt hzero.mp hm), habs, hlo, hhi]
    have hne : ∀ {p : Prop}, text x ≠ "0" ∧ text x ≠ "-0" → p →
        (text x = "0" ↔ x.number = 0) ∧ text x ≠ "-0" ∧ p := by
      rintro p ⟨hne, hneminus⟩ hp
      exact ⟨⟨fun h => absurd h hne, fun h => absurd (hzero.mp h) hm⟩, hneminus, hp⟩
    by_cases h : isEveryday m = true
    · rw [if_pos ((isEveryday_iff m).mp h)]
      obtain ⟨n, hn, hnearest, hplain⟩ := text_everyday negative hm h
      refine hne (hplain.ne_zero ?_) ⟨n, hnearest, hplain⟩
      exact div_ne_zero (Int.cast_ne_zero.mpr hn) (by norm_num)
    · rw [if_neg (mt (isEveryday_iff m).mpr h)]
      obtain ⟨r, k, hr, hrounded, hdecade, hnotation⟩ := text_general negative hm h
      refine hne ?_ ⟨r, k, hrounded, hdecade, hnotation⟩
      by_cases hscientific : k < -4 ∨ 6 ≤ k
      · rw [if_pos hscientific] at hnotation
        exact hnotation.ne_zero
      · rw [if_neg hscientific] at hnotation
        exact hnotation.ne_zero hr

/-- The digits are carried up to a thousandth, whose decade is written plainly. -/
example : text 0.00099999995 = "0.001" := by decide +kernel

end Amount

end Reckoner
