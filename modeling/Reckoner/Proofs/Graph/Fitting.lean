/-
Windows in rounded arithmetic.

A window that fits itself to values leaves none of them out.  But what is computed for it need not
be a range: level values that are very large can be the same with one more and one less, so that
nothing is between the ends, and where the span of the values or a margin beyond them is out of the
range of the format, an end is infinite.  Otherwise the window is as good as one that is given.
-/
import Reckoner.Proofs.Double.Nearest
import Reckoner.Proofs.Graph.Plot
import Reckoner.Proofs.Graph.Window

namespace Reckoner.Window

open Double (Absorbs Rounds limit)

variable {w : Window Double} {x y : Double}

/-! ### The margin -/

theorem zero_eq : (0.0 : Double) = .finite false .zero := by
  decide +kernel

theorem zero_lt_iff (hx : x.isFinite = true) : 0.0 < x ↔ 0 < x.number := by
  rw [zero_eq]
  refine (Double.lt_iff_number_lt rfl hx).trans ?_
  rw [Double.number_finite_false, Magnitude.number_zero]

theorem tenth_eq :
    (0.1 : Double) = .finite false ⟨7205759403792794, 1018, by omega, by omega, by omega⟩ := by
  decide +kernel

theorem number_tenth : 0 < (0.1 : Double).number ∧ (0.1 : Double).number ≤ 1 / 8 := by
  rw [tenth_eq, Double.number_finite_false]
  norm_num [Magnitude.number]

/-- The ends of a range are finite and in their order. -/
structure Ordered (w : Window Double) : Prop where
  finite_min : w.min.isFinite = true
  finite_max : w.max.isFinite = true
  le : w.min.number ≤ w.max.number

/-- There is no span where the ends are level. -/
theorem Ordered.margin_of_level (h : w.Ordered) (hlevel : w.min.number = w.max.number) :
    w.margin = 1.0 := by
  have hspan := Double.rounds_sub h.finite_max h.finite_min
  rw [hlevel, sub_self] at hspan
  have hfinite : (w.max - w.min).isFinite = true := by
    rw [hspan.isFinite_iff, abs_zero]
    exact lt_of_le_of_lt (abs_nonneg _) (Double.abs_number_lt_limit 0)
  have hle : |(w.max - w.min).number| ≤ Magnitude.zero.number :=
    hspan.abs_number_le (by rw [abs_zero, Magnitude.number_zero])
  rw [Magnitude.number_zero] at hle
  refine if_neg ?_
  rw [zero_lt_iff hfinite]
  exact not_lt.mpr ((le_abs_self _).trans hle)

/-- Other ends have one, however close they are; it may be infinite. -/
theorem Ordered.zero_lt_span (h : w.Ordered) (hlt : w.min.number < w.max.number) :
    0.0 < w.max - w.min := by
  have hspan := Double.rounds_sub h.finite_max h.finite_min
  have hunit : (Double.finite false ⟨1, 0, by decide, by decide, .inr rfl⟩).number =
      2 ^ (-1074 : ℤ) := by
    rw [Double.number_finite_false, Magnitude.number, Nat.cast_one, one_mul]
    rfl
  have hle := hspan.ge_of_ge (y := .finite false ⟨1, 0, by decide, by decide, .inr rfl⟩) rfl
    (by
      rw [hunit]
      exact le_sub_iff_add_le'.mpr (Double.number_add_unit_le h.finite_min h.finite_max hlt))
  generalize w.max - w.min = span at hspan hle
  cases span with
  | nan => exact absurd rfl hspan.ne_nan
  | infinite negative =>
      cases negative with
      | false => decide +kernel
      | true => exact absurd hle (by decide +kernel)
  | finite s m =>
      rw [zero_lt_iff rfl]
      have hnumber := (Double.le_iff_number_le rfl rfl).mp hle
      rw [hunit] at hnumber
      exact lt_of_lt_of_le (zpow_pos two_pos _) hnumber

theorem Ordered.margin_of_lt (h : w.Ordered) (hlt : w.min.number < w.max.number) :
    w.margin = (w.max - w.min) * 0.1 :=
  if_pos (h.zero_lt_span hlt)

/-- A span in the range of the format gives the margin, a tenth of it. -/
theorem Ordered.rounds_margin (h : w.Ordered) (hlt : w.min.number < w.max.number)
    (hspan : w.max.number - w.min.number < limit) :
    (w.max - w.min).isFinite = true ∧
      Rounds ((w.max - w.min).number * (0.1 : Double).number) w.margin := by
  have hfinite : (w.max - w.min).isFinite = true := by
    rw [(Double.rounds_sub h.finite_max h.finite_min).isFinite_iff, abs_of_pos (sub_pos.mpr hlt)]
    exact hspan
  refine ⟨hfinite, ?_⟩
  rw [h.margin_of_lt hlt]
  exact Double.rounds_mul hfinite (by rw [tenth_eq]; rfl)

/-- Then the margin is finite, and not negative. -/
theorem Ordered.margin_nonneg (h : w.Ordered) (hspan : w.max.number - w.min.number < limit) :
    w.margin.isFinite = true ∧ 0 ≤ w.margin.number := by
  rcases eq_or_lt_of_le h.le with hlevel | hlt
  · rw [h.margin_of_level hlevel, Double.number_one]
    exact ⟨by decide +kernel, zero_le_one⟩
  · obtain ⟨hfinite, hrounds⟩ := h.rounds_margin hlt hspan
    have hpos : 0 < (w.max - w.min).number := (zero_lt_iff hfinite).mp (h.zero_lt_span hlt)
    obtain ⟨htenth, htenth'⟩ := number_tenth
    have hproduct := mul_pos hpos htenth
    have hmargin : w.margin.isFinite = true := by
      rw [hrounds.isFinite_iff, abs_of_pos hproduct]
      calc _ ≤ (w.max - w.min).number := mul_le_of_le_one_right hpos.le (by linarith)
        _ ≤ |(w.max - w.min).number| := le_abs_self _
        _ < limit := Double.abs_number_lt_limit _
    refine ⟨hmargin, ?_⟩
    have hle := hrounds.ge_of_ge (y := .finite false .zero) rfl
      (by rw [Double.number_finite_false, Magnitude.number_zero]; exact hproduct.le)
    have hnumber := (Double.le_iff_number_le rfl hmargin).mp hle
    rwa [Double.number_finite_false, Magnitude.number_zero] at hnumber

/-! ### The window -/

/-- A span out of range leads to the window without ends. -/
theorem Ordered.widen_of_overflow (h : w.Ordered) (hspan : limit ≤ w.max.number - w.min.number) :
    w.widen = ⟨.infinite true, .infinite false⟩ := by
  have hlimit : 0 < limit := lt_of_le_of_lt (abs_nonneg _) (Double.abs_number_lt_limit 0)
  have hlt : w.min.number < w.max.number := by linarith
  have hrounds := Double.rounds_sub h.finite_max h.finite_min
  have hspan' : w.max - w.min = .infinite false := by
    have hzero := h.zero_lt_span hlt
    have hinfinite := mt hrounds.isFinite_iff.mp (not_lt.mpr (hspan.trans (le_abs_self _)))
    generalize w.max - w.min = span at hrounds hzero hinfinite ⊢
    cases span with
    | nan => exact absurd rfl hrounds.ne_nan
    | finite _ _ => exact absurd rfl hinfinite
    | infinite negative =>
        cases negative with
        | false => rfl
        | true => exact absurd hzero (by decide +kernel)
  have hmargin : w.margin = .infinite false := by
    rw [h.margin_of_lt hlt, hspan', tenth_eq]
    rfl
  have hmin := h.finite_min
  have hmax := h.finite_max
  unfold widen
  rw [hmargin]
  generalize w.min = lo at hmin
  generalize w.max = hi at hmax
  cases lo with
  | finite _ _ =>
      cases hi with
      | finite _ _ => rfl
      | _ => cases hmax
  | _ => cases hmin

theorem Ordered.rounds_widen (h : w.Ordered) (hspan : w.max.number - w.min.number < limit) :
    Rounds (w.min.number - w.margin.number) w.widen.min ∧
      Rounds (w.max.number + w.margin.number) w.widen.max := by
  obtain ⟨hfinite, -⟩ := h.margin_nonneg hspan
  exact ⟨Double.rounds_sub h.finite_min hfinite, Double.rounds_add h.finite_max hfinite⟩

/-- The window leaves nothing out. -/
theorem Ordered.widen_encloses (h : w.Ordered) (hy : y.isFinite = true)
    (hmin : w.min.number ≤ y.number) (hmax : y.number ≤ w.max.number) :
    w.widen.min ≤ y ∧ y ≤ w.widen.max := by
  by_cases hspan : w.max.number - w.min.number < limit
  · obtain ⟨hlo, hhi⟩ := h.rounds_widen hspan
    obtain ⟨-, hnonneg⟩ := h.margin_nonneg hspan
    exact ⟨hlo.le_of_le hy (by linarith), hhi.ge_of_ge hy (by linarith)⟩
  · rw [h.widen_of_overflow (not_lt.mp hspan)]
    exact ⟨Double.infinite_le hy, Double.le_infinite hy⟩

/-- Finite ends in their order. -/
theorem proper_iff (hmin : w.min.isFinite = true) (hmax : w.max.isFinite = true) :
    Proper w.min w.max ↔ w.min.number < w.max.number := by
  have hle : w.max ≤ w.min ↔ w.max.number ≤ w.min.number := Double.le_iff_number_le hmax hmin
  constructor
  · intro h
    exact not_le.mp (mt hle.mpr h.ordered)
  · intro h
    exact ⟨hmin, hmax, mt hle.mp (not_le.mpr h)⟩

/-- Around level values there is something to see unless one more or less is the same to them. -/
theorem Ordered.proper_widen_of_level (h : w.Ordered) (hlevel : w.min.number = w.max.number) :
    Proper w.widen.min w.widen.max ↔ ¬Absorbs w.min.number := by
  have hlimit := Double.abs_number_add_one_lt_limit w.min
  have hbounds := abs_le.mp (le_refl |w.min.number|)
  have hspan : w.max.number - w.min.number < limit := by
    rw [hlevel, sub_self]
    linarith [abs_nonneg w.min.number]
  obtain ⟨hlo, hhi⟩ := h.rounds_widen hspan
  rw [h.margin_of_level hlevel, Double.number_one] at hlo hhi
  rw [← hlevel] at hhi
  have hmin : w.widen.min.isFinite = true := by
    rw [hlo.isFinite_iff, abs_lt]
    constructor <;> linarith [hbounds.1, hbounds.2]
  have hmax : w.widen.max.isFinite = true := by
    rw [hhi.isFinite_iff, abs_lt]
    constructor <;> linarith [hbounds.1, hbounds.2]
  rw [proper_iff hmin hmax, ← not_le, Double.number_le_number_iff h.finite_min hhi hlo hmax hmin]

/-- The span of a range is in the range of the format, and so are the margins beyond it. -/
structure Roomy (w : Window Double) : Prop where
  span_lt : w.max.number - w.min.number < limit
  lt_min : -limit < w.min.number - w.margin.number
  max_lt : w.max.number + w.margin.number < limit

/-- Around other values there is something to see unless the window is out of range. -/
theorem Ordered.proper_widen_of_lt (h : w.Ordered) (hlt : w.min.number < w.max.number) :
    Proper w.widen.min w.widen.max ↔ w.Roomy := by
  by_cases hspan : w.max.number - w.min.number < limit
  · obtain ⟨hlo, hhi⟩ := h.rounds_widen hspan
    obtain ⟨-, hnonneg⟩ := h.margin_nonneg hspan
    have hmin := abs_lt.mp (Double.abs_number_lt_limit w.min)
    have hmax := abs_lt.mp (Double.abs_number_lt_limit w.max)
    have hlo' : w.widen.min.isFinite = true ↔ -limit < w.min.number - w.margin.number := by
      rw [hlo.isFinite_iff, abs_lt, and_iff_left (by linarith [hmin.2])]
    have hhi' : w.widen.max.isFinite = true ↔ w.max.number + w.margin.number < limit := by
      rw [hhi.isFinite_iff, abs_lt, and_iff_right (by linarith [hmax.1])]
    constructor
    · intro hproper
      exact ⟨hspan, hlo'.mp hproper.finite_lo, hhi'.mp hproper.finite_hi⟩
    · intro hroomy
      have hfinite := hlo'.mpr hroomy.lt_min
      have hfinite' := hhi'.mpr hroomy.max_lt
      rw [proper_iff hfinite hfinite']
      obtain ⟨hbelow, -⟩ := h.widen_encloses h.finite_min le_rfl hlt.le
      obtain ⟨-, habove⟩ := h.widen_encloses h.finite_max hlt.le le_rfl
      exact lt_of_le_of_lt ((Double.le_iff_number_le hfinite h.finite_min).mp hbelow)
        (lt_of_lt_of_le hlt ((Double.le_iff_number_le h.finite_max hfinite').mp habove))
  · refine iff_of_false (fun hproper => ?_) fun hroomy => hspan hroomy.span_lt
    have hfinite := hproper.finite_lo
    rw [h.widen_of_overflow (not_lt.mp hspan)] at hfinite
    cases hfinite

/-- The margin is an eighth of a bound on the span at most, if that is a power of two. -/
theorem Ordered.margin_le (h : w.Ordered) {n : ℕ} (hn : n ≤ 1020)
    (hspan : w.max.number - w.min.number ≤ 2 ^ (n + 3)) : w.margin.number ≤ 2 ^ n := by
  rcases eq_or_lt_of_le h.le with hlevel | hlt
  · rw [h.margin_of_level hlevel, Double.number_one]
    exact one_le_pow₀ one_le_two
  · have hpos : 0 < w.max.number - w.min.number := sub_pos.mpr hlt
    obtain ⟨eighth, heighth⟩ := Double.exists_number_eq_two_pow (n := n) (by omega)
    obtain ⟨whole, hwhole⟩ := Double.exists_number_eq_two_pow (n := n + 3) (by omega)
    obtain ⟨-, hrounds⟩ := h.rounds_margin hlt
      (lt_of_le_of_lt hspan (Double.two_pow_lt_limit (by omega)))
    have hspan' : |(w.max - w.min).number| ≤ whole.number :=
      (Double.rounds_sub h.finite_max h.finite_min).abs_number_le
        (by rwa [abs_of_pos hpos, hwhole])
    obtain ⟨htenth, htenth'⟩ := number_tenth
    have hmargin : |w.margin.number| ≤ eighth.number := by
      refine hrounds.abs_number_le ?_
      rw [abs_mul, abs_of_pos htenth, heighth]
      calc _ ≤ (2 ^ (n + 3) : ℚ) * (1 / 8) :=
            mul_le_mul (hwhole ▸ hspan') htenth' htenth.le (by positivity)
        _ = 2 ^ n := by
            rw [pow_add]
            ring
    exact (le_abs_self _).trans (heighth ▸ hmargin)

/-- There is room around all values up to `2 ^ 1022`, a fourth of the range. -/
theorem Ordered.roomy_of_abs_le (h : w.Ordered) (hmin : |w.min.number| ≤ 2 ^ 1022)
    (hmax : |w.max.number| ≤ 2 ^ 1022) : w.Roomy := by
  have hlimit := Double.two_pow_lt_limit (n := 1023) le_rfl
  have hquarter : (2 : ℚ) ^ 1022 = 2 ^ 1020 * 4 := by
    rw [pow_add 2 1020 2]
    congr 1
  have hhalf : (2 : ℚ) ^ 1023 = 2 ^ 1020 * 8 := by
    rw [pow_add 2 1020 3]
    congr 1
  have hpos : (0 : ℚ) < 2 ^ 1020 := by positivity
  have hmargin := h.margin_le (n := 1020) le_rfl
  rw [hquarter, abs_le] at hmin hmax
  rw [hhalf] at hlimit hmargin
  clear hquarter hhalf
  generalize (2 : ℚ) ^ 1020 = eighth at *
  have hspan : w.max.number - w.min.number ≤ eighth * 8 := by linarith [hmin.1, hmax.2]
  have hle := hmargin hspan
  exact ⟨by linarith, by linarith [hmin.1], by linarith [hmax.2]⟩

/-! ### The values -/

theorem ofEnds_eq_ok_iff : ofEnds w.min w.max = .ok w ↔ Proper w.min w.max := by
  constructor
  · intro h
    by_contra hnot
    rw [ofEnds_of_not_proper hnot] at h
    cases h
  · exact ofEnds_of_proper

theorem Extremes.ordered {ys : List Double} (h : Extremes ys w) : w.Ordered :=
  ⟨h.min_finite, h.max_finite, (h.between _ h.max_mem h.max_finite).1⟩

/-- The range of the finite values. -/
theorem exists_extremes {ys : List Double} (h : ∃ y ∈ ys, y.isFinite = true) :
    ∃ w : Window Double, fit ys = .ok w.widen ∧ Extremes ys w := by
  rcases fit_exactFit ys with ⟨hnone, -⟩ | ⟨w, hextremes, hfit, -⟩
  · obtain ⟨y, hy, hfinite⟩ := h
    rw [fit, around_eq_error, List.filter_eq_nil_iff] at hnone
    exact absurd hfinite (hnone y hy)
  · exact ⟨w, hfit, hextremes⟩

/--
**A fitted window can be drawn exactly if rounding leaves room for it.**  If there is a finite value
then there is a window, and all finite values lie in it.  It is one that could be given as it is in
the following cases and in no others.  Where the values are level, one more and one less have to be
different, which they are unless the values are multiples of four beyond `2 ^ 53`.  Where they are
not, the span must not be out of the range of the format nor a margin beyond the extreme values be,
and neither is if no value is beyond `2 ^ 1022`.
-/
theorem fit_drawable_iff (ys : List Double) (h : ∃ y ∈ ys, y.isFinite = true) :
    ∃ (lo hi : Double) (w : Window Double), lo ∈ ys ∧ hi ∈ ys ∧
      lo.isFinite = true ∧ hi.isFinite = true ∧ fit ys = .ok w ∧
      (∀ y ∈ ys, y.isFinite = true → lo ≤ y ∧ y ≤ hi ∧ w.min ≤ y ∧ y ≤ w.max) ∧
      (lo.number = hi.number → (ofEnds w.min w.max = .ok w ↔
        ¬(2 ^ 53 < |lo.number| ∧ ∃ k : ℤ, lo.number = 4 * k))) ∧
      (lo.number ≠ hi.number → (ofEnds w.min w.max = .ok w ↔ Roomy ⟨lo, hi⟩) ∧
        ((∀ y ∈ ys, y.isFinite = true → |y.number| ≤ 2 ^ 1022) →
          ofEnds w.min w.max = .ok w)) := by
  obtain ⟨w, hfit, hextremes⟩ := exists_extremes h
  have hordered := hextremes.ordered
  refine ⟨w.min, w.max, w.widen, hextremes.min_mem, hextremes.max_mem, hordered.finite_min,
    hordered.finite_max, hfit, ?_, ?_, ?_⟩
  · intro y hy hfinite
    obtain ⟨hlo, hhi⟩ := hextremes.between y hy hfinite
    exact ⟨(Double.le_iff_number_le hordered.finite_min hfinite).mpr hlo,
      (Double.le_iff_number_le hfinite hordered.finite_max).mpr hhi,
      hordered.widen_encloses hfinite hlo hhi⟩
  · intro hlevel
    exact ofEnds_eq_ok_iff.trans (hordered.proper_widen_of_level hlevel)
  · intro hne
    have hproper := hordered.proper_widen_of_lt (lt_of_le_of_ne hordered.le hne)
    refine ⟨ofEnds_eq_ok_iff.trans hproper, fun hbound => ?_⟩
    exact ofEnds_eq_ok_iff.mpr (hproper.mpr (hordered.roomy_of_abs_le
      (hbound _ hextremes.min_mem hordered.finite_min)
      (hbound _ hextremes.max_mem hordered.finite_max)))

/-- Around zero and one there is room. -/
theorem fit_drawable_zero_one :
    (∃ y ∈ ([.nan, 1.0, .infinite true, 0.0] : List Double), y.isFinite = true) ∧
      ∃ w, fit [.nan, 1.0, .infinite true, 0.0] = .ok w ∧ ofEnds w.min w.max = .ok w := by
  have hone : (1.0 : Double).isFinite = true := by decide +kernel
  have hfinite : ∃ y ∈ ([.nan, 1.0, .infinite true, 0.0] : List Double), y.isFinite = true :=
    ⟨1.0, by simp, hone⟩
  refine ⟨hfinite, ?_⟩
  obtain ⟨lo, hi, w, -, -, hlo, hhi, hfit, hmem, -, hwide⟩ := fit_drawable_iff _ hfinite
  have hzero : (0.0 : Double).number = 0 := by
    rw [zero_eq, Double.number_finite_false, Magnitude.number_zero]
  have hne : lo.number ≠ hi.number := by
    have hle := (Double.le_iff_number_le hlo (by rw [zero_eq]; rfl)).mp
      (hmem 0.0 (by simp) (by rw [zero_eq]; rfl)).1
    have hge := (Double.le_iff_number_le hone hhi).mp (hmem 1.0 (by simp) hone).2.1
    rw [hzero] at hle
    rw [Double.number_one] at hge
    linarith
  refine ⟨w, hfit, (hwide hne).2 ?_⟩
  have hlarge : (1 : ℚ) ≤ 2 ^ 1022 := one_le_pow₀ one_le_two
  intro y hy hyfinite
  simp only [List.mem_cons, List.not_mem_nil, or_false] at hy
  rcases hy with hy | hy | hy | hy
  · rw [hy] at hyfinite
    cases hyfinite
  · rw [hy, Double.number_one, abs_one]
    exact hlarge
  · rw [hy] at hyfinite
    cases hyfinite
  · rw [hy, hzero, abs_zero]
    exact zero_le_one.trans hlarge

/-- Around one very large value the window is empty, and around two that are far apart it has no
ends, although a tenth beyond them would be in range.  A window that is given like that is refused,
but a plot is drawn in it. -/
theorem fit_not_drawable :
    (1e300 : Double).isFinite = true ∧ fit [1e300] = .ok ⟨1e300, 1e300⟩ ∧
      ofEnds 1e300 1e300 = .error .emptyYRange ∧
      (1e308 : Double).isFinite = true ∧ (-1e308 : Double).isFinite = true ∧
      fit [-1e308, 1e308] = .ok ⟨.infinite true, .infinite false⟩ ∧
      ofEnds (.infinite true) (.infinite false) = .error .emptyYRange ∧
      (Plot.ofText "1e300" 0 1 50 50 none).toOption.map Plot.window =
        some (some ⟨1e300, 1e300⟩) ∧
      (Plot.ofText "1e300" 0 1 50 50 (some (1e300, 1e300))).toOption.map Plot.window = none := by
  decide +kernel

end Reckoner.Window
