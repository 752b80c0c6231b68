/-
The window around some values.

Going over the values from the first one, a range is extended by each that lies outside it.  In the
end it reaches from the least to the greatest, so neither their order matters nor how often there is
one, nor those in between.  In exact arithmetic the window then has room at both ends, a tenth of
the span or, where all values are level, one.
-/
import Reckoner.Graph.Window
import Reckoner.Proofs.Double.Number

namespace Reckoner.Window

/-! ### The smallest range -/

section Ends

variable {α β : Type} [LT α] [DecidableLT α] [LT β] [DecidableLT β] {ys zs : List α} {y : α}
  {w : Window α}

/-- The ends of a range are among some values. -/
structure EndsIn (ys : List α) (w : Window α) : Prop where
  min_mem : w.min ∈ ys
  max_mem : w.max ∈ ys

theorem EndsIn.reach (h : EndsIn ys w) (hy : y ∈ ys) : EndsIn ys (w.reach y) := by
  constructor
  · unfold Window.reach
    dsimp only
    split
    · exact hy
    · exact h.min_mem
  · unfold Window.reach
    dsimp only
    split
    · exact hy
    · exact h.max_mem

theorem EndsIn.foldl (h : EndsIn ys w) (hzs : zs ⊆ ys) : EndsIn ys (zs.foldl Window.reach w) := by
  induction zs generalizing w with
  | nil => exact h
  | cons z zs ih =>
      obtain ⟨hz, hrest⟩ := List.cons_subset.mp hzs
      exact ih (h.reach hz) hrest

/-- The extreme values are attained. -/
theorem endsIn_of_hull? (h : hull? ys = some w) : EndsIn ys w := by
  cases ys with
  | nil => cases h
  | cons y ys =>
      cases h
      have hy : y ∈ y :: ys := List.mem_cons_self
      exact EndsIn.foldl ⟨hy, hy⟩ (List.subset_cons_self y ys)

theorem hull?_eq_none : hull? ys = none ↔ ys = [] := by
  cases ys <;> simp [hull?]

theorem around_eq_error [Add α] [Sub α] [Mul α] [OfScientific α] :
    around ys = .error .noValidPoints ↔ ys = [] := by
  rw [around, ← hull?_eq_none]
  cases hull? ys <;> simp

/-! ### Other kinds of numbers -/

/-- The same range for other numbers. -/
def map (f : α → β) (w : Window α) : Window β := ⟨f w.min, f w.max⟩

theorem map_reach {f : α → β} (hmin : y < w.min ↔ f y < f w.min)
    (hmax : w.max < y ↔ f w.max < f y) : (w.reach y).map f = (w.map f).reach (f y) := by
  unfold Window.reach map
  dsimp only
  rw [apply_ite f, apply_ite f]
  simp only [hmin, hmax]

/-- Numbers in the same order have the same extreme ones. -/
theorem hull?_map {f : α → β} (h : ∀ a ∈ ys, ∀ b ∈ ys, (a < b ↔ f a < f b)) :
    hull? (ys.map f) = (hull? ys).map (map f) := by
  have hfold : ∀ zs w, EndsIn ys w → zs ⊆ ys →
      (zs.foldl Window.reach w).map f = (zs.map f).foldl Window.reach (w.map f) := by
    intro zs
    induction zs with
    | nil => exact fun _ _ _ => rfl
    | cons z zs ih =>
        intro w hw hzs
        obtain ⟨hz, hrest⟩ := List.cons_subset.mp hzs
        rw [List.foldl_cons, List.map_cons, List.foldl_cons, ih _ (hw.reach hz) hrest,
          map_reach (h z hz _ hw.min_mem) (h _ hw.max_mem z hz)]
  cases ys with
  | nil => rfl
  | cons y ys =>
      have hy : y ∈ y :: ys := List.mem_cons_self
      exact congrArg some (hfold ys ⟨y, y⟩ ⟨hy, hy⟩ (List.subset_cons_self y ys)).symm

end Ends

section Order

variable {α : Type} [LinearOrder α] {ys ys' zs : List α} {y : α} {w w' : Window α}

/-- A range reaches from the least of some values to the greatest. -/
structure Spans (ys : List α) (w : Window α) : Prop extends EndsIn ys w where
  min_le : ∀ y ∈ ys, w.min ≤ y
  le_max : ∀ y ∈ ys, y ≤ w.max

theorem Spans.unique (h : Spans ys w) (h' : Spans ys w') : w = w' := by
  obtain ⟨lo, hi⟩ := w
  obtain ⟨lo', hi'⟩ := w'
  obtain rfl : lo = lo' := le_antisymm (h.min_le _ h'.min_mem) (h'.min_le _ h.min_mem)
  obtain rfl : hi = hi' := le_antisymm (h'.le_max _ h.max_mem) (h.le_max _ h'.max_mem)
  rfl

/-- One step extends the range just far enough. -/
theorem Spans.reach (h : Spans zs w) (y : α) : Spans (zs ++ [y]) (w.reach y) := by
  have hends : EndsIn (zs ++ [y]) w :=
    ⟨List.mem_append_left _ h.min_mem, List.mem_append_left _ h.max_mem⟩
  refine ⟨hends.reach (by simp), ?_, ?_⟩
  · intro z hz
    rw [Window.reach]
    rcases List.mem_append.mp hz with hz | hz
    · have := h.min_le z hz
      grind
    · obtain rfl := List.mem_singleton.mp hz
      grind
  · intro z hz
    rw [Window.reach]
    rcases List.mem_append.mp hz with hz | hz
    · have := h.le_max z hz
      grind
    · obtain rfl := List.mem_singleton.mp hz
      grind

theorem Spans.foldl (h : Spans zs w) (ys : List α) :
    Spans (zs ++ ys) (ys.foldl Window.reach w) := by
  induction ys generalizing zs w with
  | nil => rwa [List.append_nil]
  | cons y ys ih =>
      rw [← List.singleton_append, ← List.append_assoc]
      exact ih (h.reach y)

/-- Going over the values finds their extreme ones. -/
theorem hull?_eq_some : hull? ys = some w ↔ Spans ys w := by
  have hspans : ∀ {v}, hull? ys = some v → Spans ys v := by
    intro v hv
    cases ys with
    | nil => cases hv
    | cons y ys =>
        cases hv
        have hfirst : Spans [y] ⟨y, y⟩ := ⟨⟨by simp, by simp⟩, by simp, by simp⟩
        exact hfirst.foldl ys
  refine ⟨hspans, fun h => ?_⟩
  cases hv : hull? ys with
  | some v => rw [(hspans hv).unique h]
  | none =>
      rw [hull?_eq_none] at hv
      have := h.min_mem
      rw [hv] at this
      cases this

/-- Other values change nothing if the extreme ones are among them and they lie in between. -/
theorem Spans.of_within (h : Spans ys w) (hends : EndsIn ys' w)
    (hwithin : ∀ y ∈ ys', y ∈ ys ∨ w.min ≤ y ∧ y ≤ w.max) : Spans ys' w := by
  refine ⟨hends, ?_, ?_⟩
  · intro y hy
    exact (hwithin y hy).elim (h.min_le y) And.left
  · intro y hy
    exact (hwithin y hy).elim (h.le_max y) And.right

/-- Neither the order of the values matters nor how often there is one. -/
theorem spans_congr (h : ∀ y, y ∈ ys ↔ y ∈ ys') : Spans ys w ↔ Spans ys' w := by
  constructor
  · intro hw
    exact ⟨⟨(h _).mp hw.min_mem, (h _).mp hw.max_mem⟩, fun y hy => hw.min_le y ((h y).mpr hy),
      fun y hy => hw.le_max y ((h y).mpr hy)⟩
  · intro hw
    exact ⟨⟨(h _).mpr hw.min_mem, (h _).mpr hw.max_mem⟩, fun y hy => hw.min_le y ((h y).mp hy),
      fun y hy => hw.le_max y ((h y).mp hy)⟩

theorem hull?_congr (h : ∀ y, y ∈ ys ↔ y ∈ ys') : hull? ys = hull? ys' := by
  refine Option.ext fun w => ?_
  exact hull?_eq_some.trans ((spans_congr h).trans hull?_eq_some.symm)

end Order

/-! ### Finite values -/

section Numbers

variable {ys ys' before after : List Double} {y : Double} {x : ℚ}

/-- The exact values of the finite ones among some doubles. -/
def numbers (ys : List Double) : List ℚ := (ys.filter Double.isFinite).map Double.number

theorem mem_numbers : x ∈ numbers ys ↔ ∃ y ∈ ys, y.isFinite = true ∧ y.number = x := by
  simp [numbers, and_assoc]

theorem number_mem_numbers (hy : y ∈ ys) (hfinite : y.isFinite = true) : y.number ∈ numbers ys :=
  mem_numbers.mpr ⟨y, hy, hfinite, rfl⟩

theorem numbers_eq_nil : numbers ys = [] ↔ ∀ y ∈ ys, y.isFinite = false := by
  simp [numbers]

/-- What is not finite does not count. -/
theorem filter_insert_of_not_finite (h : y.isFinite = false) :
    (before ++ y :: after).filter Double.isFinite = (before ++ after).filter Double.isFinite := by
  rw [List.filter_append, List.filter_append, List.filter_cons_of_neg (by simp [h])]

/-- The extreme doubles are those with the extreme values. -/
theorem hull?_numbers (ys : List Double) :
    hull? (numbers ys) = (hull? (ys.filter Double.isFinite)).map (map Double.number) := by
  refine hull?_map fun a ha b hb => ?_
  exact Double.lt_iff_number_lt (List.mem_filter.mp ha).2 (List.mem_filter.mp hb).2

/-- A range goes from a least one of the finite values to a greatest. -/
structure Extremes (ys : List Double) (w : Window Double) : Prop where
  min_mem : w.min ∈ ys
  max_mem : w.max ∈ ys
  min_finite : w.min.isFinite = true
  max_finite : w.max.isFinite = true
  between : ∀ y ∈ ys, y.isFinite = true → w.min.number ≤ y.number ∧ y.number ≤ w.max.number

theorem extremes_of_hull? {w : Window Double} (h : hull? (ys.filter Double.isFinite) = some w) :
    Extremes ys w := by
  have hends := endsIn_of_hull? h
  obtain ⟨hmin, hminfinite⟩ := List.mem_filter.mp hends.min_mem
  obtain ⟨hmax, hmaxfinite⟩ := List.mem_filter.mp hends.max_mem
  have hspans : Spans (numbers ys) (w.map Double.number) := by
    rw [← hull?_eq_some, hull?_numbers, h]
    rfl
  refine ⟨hmin, hmax, hminfinite, hmaxfinite, ?_⟩
  intro y hy hfinite
  have hmem := number_mem_numbers hy hfinite
  exact ⟨hspans.min_le _ hmem, hspans.le_max _ hmem⟩

end Numbers

/-! ### Exact arithmetic -/

section Exact

variable {ys before after : List Double} {y : Double} {w : Window ℚ}

/-- The window around the finite ones among some values, without rounding. -/
def exactFit (ys : List Double) : Except GraphError (Window ℚ) := around (numbers ys)

/-- The window is the widened range of the finite values, in rounded arithmetic as in exact. -/
theorem fit_exactFit (ys : List Double) :
    (fit ys = .error .noValidPoints ∧ exactFit ys = .error .noValidPoints) ∨
    ∃ w : Window Double, Extremes ys w ∧ fit ys = .ok w.widen ∧
      exactFit ys = .ok (w.map Double.number).widen := by
  rw [fit, exactFit, around, around, hull?_numbers]
  cases hw : hull? (ys.filter Double.isFinite) with
  | none => exact .inl ⟨rfl, rfl⟩
  | some w => exact .inr ⟨w, extremes_of_hull? hw, rfl, rfl⟩

theorem exactFit_of_spans (h : Spans (numbers ys) w) : exactFit ys = .ok w.widen := by
  rw [exactFit, around, hull?_eq_some.mpr h]

/-- Without rounding there is a tenth of the span at each end, or one where there is no span. -/
theorem margin_eq (h : w.min ≤ w.max) :
    w.margin = if w.max = w.min then 1 else (w.max - w.min) / 10 := by
  unfold margin
  by_cases hflat : w.max = w.min
  · rw [if_pos hflat, if_neg (by norm_num [hflat])]
    norm_num
  · have hspan : w.min < w.max := lt_of_le_of_ne h (Ne.symm hflat)
    rw [if_neg hflat, if_pos (by norm_num [hspan]), div_eq_mul_inv]
    norm_num

theorem margin_pos (h : w.min ≤ w.max) : 0 < w.margin := by
  rw [margin_eq h]
  split
  · exact one_pos
  · rename_i hflat
    have hspan : w.min < w.max := lt_of_le_of_ne h (Ne.symm hflat)
    linarith

/-- A value between the extreme ones does not count. -/
theorem exactFit_insert_of_between (h : Spans (numbers (before ++ after)) w)
    (hfinite : y.isFinite = true) (hmin : w.min ≤ y.number) (hmax : y.number ≤ w.max) :
    exactFit (before ++ y :: after) = exactFit (before ++ after) := by
  have hmem : ∀ x, x ∈ numbers (before ++ y :: after) ↔
      x ∈ numbers (before ++ after) ∨ x = y.number := by
    intro x
    simp only [mem_numbers, List.mem_append, List.mem_cons]
    grind
  have hspans : Spans (numbers (before ++ y :: after)) w := by
    refine h.of_within ⟨(hmem _).mpr (.inl h.min_mem), (hmem _).mpr (.inl h.max_mem)⟩ ?_
    intro x hx
    rcases (hmem x).mp hx with hx | rfl
    · exact .inl hx
    · exact .inr ⟨hmin, hmax⟩
  rw [exactFit_of_spans hspans, exactFit_of_spans h]

/--
**A window reaches beyond the extreme values.**  It is missing exactly if no value is finite.
Otherwise it is the range from the least finite value to the greatest, widened; the same range
widened in exact arithmetic has a margin beyond both ends, a tenth of the way between the two or,
where they are level, one, so that all finite values lie inside it.  It stays the same when values
change places, when one that is not finite comes in anywhere or is left out, and when one between
the extreme ones does.
-/
theorem exactFit_around_extremes (ys : List Double) :
    (exactFit ys = .error .noValidPoints ↔ ∀ y ∈ ys, y.isFinite = false) ∧
    (fit ys = .error .noValidPoints ↔ ∀ y ∈ ys, y.isFinite = false) ∧
    ((fit ys = .error .noValidPoints ∧ exactFit ys = .error .noValidPoints) ∨
      ∃ w : Window Double, Extremes ys w ∧ fit ys = .ok w.widen ∧
        exactFit ys = .ok (w.map Double.number).widen) ∧
    ((∃ y ∈ ys, y.isFinite = true) → ∃ lo hi margin : ℚ,
      (∃ y ∈ ys, y.isFinite = true ∧ y.number = lo) ∧
      (∃ y ∈ ys, y.isFinite = true ∧ y.number = hi) ∧
      margin = (if hi = lo then 1 else (hi - lo) / 10) ∧
      exactFit ys = .ok ⟨lo - margin, hi + margin⟩ ∧
      (∀ y ∈ ys, y.isFinite = true → lo ≤ y.number ∧ y.number ≤ hi ∧
        lo - margin < y.number ∧ y.number < hi + margin) ∧
      ∀ before after y, ys = before ++ after → y.isFinite = true → lo ≤ y.number → y.number ≤ hi →
        exactFit (before ++ y :: after) = exactFit ys) ∧
    (∀ ys', ys'.Perm ys → exactFit ys' = exactFit ys) ∧
    ∀ before after y, ys = before ++ after → y.isFinite = false →
      exactFit (before ++ y :: after) = exactFit ys ∧ fit (before ++ y :: after) = fit ys := by
  refine ⟨around_eq_error.trans numbers_eq_nil, around_eq_error.trans (by simp), fit_exactFit ys,
    ?_, ?_, ?_⟩
  · rintro ⟨y, hy, hfinite⟩
    cases hw : hull? (numbers ys) with
    | none =>
        rw [hull?_eq_none, numbers_eq_nil] at hw
        rw [hw y hy] at hfinite
        cases hfinite
    | some w =>
        have hspans := hull?_eq_some.mp hw
        have hle : w.min ≤ w.max := hspans.min_le _ hspans.max_mem
        have hpos := margin_pos hle
        refine ⟨w.min, w.max, w.margin, mem_numbers.mp hspans.min_mem,
          mem_numbers.mp hspans.max_mem, margin_eq hle, exactFit_of_spans hspans, ?_, ?_⟩
        · intro z hz hzfinite
          have hmem := number_mem_numbers hz hzfinite
          have hmin := hspans.min_le _ hmem
          have hmax := hspans.le_max _ hmem
          exact ⟨hmin, hmax, by linarith, by linarith⟩
        · rintro before after z rfl hzfinite hmin hmax
          exact exactFit_insert_of_between hspans hzfinite hmin hmax
  · intro ys' hperm
    have hmem : ∀ x, x ∈ numbers ys' ↔ x ∈ numbers ys := by
      intro x
      simp only [mem_numbers, hperm.mem_iff]
    rw [exactFit, exactFit, around, around, hull?_congr hmem]
  · rintro before after z rfl hz
    rw [exactFit, exactFit, numbers, numbers, fit, fit, filter_insert_of_not_finite hz]
    exact ⟨rfl, rfl⟩

end Exact

end Reckoner.Window
