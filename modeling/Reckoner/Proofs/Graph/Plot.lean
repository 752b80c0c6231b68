/-
Drawing a graph.

What is asked for is looked at in one order: the expression, the range it is drawn over, and the
window it is drawn in.  The first of them that is wrong is what is reported.  Otherwise the number
of places is brought between the fewest and the most there may be, and if the most is set below the
fewest it counts as the fewest.  The window comes in only then, so it cannot change the points.
-/
import Reckoner.Graph.Plot
import Reckoner.Proofs.Graph.Sample

namespace Reckoner

namespace Graph

variable {xMin xMax : Double} {samples maxSamples count : Nat} {fault : GraphError}

/-! ### The range -/

/-- The range has finite ends in their order, and a finite length. -/
structure ProperRange (xMin xMax : Double) : Prop where
  finite_xMin : xMin.isFinite = true
  finite_xMax : xMax.isFinite = true
  ordered : ¬ xMax ≤ xMin
  finite_span : (xMax - xMin).isFinite = true

/-- What is wrong with a range. -/
inductive RangeFault (xMin xMax : Double) : GraphError → Prop
  | ends (h : ¬ (xMin.isFinite = true ∧ xMax.isFinite = true)) : RangeFault xMin xMax .invalidXRange
  | order (hmin : xMin.isFinite = true) (hmax : xMax.isFinite = true) (h : xMax ≤ xMin) :
      RangeFault xMin xMax .emptyXRange
  | span (hmin : xMin.isFinite = true) (hmax : xMax.isFinite = true) (hordered : ¬ xMax ≤ xMin)
      (h : (xMax - xMin).isFinite = false) : RangeFault xMin xMax .invalidXRange

theorem RangeFault.not_proper (h : RangeFault xMin xMax fault) : ¬ ProperRange xMin xMax := by
  intro hproper
  cases h with
  | ends h => exact h ⟨hproper.finite_xMin, hproper.finite_xMax⟩
  | order _ _ h => exact hproper.ordered h
  | span _ _ _ h => exact absurd hproper.finite_span (Bool.eq_false_iff.mp h)

/-- The number of places in a grid: as many as asked for, but not more than the most and, before
that, not fewer than the fewest. -/
def placeCount (samples maxSamples : Nat) : Nat :=
  max minSamples (min samples (max maxSamples minSamples))

theorem minSamples_le_placeCount (samples maxSamples : Nat) :
    minSamples ≤ placeCount samples maxSamples :=
  Nat.le_max_left _ _

/-- The bounds do not cross, whatever the most is set to. -/
theorem placeCount_le (samples maxSamples : Nat) :
    placeCount samples maxSamples ≤ max maxSamples minSamples :=
  Nat.max_le.mpr ⟨Nat.le_max_right _ _, Nat.min_le_right _ _⟩

/-- Either the range is proper and the places are counted, or something is wrong with it. -/
theorem sampleCount_cases (xMin xMax : Double) (samples maxSamples : Nat) :
    (ProperRange xMin xMax ∧
      sampleCount xMin xMax samples maxSamples = .ok (placeCount samples maxSamples)) ∨
    ∃ fault, RangeFault xMin xMax fault ∧
      sampleCount xMin xMax samples maxSamples = .error fault := by
  unfold sampleCount
  by_cases hends : (!xMin.isFinite || !xMax.isFinite) = true
  · rw [if_pos hends]
    refine .inr ⟨_, .ends ?_, rfl⟩
    rintro ⟨hmin, hmax⟩
    rw [hmin, hmax] at hends
    cases hends
  · rw [if_neg hends]
    obtain ⟨hmin, hmax⟩ : xMin.isFinite = true ∧ xMax.isFinite = true := by simpa using hends
    by_cases horder : xMax ≤ xMin
    · rw [if_pos horder]
      exact .inr ⟨_, .order hmin hmax horder, rfl⟩
    · rw [if_neg horder]
      cases hspan : (xMax - xMin).isFinite with
      | false => exact .inr ⟨_, .span hmin hmax horder hspan, rfl⟩
      | true => exact .inl ⟨⟨hmin, hmax, horder, hspan⟩, rfl⟩

end Graph

/-! ### The window -/

namespace Window

variable {lo hi : Double}

/-- A window that is given has finite ends in their order. -/
structure Proper (lo hi : Double) : Prop where
  finite_lo : lo.isFinite = true
  finite_hi : hi.isFinite = true
  ordered : ¬ hi ≤ lo

theorem ofEnds_of_proper (h : Proper lo hi) : ofEnds lo hi = .ok ⟨lo, hi⟩ := by
  unfold ofEnds
  rw [if_neg (by simp [h.finite_lo, h.finite_hi, h.ordered])]

theorem ofEnds_of_not_proper (h : ¬ Proper lo hi) : ofEnds lo hi = .error .emptyYRange := by
  unfold ofEnds
  refine if_pos ?_
  by_contra hends
  obtain ⟨⟨hlo, hhi⟩, hordered⟩ : (lo.isFinite = true ∧ hi.isFinite = true) ∧ ¬ hi ≤ lo := by
    simpa using hends
  exact h ⟨hlo, hhi, hordered⟩

end Window

namespace Plot

variable {text : String} {xMin xMax : Double} {samples maxSamples : Nat}
  {ends : Option (Double × Double)} {plot : Plot} {points : List Point}

/-- The window points are drawn in: the one that is given if it is proper, and otherwise one that
fits them, of which there is none if there are no points. -/
inductive DrawnIn (points : List Point) : Option (Double × Double) → Option (Window Double) → Prop
  | given {lo hi : Double} (h : Window.Proper lo hi) : DrawnIn points (some (lo, hi)) (some ⟨lo, hi⟩)
  | fitted {w : Window Double} (h : Window.fit (points.map Point.y) = .ok w) :
      DrawnIn points none (some w)
  | nothing (h : points = []) : DrawnIn points none none

/-- Points with finite values have a window that fits them if there are any. -/
theorem drawnIn_fit (h : ∀ p ∈ points, p.y.isFinite = true) :
    DrawnIn points none (Window.fit (points.map Point.y)).toOption := by
  cases points with
  | nil => exact .nothing rfl
  | cons p rest =>
      cases hfit : Window.fit ((p :: rest).map Point.y) with
      | ok w => exact .fitted hfit
      | error fault =>
          have hp : p.y.isFinite = true := h p List.mem_cons_self
          rw [List.map_cons, Window.fit, List.filter_cons_of_pos hp] at hfit
          cases hfit

theorem drawnIn_fit_sample (e : Expression) (xMin xMax : Double) (n : Nat) :
    DrawnIn (Graph.sample e xMin xMax n) none
      (Window.fit ((Graph.sample e xMin xMax n).map Point.y)).toOption := by
  refine drawnIn_fit ?_
  intro p hp
  exact ((Graph.samples_sample e xMin xMax n).isFinite_of_mem hp).2

theorem DrawnIn.unique {window window' : Option (Window Double)} (h : DrawnIn points ends window)
    (h' : DrawnIn points ends window') : window = window' := by
  cases h with
  | given _ =>
      cases h'
      rfl
  | fitted hfit =>
      cases h' with
      | fitted hfit' => rw [Except.ok.inj (hfit.symm.trans hfit')]
      | nothing hnone =>
          rw [hnone] at hfit
          cases hfit
  | nothing hnone =>
      cases h' with
      | nothing _ => rfl
      | fitted hfit =>
          rw [hnone] at hfit
          cases hfit

/-! ### How drawing ends -/

/-- Drawing ends in one of four ways. -/
inductive Outcome (text : String) (xMin xMax : Double) (samples maxSamples : Nat)
    (ends : Option (Double × Double)) : Except Failure Plot → Prop
  | unread {err : SyntaxError} (hread : Expression.parse (Calculation.normalize text) = .error err) :
      Outcome text xMin xMax samples maxSamples ends (.error (.calculation (.parse err)))
  | badRange {e : Expression} {fault : GraphError}
      (hread : Expression.parse (Calculation.normalize text) = .ok e)
      (hrange : Graph.RangeFault xMin xMax fault) :
      Outcome text xMin xMax samples maxSamples ends (.error (.graph fault))
  | badWindow {e : Expression} {lo hi : Double}
      (hread : Expression.parse (Calculation.normalize text) = .ok e)
      (hrange : Graph.ProperRange xMin xMax) (hends : ends = some (lo, hi))
      (hwindow : ¬ Window.Proper lo hi) :
      Outcome text xMin xMax samples maxSamples ends (.error (.graph .emptyYRange))
  | drawn {e : Expression} {window : Option (Window Double)}
      (hread : Expression.parse (Calculation.normalize text) = .ok e)
      (hrange : Graph.ProperRange xMin xMax)
      (hwindow : DrawnIn (Graph.sample e xMin xMax (Graph.placeCount samples maxSamples))
        ends window) :
      Outcome text xMin xMax samples maxSamples ends
        (.ok ⟨Graph.sample e xMin xMax (Graph.placeCount samples maxSamples), window⟩)

theorem outcome_ofText (text : String) (xMin xMax : Double) (samples maxSamples : Nat)
    (ends : Option (Double × Double)) :
    Outcome text xMin xMax samples maxSamples ends
      (ofText text xMin xMax samples maxSamples ends) := by
  unfold ofText
  cases hread : Expression.parse (Calculation.normalize text) with
  | error err => exact .unread hread
  | ok e =>
      rcases Graph.sampleCount_cases xMin xMax samples maxSamples with
        ⟨hrange, hcount⟩ | ⟨fault, hfault, hcount⟩
      · rw [hcount]
        simp only [Failure.lift, Reckoner.Outcome.ok_bind]
        cases ends with
        | none => exact .drawn hread hrange (drawnIn_fit_sample e xMin xMax _)
        | some given =>
            obtain ⟨lo, hi⟩ := given
            by_cases hwindow : Window.Proper lo hi
            · simp only [Window.ofEnds_of_proper hwindow]
              exact .drawn hread hrange (.given hwindow)
            · simp only [Window.ofEnds_of_not_proper hwindow]
              exact .badWindow hread hrange rfl hwindow
      · rw [hcount]
        exact .badRange hread hfault

/-- It succeeds exactly if the expression can be read and the range and the window are proper. -/
theorem ofText_eq_ok :
    ofText text xMin xMax samples maxSamples ends = .ok plot ↔
      ∃ e, Expression.parse (Calculation.normalize text) = .ok e ∧ Graph.ProperRange xMin xMax ∧
        plot.points = Graph.sample e xMin xMax (Graph.placeCount samples maxSamples) ∧
        DrawnIn plot.points ends plot.window := by
  have houtcome := outcome_ofText text xMin xMax samples maxSamples ends
  constructor
  · intro h
    rw [h] at houtcome
    cases houtcome with
    | drawn hread hrange hwindow => exact ⟨_, hread, hrange, rfl, hwindow⟩
  · obtain ⟨points, window⟩ := plot
    rintro ⟨e, hread, hrange, hpoints, hwindow⟩
    dsimp only at hpoints hwindow
    subst hpoints
    generalize ofText text xMin xMax samples maxSamples ends = result at houtcome
    cases houtcome with
    | unread hread' => cases hread.symm.trans hread'
    | badRange _ hfault => exact absurd hrange hfault.not_proper
    | badWindow _ _ hends hproper =>
        subst hends
        cases hwindow with
        | given h => exact absurd h hproper
    | drawn hread' _ hwindow' =>
        obtain rfl := Except.ok.inj (hread.symm.trans hread')
        rw [hwindow.unique hwindow']

/-- The points are the same in every window. -/
theorem points_eq {ends' : Option (Double × Double)} {plot' : Plot}
    (h : ofText text xMin xMax samples maxSamples ends = .ok plot)
    (h' : ofText text xMin xMax samples maxSamples ends' = .ok plot') :
    plot.points = plot'.points := by
  obtain ⟨e, hread, -, hpoints, -⟩ := ofText_eq_ok.mp h
  obtain ⟨e', hread', -, hpoints', -⟩ := ofText_eq_ok.mp h'
  obtain rfl := Except.ok.inj (hread.symm.trans hread')
  rw [hpoints, hpoints']

/-- What is drawn in a window that is given can be drawn in one that fits. -/
theorem exists_fitted (h : ofText text xMin xMax samples maxSamples ends = .ok plot) :
    ∃ window, ofText text xMin xMax samples maxSamples none = .ok ⟨plot.points, window⟩ := by
  obtain ⟨e, hread, hrange, hpoints, -⟩ := ofText_eq_ok.mp h
  have hfit := drawnIn_fit_sample e xMin xMax (Graph.placeCount samples maxSamples)
  rw [← hpoints] at hfit
  exact ⟨(Window.fit (plot.points.map Point.y)).toOption,
    ofText_eq_ok.mpr ⟨e, hread, hrange, hpoints, hfit⟩⟩

/-- The most points there can be. -/
theorem length_points_le (h : ofText text xMin xMax samples maxSamples ends = .ok plot) :
    plot.points.length ≤ max maxSamples Graph.minSamples := by
  obtain ⟨e, -, -, hpoints, -⟩ := ofText_eq_ok.mp h
  rw [hpoints]
  exact (Graph.samples_sample e xMin xMax _).length_le.trans (Graph.placeCount_le _ _)

/--
**A graph has every point that can be drawn.**  Sampling over `n` places gives the points over those
that are finite and have a finite value, in their order, each once, and no others; it fills two
columns of the same length, `n` at most, and no place is left out for want of a value.  A plot is
refused for its expression, for its range or for its window, in this order, or it has the points
over a grid of at least fifty places and of no more than are allowed, where fifty always are; these
are a finite distance apart.  The window that is asked for does not change the points.
-/
theorem keeps_every_drawable_place :
    (∀ (e : Expression) (xMin xMax : Double) (n : Nat),
      (∀ v, ∃ y, e.eval? (some v) = some y) ∧
      (∀ points, points = Graph.sample e xMin xMax n ↔
        Graph.Samples e
          (fun i => xMin + Double.ofNat i * ((xMax - xMin) / Double.ofNat (max 1 (n - 1)))) n points) ∧
      (∀ p ∈ Graph.sample e xMin xMax n, p.x.isFinite = true ∧ p.y.isFinite = true) ∧
      ∃ xs ys, Graph.Columns.fill e xMin xMax n = ⟨xs, ys⟩ ∧
        xs = (Graph.sample e xMin xMax n).map Point.x ∧
        ys = (Graph.sample e xMin xMax n).map Point.y ∧
        xs.length = ys.length ∧ ys.length ≤ n) ∧
    ∀ (text : String) (xMin xMax : Double) (samples maxSamples : Nat)
      (ends : Option (Double × Double)),
      Outcome text xMin xMax samples maxSamples ends
        (ofText text xMin xMax samples maxSamples ends) ∧
      50 ≤ Graph.placeCount samples maxSamples ∧
      Graph.placeCount samples maxSamples ≤ max maxSamples 50 ∧
      ∀ plot, ofText text xMin xMax samples maxSamples ends = .ok plot →
        (Graph.spacing xMin xMax (Graph.placeCount samples maxSamples)).isFinite = true ∧
        plot.points.length ≤ max maxSamples 50 ∧
        (∃ window, ofText text xMin xMax samples maxSamples none = .ok ⟨plot.points, window⟩) ∧
        ∀ ends' plot', ofText text xMin xMax samples maxSamples ends' = .ok plot' →
          plot'.points = plot.points := by
  constructor
  · intro e xMin xMax n
    have hsamples := Graph.samples_sample e xMin xMax n
    refine ⟨fun v => e.exists_eval? v, ?_, ?_, ?_⟩
    · intro points
      constructor
      · rintro rfl
        exact hsamples
      · intro h
        exact h.unique hsamples
    · intro p hp
      exact hsamples.isFinite_of_mem hp
    · refine ⟨_, _, Graph.Columns.fill_eq e xMin xMax n, rfl, rfl, ?_, ?_⟩
      · rw [List.length_map, List.length_map]
      · rw [List.length_map]
        exact hsamples.length_le
  · intro text xMin xMax samples maxSamples ends
    refine ⟨outcome_ofText text xMin xMax samples maxSamples ends,
      Graph.minSamples_le_placeCount samples maxSamples, Graph.placeCount_le samples maxSamples, ?_⟩
    intro plot h
    obtain ⟨-, -, hrange, -, -⟩ := ofText_eq_ok.mp h
    refine ⟨Graph.isFinite_spacing hrange.finite_span _, length_points_le h, exists_fitted h, ?_⟩
    intro ends' plot' h'
    exact points_eq h' h

end Plot

end Reckoner
