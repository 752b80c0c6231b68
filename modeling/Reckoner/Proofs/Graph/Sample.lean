/-
The points of a graph.

An expression has a value wherever its variable has one, so a place of the grid is left out only if
it is not finite itself or the value there is not.  The points over the other places stand in the
order of the grid, one for each.  That says which points they are, and it is what gathering them
keeps up from one place of the grid to the next.
-/
import Mathlib.Data.List.Forall2
import Mathlib.Data.List.Sort
import Reckoner.Graph.Sample
import Reckoner.Proofs.Double.Arithmetic
import Reckoner.Proofs.Expression.Variable

namespace Reckoner

namespace Graph

variable {e : Expression} {v : Double} {p : Point} {x : Nat → Double} {n : Nat}
  {points points' : List Point}

/-! ### One place -/

/-- The place is finite and has a finite value. -/
def Drawable (e : Expression) (v : Double) : Prop :=
  v.isFinite = true ∧ ∃ y, e.eval? (some v) = some y ∧ y.isFinite = true

/-- A point is that of a place, with the value there. -/
structure Above (e : Expression) (v : Double) (p : Point) : Prop where
  x_eq : p.x = v
  eval_eq : e.eval? (some v) = some p.y

/-- A place has one point at most. -/
theorem Above.unique {q : Point} (h : Above e v p) (h' : Above e v q) : p = q := by
  obtain ⟨a, b⟩ := p
  obtain ⟨c, d⟩ := q
  obtain rfl : a = c := h.x_eq.trans h'.x_eq.symm
  obtain rfl : b = d := Option.some.inj (h.eval_eq.symm.trans h'.eval_eq)
  rfl

/-- Evaluation never keeps a place from being drawn. -/
theorem exists_drawable_iff (e : Expression) (v : Double) :
    ∃ y, e.eval? (some v) = some y ∧ (Drawable e v ↔ v.isFinite = true ∧ y.isFinite = true) := by
  obtain ⟨y, hy⟩ := e.exists_eval? v
  refine ⟨y, hy, ?_⟩
  constructor
  · rintro ⟨hv, z, hz, hfinite⟩
    obtain rfl := Option.some.inj (hy.symm.trans hz)
    exact ⟨hv, hfinite⟩
  · rintro ⟨hv, hfinite⟩
    exact ⟨hv, y, hy, hfinite⟩

/-- There is a point over every place that can be drawn, and over no other. -/
theorem pointAt?_eq_some : pointAt? e v = some p ↔ Drawable e v ∧ Above e v p := by
  obtain ⟨y, hy, hdrawable⟩ := exists_drawable_iff e v
  unfold pointAt?
  rw [hy, hdrawable]
  by_cases hfinite : v.isFinite = true ∧ y.isFinite = true
  · have habove : Above e v ⟨v, y⟩ := ⟨rfl, hy⟩
    simp only [hfinite.1, hfinite.2, Bool.and_self, if_true, Option.some.injEq, and_self, true_and]
    constructor
    · rintro rfl
      exact habove
    · exact habove.unique
  · have hfalse : (v.isFinite && y.isFinite) = false := by
      rw [← Bool.and_eq_true] at hfinite
      exact Bool.eq_false_iff.mpr hfinite
    simp [hfalse, hfinite]

theorem pointAt?_eq_none : pointAt? e v = none ↔ ¬ Drawable e v := by
  rw [Option.eq_none_iff_forall_ne_some]
  constructor
  · rintro h ⟨hv, y, hy, hfinite⟩
    exact h ⟨v, y⟩ (pointAt?_eq_some.mpr ⟨⟨hv, y, hy, hfinite⟩, rfl, hy⟩)
  · intro h p hp
    exact h (pointAt?_eq_some.mp hp).1

/-! ### Many places -/

/-- The points over the first `n` places: over those that can be drawn, in their order and one for
each, with the value there. -/
def Samples (e : Expression) (x : Nat → Double) (n : Nat) (points : List Point) : Prop :=
  ∃ kept : List Nat, kept.Pairwise (· < ·) ∧ (∀ i, i ∈ kept ↔ i < n ∧ Drawable e (x i)) ∧
    List.Forall₂ (fun i => Above e (x i)) kept points

namespace Samples

theorem zero (e : Expression) (x : Nat → Double) : Samples e x 0 [] :=
  ⟨[], .nil, by simp, .nil⟩

/-- The point over the next place comes last. -/
theorem keep (h : Samples e x n points) (hp : pointAt? e (x n) = some p) :
    Samples e x (n + 1) (points ++ [p]) := by
  obtain ⟨kept, hsorted, hmem, hpoints⟩ := h
  obtain ⟨hdrawable, habove⟩ := pointAt?_eq_some.mp hp
  refine ⟨kept ++ [n], ?_, ?_, List.rel_append hpoints (.cons habove .nil)⟩
  · rw [List.pairwise_append]
    refine ⟨hsorted, List.pairwise_singleton _ _, ?_⟩
    intro i hi j hj
    rw [List.mem_singleton.mp hj]
    exact ((hmem i).mp hi).1
  · intro i
    rw [List.mem_append, List.mem_singleton, hmem, Nat.lt_succ_iff_lt_or_eq]
    constructor
    · rintro (⟨hi, hdraw⟩ | rfl)
      · exact ⟨.inl hi, hdraw⟩
      · exact ⟨.inr rfl, hdrawable⟩
    · rintro ⟨hi | rfl, hdraw⟩
      · exact .inl ⟨hi, hdraw⟩
      · exact .inr rfl

/-- A next place that cannot be drawn changes nothing. -/
theorem skip (h : Samples e x n points) (hnone : pointAt? e (x n) = none) :
    Samples e x (n + 1) points := by
  obtain ⟨kept, hsorted, hmem, hpoints⟩ := h
  refine ⟨kept, hsorted, ?_, hpoints⟩
  intro i
  rw [hmem, Nat.lt_succ_iff_lt_or_eq]
  constructor
  · rintro ⟨hi, hdraw⟩
    exact ⟨.inl hi, hdraw⟩
  · rintro ⟨hi | rfl, hdraw⟩
    · exact ⟨hi, hdraw⟩
    · exact absurd hdraw (pointAt?_eq_none.mp hnone)

/-- They are determined by the places. -/
theorem unique (h : Samples e x n points) (h' : Samples e x n points') : points = points' := by
  obtain ⟨kept, hsorted, hmem, hpoints⟩ := h
  obtain ⟨kept', hsorted', hmem', hpoints'⟩ := h'
  obtain rfl : kept = kept' :=
    hsorted.eq_of_mem_iff hsorted' fun i => (hmem i).trans (hmem' i).symm
  clear hsorted hmem hsorted' hmem'
  induction hpoints generalizing points' with
  | nil =>
      cases hpoints'
      rfl
  | cons habove _ ih =>
      cases hpoints' with
      | cons habove' hrest => rw [habove.unique habove', ih hrest]

theorem length_le (h : Samples e x n points) : points.length ≤ n := by
  obtain ⟨kept, hsorted, hmem, hpoints⟩ := h
  have hsubset : kept ⊆ List.range n := fun i hi => List.mem_range.mpr ((hmem i).mp hi).1
  have hnodup : kept.Nodup := hsorted.imp Nat.ne_of_lt
  calc points.length = kept.length := hpoints.length_eq.symm
    _ ≤ (List.range n).length := (hnodup.subperm hsubset).length_le
    _ = n := List.length_range

/-- All of them are over places that can be drawn. -/
theorem exists_of_mem (h : Samples e x n points) (hp : p ∈ points) :
    ∃ i < n, Drawable e (x i) ∧ Above e (x i) p := by
  obtain ⟨kept, -, hmem, hpoints⟩ := h
  obtain ⟨hlength, habove⟩ := List.forall₂_iff_get.mp hpoints
  obtain ⟨j, hj, rfl⟩ := List.getElem_of_mem hp
  obtain ⟨hi, hdrawable⟩ := (hmem (kept.get ⟨j, hlength ▸ hj⟩)).mp (List.get_mem _ _)
  exact ⟨_, hi, hdrawable, habove j (hlength ▸ hj) hj⟩

/-- So all entries are finite. -/
theorem isFinite_of_mem (h : Samples e x n points) (hp : p ∈ points) :
    p.x.isFinite = true ∧ p.y.isFinite = true := by
  obtain ⟨i, -, ⟨hx, y, hy, hfinite⟩, habove⟩ := h.exists_of_mem hp
  refine ⟨habove.x_eq ▸ hx, ?_⟩
  rwa [Option.some.inj (habove.eval_eq.symm.trans hy)]

end Samples

/-- Going over the places leaves their points. -/
theorem samples_filterMap (e : Expression) (x : Nat → Double) (n : Nat) :
    Samples e x n (((List.range n).map x).filterMap (pointAt? e)) := by
  induction n with
  | zero => exact .zero e x
  | succ n ih =>
      rw [List.range_succ, List.map_append, List.filterMap_append]
      cases hp : pointAt? e (x n) with
      | none => simpa [hp] using ih.skip hp
      | some p => simpa [hp] using ih.keep hp

theorem samples_sample (e : Expression) (xMin xMax : Double) (n : Nat) :
    Samples e (fun i => xMin + .ofNat i * spacing xMin xMax n) n (sample e xMin xMax n) :=
  samples_filterMap e _ n

/-- The reciprocal has no point over zero. -/
example : sample (.binary .div (.number 1) .unknown) (-1) 1 3 = [⟨-1, -1⟩, ⟨1, 1⟩] := by
  decide +kernel

/-! ### Two columns -/

/-- Points as a column of places and one of values. -/
structure Columns where
  xs : List Double
  ys : List Double
  deriving DecidableEq

namespace Columns

/-- The columns of some points. -/
def ofPoints (points : List Point) : Columns := ⟨points.map Point.x, points.map Point.y⟩

/-- A place and its value are put below the columns, if both are finite. -/
def add (e : Expression) (c : Columns) (v : Double) : Columns :=
  match e.eval? (some v) with
  | some y => if v.isFinite && y.isFinite then ⟨c.xs ++ [v], c.ys ++ [y]⟩ else c
  | none => c

/-- The columns that are filled from one place of the grid after the other. -/
def fill (e : Expression) (xMin xMax : Double) (n : Nat) : Columns :=
  (grid xMin xMax n).foldl (add e) ⟨[], []⟩

theorem add_ofPoints (e : Expression) (points : List Point) (v : Double) :
    (ofPoints points).add e v = ofPoints (points ++ (pointAt? e v).toList) := by
  obtain ⟨y, hy⟩ := e.exists_eval? v
  unfold add pointAt?
  rw [hy]
  dsimp only
  split <;> simp [ofPoints]

theorem foldl_add (e : Expression) (vs : List Double) (points : List Point) :
    vs.foldl (add e) (ofPoints points) = ofPoints (points ++ vs.filterMap (pointAt? e)) := by
  induction vs generalizing points with
  | nil => simp
  | cons v vs ih =>
      rw [List.foldl_cons, add_ofPoints, ih, List.append_assoc]
      cases hp : pointAt? e v <;> simp [hp]

/-- Filled side by side, the columns are those of the points. -/
theorem fill_eq (e : Expression) (xMin xMax : Double) (n : Nat) :
    fill e xMin xMax n = ofPoints (sample e xMin xMax n) := by
  have hempty : (⟨[], []⟩ : Columns) = ofPoints [] := rfl
  rw [fill, hempty, foldl_add, List.nil_append, sample]

end Columns

/-! ### The spacing -/

/-- A range is divided into one step at least, so the spacing of a finite range is finite. -/
theorem isFinite_spacing {xMin xMax : Double} (hspan : (xMax - xMin).isFinite = true) (n : Nat) :
    (spacing xMin xMax n).isFinite = true := by
  have hsteps : 1 ≤ max 1 (n - 1) := Nat.le_max_left 1 (n - 1)
  unfold spacing
  generalize xMax - xMin = span at hspan ⊢
  generalize max 1 (n - 1) = steps at hsteps ⊢
  have hrounds := Double.rounds_ofNat steps
  cases hcount : Double.ofNat steps with
  | nan => exact absurd hcount hrounds.ne_nan
  | infinite negative =>
      cases span with
      | finite s m => rfl
      | _ => cases hspan
  | finite negative m =>
      rw [hcount] at hrounds
      obtain ⟨one, hone⟩ := Double.exists_number_eq_two_pow (Nat.zero_le 1023)
      rw [pow_zero] at hone
      have hle : one.number ≤ (Double.finite negative m).number :=
        hrounds.le_number rfl (by linarith) (hone ▸ by exact_mod_cast hsteps)
      exact Double.isFinite_div hspan rfl (hone ▸ hle)

end Graph

end Reckoner
