/-
Conversion into all units of a category.

The units are run through by their positions, and a single conversion finds its target by name;
as every unit is found by its label, that comes to the same.  What makes the conversion into all
units fail, makes each single one fail in the same way.
-/
import Reckoner.Proofs.Units.Lookup

namespace Reckoner.Category

variable {c : Category} {source : String} {i j : Nat} {v : Double}

theorem convertAt_of_not_finite (hv : v.isFinite = false) :
    c.convertAt i j v = .error .nonFiniteValue := by
  rw [convertAt, hv]
  rfl

/-- A conversion into a unit that is given by its label needs to find only the source. -/
theorem convert_label (hj : j < c.units.length) :
    c.convert source c.units[j] v = c.resolveUnit source >>= fun i => c.convertAt i j v := by
  refine bind_congr fun i => ?_
  rw [resolveUnit_label hj]
  rfl

/-- If the source is found and the value is finite, each unit has the outcome of the conversion into
it. -/
theorem convertAll_eq_ok (hi : c.resolveUnit source = .ok i) (hv : v.isFinite = true) :
    c.convertAll source v = .ok (c.units.map fun unit => (unit, c.convert source unit v)) := by
  have hentries : c.units.zipIdx.map (fun entry => (entry.1, c.convertAt i entry.2 v)) =
      c.units.map fun unit => (unit, c.convert source unit v) := by
    refine List.ext_getElem (by simp) fun j hj hj' => ?_
    have hlt : j < c.units.length := by simpa using hj'
    have hconvert : c.convert source c.units[j] v = c.convertAt i j v := by
      rw [convert_label hlt, hi]
      rfl
    simp [hconvert]
  rw [convertAll, hi, ← hentries]
  simp only [hv]
  rfl

/-- If the source is not found or the value is not finite, then every conversion fails for the same
reason. -/
theorem convertAll_eq_error
    (h : ∀ i, c.resolveUnit source = .ok i → v.isFinite = false) :
    ∃ e, c.convertAll source v = .error e ∧
      ∀ unit ∈ c.units, c.convert source unit v = .error e := by
  cases hi : c.resolveUnit source with
  | error e =>
      refine ⟨e, by rw [convertAll, hi]; rfl, ?_⟩
      intro unit _
      rw [convert, hi]
      rfl
  | ok i =>
      have hv := h i hi
      refine ⟨.nonFiniteValue, by rw [convertAll, hi]; simp only [hv]; rfl, ?_⟩
      intro unit hunit
      obtain ⟨j, hj, rfl⟩ := List.getElem_of_mem hunit
      rw [convert_label hj, hi]
      exact convertAt_of_not_finite hv

end Reckoner.Category
