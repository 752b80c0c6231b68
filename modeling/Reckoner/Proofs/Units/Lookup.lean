/-
Units are found by their labels.

No category has two units of one label, and no label has blanks at its ends, so a label names the
unit that has it.  Whatever a text names, the position that is found is that of a unit.
-/
import Mathlib.Data.List.Nodup
import Reckoner.Units.Conversion

namespace Reckoner

section Lists

variable {α : Type} {xs : List α} {a : α} {i : Nat}

/-- Where nothing occurs twice, an entry is first found at its own position. -/
theorem findIdx?_getElem [DecidableEq α] (h : xs.Nodup) (hi : i < xs.length) :
    xs.findIdx? (· == xs[i]) = some i := by
  rw [List.findIdx?_eq_some_iff_getElem]
  refine ⟨hi, by simp, ?_⟩
  intro j hj hsame
  have : j = i := h.getElem_inj_iff.mp (by simpa using hsame)
  omega

/-- A unique entry is the first one. -/
theorem findIdx?_of_uniqueIdx? {test : α → Bool} (h : uniqueIdx? test xs = some i) :
    xs.findIdx? test = some i := by
  unfold uniqueIdx? at h
  split at h
  · cases h
  · rename_i j hj
    split at h
    · cases h
    · cases h
      exact hj

end Lists

namespace Category

variable {c : Category} {i : Nat} {text : String}

theorem nodup_units (c : Category) : c.units.Nodup := by
  revert c
  decide +kernel

/-- Labels have no blanks at their ends. -/
theorem trim_of_mem_units {label : String} (h : label ∈ c.units) : Text.trim label = label := by
  have hall : ∀ c : Category, ∀ label ∈ c.units, Text.trimChars label.toList = label.toList := by
    decide +kernel
  rw [Text.trim, hall c label h, String.ofList_toList]

/-- A unit is found by its label. -/
theorem unitIndex?_label (hi : i < c.units.length) : c.unitIndex? c.units[i] = some i := by
  rw [unitIndex?, trim_of_mem_units (List.getElem_mem hi), findIdx?_getElem c.nodup_units hi]
  rfl

theorem resolveUnit_label (hi : i < c.units.length) : c.resolveUnit c.units[i] = .ok i := by
  rw [resolveUnit, unitIndex?_label hi]

/-- However a unit is found, it is the first one of the category to pass some test. -/
theorem exists_findIdx?_of_unitIndex? (h : c.unitIndex? text = some i) :
    ∃ test, c.units.findIdx? test = some i := by
  simp only [unitIndex?, Option.orElse_eq_orElse, Option.orElse_eq_or, Option.or_eq_some_iff] at h
  rcases h with h | ⟨-, h | ⟨-, h⟩⟩
  · exact ⟨_, h⟩
  · exact ⟨_, findIdx?_of_uniqueIdx? h⟩
  · exact ⟨_, h⟩

/-- What is found is a unit of the category. -/
theorem lt_of_resolveUnit (h : c.resolveUnit text = .ok i) : i < c.units.length := by
  unfold resolveUnit at h
  split at h
  · rename_i j hj
    cases h
    obtain ⟨test, htest⟩ := exists_findIdx?_of_unitIndex? hj
    exact (List.findIdx?_eq_some_iff_getElem.mp htest).1
  · cases h

end Category

end Reckoner
