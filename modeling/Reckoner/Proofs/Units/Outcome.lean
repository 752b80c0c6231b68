/-
How a conversion ends.

Five things can be wrong with a conversion, and they are looked for in a fixed order: the category,
the source, the target, the value, and last what the rule refuses.  So each error has a condition
of its own, and where none of them holds there is a result.  The rules look up what they need in
tables by position; the labels and the tables of a category have the same length, so a position
that has a label is in every table.
-/
import Reckoner.Proofs.Units.Range

namespace Reckoner

/-! ### What is refused -/

/-- A conversion is refused for a reason. -/
inductive Refused (category source target : String) (v : Double) : ConversionError → Prop
  | unknownCategory (hc : Category.ofName? category = none) :
      Refused category source target v (.unknownCategory category)
  | unknownSource {c : Category} (hc : Category.ofName? category = some c)
      (hs : c.unitIndex? source = none) :
      Refused category source target v (.unknownUnit c.name source)
  /-- The target is looked for only if the source is found. -/
  | unknownTarget {c : Category} {i : Nat} (hc : Category.ofName? category = some c)
      (hs : c.unitIndex? source = some i) (ht : c.unitIndex? target = none) :
      Refused category source target v (.unknownUnit c.name target)
  | nonFiniteValue {c : Category} {i j : Nat} (hc : Category.ofName? category = some c)
      (hs : c.unitIndex? source = some i) (ht : c.unitIndex? target = some j)
      (hv : v.isFinite = false) : Refused category source target v .nonFiniteValue
  /-- Neither zero is an intensity that has a level. -/
  | nonPositiveIntensity {i j : Nat} (hc : Category.ofName? category = some .soundIntensity)
      (hs : Category.soundIntensity.unitIndex? source = some i)
      (ht : Category.soundIntensity.unitIndex? target = some j)
      (hi : Category.soundIntensity.unitLabel? i = some "intensity (W/m²)")
      (hj : Category.soundIntensity.unitLabel? j = some "level (dB)")
      (hv : v.isFinite = true) (hle : v.number ≤ 0) :
      Refused category source target v .nonPositiveIntensity

section Names

variable {category source target : String} {v : Double} {c : Category} {i j : Nat}

theorem convert_of_not_found (hc : Category.ofName? category = none) :
    convert category source target v = .error (.unknownCategory category) := by
  rw [convert, Category.resolve, hc]
  rfl

theorem convert_of_found (hc : Category.ofName? category = some c) :
    convert category source target v = c.convert source target v := by
  rw [convert, Category.resolve, hc]
  rfl

namespace Category

theorem resolveUnit_of_not_found (hs : c.unitIndex? source = none) :
    c.resolveUnit source = .error (.unknownUnit c.name source) := by
  rw [resolveUnit, hs]

theorem resolveUnit_of_found (hs : c.unitIndex? source = some i) :
    c.resolveUnit source = .ok i := by
  rw [resolveUnit, hs]

theorem convert_of_unknown_source (hs : c.unitIndex? source = none) :
    c.convert source target v = .error (.unknownUnit c.name source) := by
  rw [convert, resolveUnit_of_not_found hs]
  rfl

theorem convert_of_unknown_target (hs : c.unitIndex? source = some i)
    (ht : c.unitIndex? target = none) :
    c.convert source target v = .error (.unknownUnit c.name target) := by
  rw [convert, resolveUnit_of_found hs, resolveUnit_of_not_found ht]
  rfl

theorem convert_of_units (hs : c.unitIndex? source = some i) (ht : c.unitIndex? target = some j) :
    c.convert source target v = c.convertAt i j v := by
  rw [convert, resolveUnit_of_found hs, resolveUnit_of_found ht]
  rfl

theorem lt_of_unitIndex? (hs : c.unitIndex? source = some i) : i < c.units.length :=
  lt_of_resolveUnit (resolveUnit_of_found hs)

/-- Each label stands at one position. -/
theorem unitLabel?_eq_iff (hj : j < c.units.length) :
    c.unitLabel? i = some c.units[j] ↔ i = j := by
  rw [unitLabel?, ← List.getElem?_eq_getElem hj, eq_comm, List.getElem?_inj hj c.nodup_units,
    eq_comm]

end Category

/-- Every reason is an error. -/
theorem Refused.convert_eq {e : ConversionError} (h : Refused category source target v e) :
    convert category source target v = .error e := by
  cases h with
  | unknownCategory hc => exact convert_of_not_found hc
  | unknownSource hc hs => rw [convert_of_found hc, Category.convert_of_unknown_source hs]
  | unknownTarget hc hs ht => rw [convert_of_found hc, Category.convert_of_unknown_target hs ht]
  | nonFiniteValue hc hs ht hv =>
      rw [convert_of_found hc, Category.convert_of_units hs ht,
        Category.convertAt_of_not_finite hv]
  | nonPositiveIntensity hc hs ht hi hj hv hle =>
      rw [convert_of_found hc, Category.convert_of_units hs ht,
        Category.convertAt_eq_error_iff hv (Category.lt_of_unitIndex? hs)
          (Category.lt_of_unitIndex? ht)]
      have hi' := (Category.unitLabel?_eq_iff (c := .soundIntensity) (j := 0) (by decide)).mp hi
      have hj' := (Category.unitLabel?_eq_iff (c := .soundIntensity) (j := 1) (by decide)).mp hj
      exact ⟨rfl, rfl, hi', hj', (Double.le_zero_iff hv).mpr hle⟩

/-- Every error has its reason. -/
theorem refused_of_convert {e : ConversionError}
    (h : convert category source target v = .error e) : Refused category source target v e := by
  cases hc : Category.ofName? category with
  | none =>
      rw [convert_of_not_found hc] at h
      cases h
      exact .unknownCategory hc
  | some c =>
      rw [convert_of_found hc] at h
      cases hs : c.unitIndex? source with
      | none =>
          rw [Category.convert_of_unknown_source hs] at h
          cases h
          exact .unknownSource hc hs
      | some i =>
          cases ht : c.unitIndex? target with
          | none =>
              rw [Category.convert_of_unknown_target hs ht] at h
              cases h
              exact .unknownTarget hc hs ht
          | some j =>
              rw [Category.convert_of_units hs ht] at h
              by_cases hv : v.isFinite = true
              · obtain ⟨rfl, rfl, rfl, rfl, hle⟩ := (Category.convertAt_eq_error_iff hv
                  (Category.lt_of_unitIndex? hs) (Category.lt_of_unitIndex? ht)).mp h
                exact .nonPositiveIntensity hc hs ht rfl rfl hv ((Double.le_zero_iff hv).mp hle)
              · rw [Bool.not_eq_true] at hv
                rw [Category.convertAt_of_not_finite hv] at h
                cases h
                exact .nonFiniteValue hc hs ht hv

theorem convert_eq_error {e : ConversionError} :
    convert category source target v = .error e ↔ Refused category source target v e :=
  ⟨refused_of_convert, Refused.convert_eq⟩

/-- What is not refused has a result. -/
theorem exists_convert (h : ∀ e, ¬ Refused category source target v e) :
    ∃ w, convert category source target v = .ok w := by
  cases hconvert : convert category source target v with
  | ok w => exact ⟨w, rfl⟩
  | error e => exact absurd (refused_of_convert hconvert) (h e)

/-- A value that stays in its unit stays as it is. -/
theorem convert_same (hc : Category.ofName? category = some c)
    (hs : c.unitIndex? source = some i) (ht : c.unitIndex? target = some i)
    (hv : v.isFinite = true) : convert category source target v = .ok v := by
  rw [convert_of_found hc, Category.convert_of_units hs ht,
    Category.convertAt_eq hv (Category.lt_of_unitIndex? hs) (Category.lt_of_unitIndex? ht),
    if_pos rfl]

end Names

/-! ### Looking up in tables -/

/-- What a rule gives if each entry that it needs is looked up in a table of its own; there is no
result if a position is outside of the table. -/
def ArithmeticRule.lookUp? : ArithmeticRule Double → Nat → Nat → Double → Option Double
  | linear factors, i, j, v => do
    let source ← factors[i]?
    let target ← factors[j]?
    return v * source / target
  | temperature scales, i, j, v => do
    let source ← scales[i]?
    let target ← scales[j]?
    return target.ofCelsius (source.toCelsius v)
  | angle halfTurn units, i, j, v => do
    let source ← units[i]?
    let target ← units[j]?
    return source.convert halfTurn target v
  | rate factors, i, j, v => do
    let toBase ← (factors.map RateFactors.toBase)[i]?
    let fromBase ← (factors.map RateFactors.fromBase)[j]?
    return v / toBase * fromBase

def ConversionRule.lookUp? : ConversionRule → Nat → Nat → Double →
    Option (Except ConversionError Double)
  | arithmetic rule, i, j, v => (rule.lookUp? i j v).map .ok
  | soundLevel measures reference, i, j, v => do
    let source ← measures[i]?
    let target ← measures[j]?
    return source.convert reference target v

/-- A conversion between two positions in which the rule's tables are looked up without regard to
the labels. -/
def Category.lookUp? (c : Category) (i j : Nat) (v : Double) :
    Option (Except ConversionError Double) :=
  if !v.isFinite then some (.error .nonFiniteValue)
  else
    match c.units[i]?, c.units[j]? with
    | some _, some _ => if i = j then some (.ok v) else c.rule.lookUp? i j v
    | _, _ => some (.error (.unknownUnit c.name ("#" ++ toString (max i j))))

/-- A position of the table has an entry. -/
theorem getElem?_fin {α : Type} (xs : List α) (i : Fin xs.length) :
    xs[(i : Nat)]? = some (xs.get i) := List.getElem?_eq_getElem i.isLt

theorem ArithmeticRule.lookUp?_eq (rule : ArithmeticRule Double) (i j : Fin rule.size)
    (v : Double) : rule.lookUp? i j v = some (rule.convert i j v) := by
  cases rule with
  | linear factors =>
      simp only [lookUp?, getElem?_fin factors i, getElem?_fin factors j]
      rfl
  | temperature scales =>
      simp only [lookUp?, getElem?_fin scales i, getElem?_fin scales j]
      rfl
  | angle halfTurn units =>
      simp only [lookUp?, getElem?_fin units i, getElem?_fin units j]
      rfl
  | rate factors =>
      simp only [lookUp?, List.getElem?_map, getElem?_fin factors i, getElem?_fin factors j]
      rfl

theorem ConversionRule.lookUp?_eq (rule : ConversionRule) (i j : Fin rule.size) (v : Double) :
    rule.lookUp? i j v = some (rule.convert i j v) := by
  cases rule with
  | arithmetic rule =>
      simp only [lookUp?, ArithmeticRule.lookUp?_eq rule i j v]
      rfl
  | soundLevel measures reference =>
      simp only [lookUp?, getElem?_fin measures i, getElem?_fin measures j]
      rfl

namespace Category

variable {c : Category} {i j : Nat} {v : Double}

theorem convertAt_of_out_of_range (hv : v.isFinite = true)
    (h : ¬ (i < c.units.length ∧ j < c.units.length)) :
    c.convertAt i j v = .error (.unknownUnit c.name ("#" ++ toString (max i j))) := by
  rw [convertAt, hv, dif_neg h]
  rfl

/-- No position that is looked up is outside of a table. -/
theorem lookUp?_eq (c : Category) (i j : Nat) (v : Double) :
    c.lookUp? i j v = some (c.convertAt i j v) := by
  by_cases hv : v.isFinite = true
  · by_cases h : i < c.units.length ∧ j < c.units.length
    · obtain ⟨hi, hj⟩ := h
      rw [convertAt_eq hv hi hj]
      simp only [lookUp?, hv, List.getElem?_eq_getElem hi, List.getElem?_eq_getElem hj]
      by_cases hij : i = j
      · simp [hij]
      · rw [if_neg hij, if_neg hij]
        exact c.rule.lookUp?_eq ⟨i, c.rule_size ▸ hi⟩ ⟨j, c.rule_size ▸ hj⟩ v
    · rw [convertAt_of_out_of_range hv h]
      simp only [lookUp?, hv]
      rcases not_and_or.mp h with hi | hj
      · rw [List.getElem?_eq_none (Nat.le_of_not_lt hi)]
        rfl
      · rw [List.getElem?_eq_none (Nat.le_of_not_lt hj)]
        cases c.units[i]? <;> rfl
  · rw [Bool.not_eq_true] at hv
    rw [convertAt_of_not_finite hv, lookUp?, hv]
    rfl

/-- A unit is unknown only because a position is out of range, and the larger one is named. -/
theorem convertAt_eq_unknownUnit {name unit : String} :
    c.convertAt i j v = .error (.unknownUnit name unit) ↔
      v.isFinite = true ∧ (c.units.length ≤ i ∨ c.units.length ≤ j) ∧ name = c.name ∧
        unit = "#" ++ toString (max i j) := by
  by_cases hv : v.isFinite = true
  · by_cases h : i < c.units.length ∧ j < c.units.length
    · refine iff_of_false ?_ (by omega)
      intro herror
      obtain ⟨hunknown, -⟩ := (convertAt_eq_error_iff hv h.1 h.2).mp herror
      cases hunknown
    · rw [convertAt_of_out_of_range hv h]
      constructor
      · intro herror
        cases herror
        exact ⟨hv, by omega, rfl, rfl⟩
      · rintro ⟨-, -, rfl, rfl⟩
        rfl
  · rw [Bool.not_eq_true] at hv
    rw [convertAt_of_not_finite hv, hv]
    exact iff_of_false nofun nofun

end Category

/--
**How a conversion ends.**  Each error has its reason and each reason its error: an unknown category
comes before an unknown source, that before an unknown target, that before a value that is not
finite, and last comes an intensity that has no level.  Where there is no reason there is a result,
and a value that stays in its unit is the result, whatever texts name the unit.  Between positions
the value is checked first; then a unit is unknown exactly if a position is out of range, and the
error names such a position.  No table of a rule is looked up where it has no entry.
-/
theorem conversion_outcome :
    (∀ (category source target : String) (v : Double),
      (∀ e, convert category source target v = .error e ↔ Refused category source target v e) ∧
      ((∀ e, ¬ Refused category source target v e) →
        ∃ w, convert category source target v = .ok w) ∧
      ∀ (c : Category) (i : Nat), Category.ofName? category = some c →
        c.unitIndex? source = some i → c.unitIndex? target = some i → v.isFinite = true →
        convert category source target v = .ok v) ∧
    ∀ (c : Category) (i j : Nat) (v : Double),
      (v.isFinite = false → c.convertAt i j v = .error .nonFiniteValue) ∧
      (v.isFinite = true →
        ((∃ name unit, c.convertAt i j v = .error (.unknownUnit name unit)) ↔
          c.units.length ≤ i ∨ c.units.length ≤ j)) ∧
      (∀ name unit, c.convertAt i j v = .error (.unknownUnit name unit) →
        name = c.name ∧ ∃ k, unit = "#" ++ toString k ∧ c.units.length ≤ k ∧ (k = i ∨ k = j)) ∧
      c.lookUp? i j v = some (c.convertAt i j v) := by
  refine ⟨?_, ?_⟩
  · intro category source target v
    exact ⟨fun e => convert_eq_error, exists_convert, fun c i => convert_same⟩
  · intro c i j v
    refine ⟨Category.convertAt_of_not_finite, ?_, ?_, c.lookUp?_eq i j v⟩
    · intro hv
      constructor
      · rintro ⟨name, unit, herror⟩
        exact (Category.convertAt_eq_unknownUnit.mp herror).2.1
      · intro hout
        exact ⟨_, _, Category.convertAt_eq_unknownUnit.mpr ⟨hv, hout, rfl, rfl⟩⟩
    · intro name unit herror
      obtain ⟨-, hout, hname, hunit⟩ := Category.convertAt_eq_unknownUnit.mp herror
      exact ⟨hname, max i j, hunit, by omega, by omega⟩

/-- An intensity of negative zero has no level, but it is an intensity.  The position behind the
last sound is out of range. -/
theorem conversion_outcome_silence :
    convert "sound intensity" "W/m²" "level (dB)" (-0.0) = .error .nonPositiveIntensity ∧
      convert "sound intensity" "W/m²" "INTENSITY (w/m²)" (-0.0) = .ok (-0.0) ∧
      ∃ name unit,
        Category.soundIntensity.convertAt 0 2 (-0.0) = .error (.unknownUnit name unit) := by
  have hcategory : Category.ofName? "sound intensity" = some .soundIntensity := by decide +kernel
  have hsource : Category.soundIntensity.unitIndex? "W/m²" = some 0 := by decide +kernel
  have hfinite : (-0.0 : Double).isFinite = true := by decide +kernel
  have hle : (-0.0 : Double).number ≤ 0 := (Double.le_zero_iff hfinite).mp (by decide +kernel)
  obtain ⟨hnames, hpositions⟩ := conversion_outcome
  refine ⟨?_, ?_, ?_⟩
  · refine ((hnames _ _ _ _).1 _).mpr ?_
    exact .nonPositiveIntensity (i := 0) (j := 1) hcategory hsource (by decide +kernel) rfl rfl
      hfinite hle
  · exact (hnames _ _ _ _).2.2 .soundIntensity 0 hcategory hsource (by decide +kernel) hfinite
  · exact ((hpositions .soundIntensity 0 2 (-0.0)).2.1 hfinite).mpr (.inr (by decide))

end Reckoner
