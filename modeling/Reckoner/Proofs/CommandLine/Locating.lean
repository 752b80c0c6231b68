/-
Where a unit is looked for.

Without a category a unit is looked for in the default of the main group, then in the default of the
other group, and then in all categories in the order in which they are shown.  The defaults are
themselves among all categories, so they decide which category is found but not whether one is.
A category that was found and is then remembered becomes the default of its group: nothing that is
looked through before it knows the unit, so it is found again.
-/
import Reckoner.Proofs.CommandLine.Keeping

namespace Reckoner

/-! ### The first category that knows a unit -/

/-- The first of some categories that knows a unit, and the unit's position. -/
def firstKnowing (unit : String) (cs : List Category) : Option (Category × Nat) :=
  cs.findSome? fun c => (c.unitIndex? unit).map (c, ·)

section First

variable {unit : String} {c : Category} {cs cs' : List Category} {i : Nat}

theorem firstKnowing_cons_of_some (h : c.unitIndex? unit = some i) (cs : List Category) :
    firstKnowing unit (c :: cs) = some (c, i) := by
  simp [firstKnowing, h]

theorem firstKnowing_cons_of_none (h : c.unitIndex? unit = none) (cs : List Category) :
    firstKnowing unit (c :: cs) = firstKnowing unit cs := by
  simp [firstKnowing, h]

theorem firstKnowing_eq_none_iff :
    firstKnowing unit cs = none ↔ ∀ c ∈ cs, c.unitIndex? unit = none := by
  simp [firstKnowing]

/-- What is found is a unit of the category that is found. -/
theorem unitIndex?_of_firstKnowing (h : firstKnowing unit cs = some (c, i)) :
    c.unitIndex? unit = some i := by
  obtain ⟨c', -, hc'⟩ := List.exists_of_findSome?_eq_some h
  obtain ⟨j, hj, hpair⟩ := Option.map_eq_some_iff.mp hc'
  cases hpair
  exact hj

/-- All categories are looked through for a unit of which nothing else is known. -/
theorem firstKnowing_all (unit : String) : firstKnowing unit Category.all = findUnit? unit := rfl

end First

namespace Settings

/-! ### The order in which categories are looked through -/

/-- The categories in which a unit is looked for, one after the other. -/
def searched (s : Settings) : List Category :=
  s.defaultCategory .main :: s.defaultCategory .misc :: Category.all

variable {s : Settings} {c : Category} {unit : String} {i : Nat}

/-- The defaults do not decide whether a unit is found. -/
theorem firstKnowing_searched_eq_none_iff :
    firstKnowing unit s.searched = none ↔ findUnit? unit = none := by
  rw [← firstKnowing_all, firstKnowing_eq_none_iff, firstKnowing_eq_none_iff]
  constructor
  · intro h c hc
    exact h c (List.mem_cons_of_mem _ (List.mem_cons_of_mem _ hc))
  · intro h c _
    exact h c (Category.mem_all c)

/-! ### Remembering -/

/-- Remembering leaves everything as it is, or makes the category the default of its group. -/
theorem apply_remember_cases (s : Settings) (c : Category) :
    s.remember? c = none ∧ (Change.remember c).apply s = s ∨
      (Change.remember c).apply s = s.withDefaultName c.group c.name := by
  rw [Change.apply]
  unfold remember?
  by_cases h : (s.rememberLastCategory && s.defaultName c.group != c.name) = true
  · rw [if_pos h]
    exact .inr rfl
  · rw [if_neg h]
    exact .inl ⟨rfl, rfl⟩

theorem defaultCategory_withDefaultName (s : Settings) (group : CategoryGroup) (c : Category) :
    (s.withDefaultName group c.name).defaultCategory group = c := by
  cases group with
  | main => rw [withDefaultName, defaultCategory, Category.ofName?_name, Option.getD_some]
  | misc => rw [withDefaultName, defaultCategory, Category.ofName?_name, Option.getD_some]

/-- The default of the main group does not change with that of the other one. -/
theorem defaultCategory_main_withDefaultName (s : Settings) (name : String) :
    (s.withDefaultName .misc name).defaultCategory .main = s.defaultCategory .main := rfl

/-- What was remembered need not be remembered again. -/
theorem remember?_apply_remember (s : Settings) (c : Category) :
    ((Change.remember c).apply s).remember? c = none := by
  rcases s.apply_remember_cases c with ⟨hnone, hsame⟩ | hchanged
  · rw [hsame, hnone]
  · rw [hchanged, remember?, defaultName_withDefaultName]
    simp

/-- A default category is kept as it is when it is remembered. -/
theorem Sound.apply_remember_defaultCategory (hs : s.Sound) (group : CategoryGroup) :
    (Change.remember (s.defaultCategory group)).apply s = s := by
  obtain ⟨c, hgroup, hname⟩ := hs.default_named group
  obtain ⟨hfound, -⟩ := hs.ofName?_defaultName group
  rw [hname, Category.ofName?_name] at hfound
  have hc : s.defaultCategory group = c := (Option.some.inj hfound).symm
  rw [hc, Change.apply, Settings.remember?, hgroup, hname]
  simp

/-- A category that neither default precedes is the first to know a unit once it is remembered. -/
theorem firstKnowing_searched_withDefaultName (hmain : (s.defaultCategory .main).unitIndex? unit = none)
    (hc : c.unitIndex? unit = some i) :
    firstKnowing unit (s.withDefaultName c.group c.name).searched = some (c, i) := by
  cases hgroup : c.group with
  | main =>
      rw [searched, defaultCategory_withDefaultName]
      exact firstKnowing_cons_of_some hc _
  | misc =>
      rw [searched, defaultCategory_main_withDefaultName, firstKnowing_cons_of_none hmain,
        defaultCategory_withDefaultName]
      exact firstKnowing_cons_of_some hc _

/-- **A category that was found is found again when it has been remembered.** -/
theorem Sound.firstKnowing_apply_remember (hs : s.Sound)
    (h : firstKnowing unit s.searched = some (c, i)) :
    firstKnowing unit ((Change.remember c).apply s).searched = some (c, i) := by
  have hc : c.unitIndex? unit = some i := unitIndex?_of_firstKnowing h
  by_cases hmain : (s.defaultCategory .main).unitIndex? unit = none
  · rcases s.apply_remember_cases c with ⟨-, hsame⟩ | hchanged
    · rw [hsame, h]
    · rw [hchanged]
      exact firstKnowing_searched_withDefaultName hmain hc
  · -- The default of the main group knows the unit, so it is what was found.
    obtain ⟨j, hj⟩ := Option.ne_none_iff_exists'.mp hmain
    rw [searched, firstKnowing_cons_of_some hj] at h
    obtain ⟨rfl, rfl⟩ := Prod.mk.inj (Option.some.inj h)
    rw [hs.apply_remember_defaultCategory .main]
    exact firstKnowing_cons_of_some hj _

end Settings

/-! ### Locating a unit -/

namespace Plan

open Settings (after Change)

variable {s : Settings} {unit : String} {c : Category} {i : Nat}

/-- Without a category the first one that knows the unit is found, of those that are looked
through. -/
theorem locateUnit_none (s : Settings) (unit : String) :
    locateUnit s none unit =
      match firstKnowing unit s.searched with
      | some found => .ok found
      | none => .error (.validation ("Unknown unit: " ++ unit)) := by
  unfold locateUnit
  simp only [List.findSome?_cons, List.findSome?_nil, Option.orElse_eq_orElse, Option.orElse_eq_or]
  rw [Settings.searched]
  cases hmain : (s.defaultCategory .main).unitIndex? unit with
  | some i =>
      rw [firstKnowing_cons_of_some hmain, Option.map_some, Option.some_or]
  | none =>
      rw [firstKnowing_cons_of_none hmain, Option.map_none]
      cases hmisc : (s.defaultCategory .misc).unitIndex? unit with
      | some i =>
          rw [firstKnowing_cons_of_some hmisc, Option.map_some, Option.some_or]
      | none =>
          rw [firstKnowing_cons_of_none hmisc, firstKnowing_all, Option.map_none]
          cases findUnit? unit with
          | some found => rfl
          | none => rfl

theorem locateUnit_eq_ok :
    locateUnit s none unit = .ok (c, i) ↔ firstKnowing unit s.searched = some (c, i) := by
  rw [locateUnit_none]
  cases firstKnowing unit s.searched with
  | some found => simp
  | none => simp

theorem locateUnit_eq_error {e : Failure} :
    locateUnit s none unit = .error e ↔
      findUnit? unit = none ∧ e = .validation ("Unknown unit: " ++ unit) := by
  rw [locateUnit_none, ← Settings.firstKnowing_searched_eq_none_iff (s := s)]
  cases firstKnowing unit s.searched with
  | some found => simp
  | none => simp [eq_comm]

/--
**Which category is found is stable.**  Take any settings that can come about and any text.  If
without a category a unit is found, then it is one of the category that is found with it; after that
category has been remembered, with remembering on or off, the same unit of the same category is
found, and to remember the category again changes nothing.  No unit is found exactly if no category
knows one by that text, which is reported.  So the defaults decide at most which category is found;
and there are texts for which they do.
-/
theorem located_again :
    (∀ (changes : List Change) (unit : String),
      (∀ c i, locateUnit (after changes) none unit = .ok (c, i) →
        c.unitIndex? unit = some i ∧
        locateUnit (after (changes ++ [.remember c])) none unit = .ok (c, i) ∧
        (after (changes ++ [.remember c])).remember? c = none) ∧
      ((∃ e, locateUnit (after changes) none unit = .error e) ↔ findUnit? unit = none) ∧
      ∀ e, locateUnit (after changes) none unit = .error e →
        e = .validation ("Unknown unit: " ++ unit)) ∧
    ∃ (changes changes' : List Change) (unit : String) (c c' : Category) (i i' : Nat),
      locateUnit (after changes) none unit = .ok (c, i) ∧
      locateUnit (after changes') none unit = .ok (c', i') ∧ c ≠ c' := by
  refine ⟨fun changes unit => ⟨?_, ?_, ?_⟩, ?_⟩
  · intro c i h
    have hfirst := locateUnit_eq_ok.mp h
    have hafter : after (changes ++ [.remember c]) = (Change.remember c).apply (after changes) := by
      simp [after]
    rw [hafter]
    refine ⟨unitIndex?_of_firstKnowing hfirst, ?_, Settings.remember?_apply_remember _ c⟩
    exact locateUnit_eq_ok.mpr ((Settings.sound_after changes).firstKnowing_apply_remember hfirst)
  · constructor
    · rintro ⟨e, h⟩
      exact (locateUnit_eq_error.mp h).1
    · intro h
      exact ⟨_, locateUnit_eq_error.mpr ⟨h, rfl⟩⟩
  · intro e h
    exact (locateUnit_eq_error.mp h).2
  · refine ⟨[.remember .frequency], [.remember .rpm], "Hz", .frequency, .rpm, 0, 2, ?_, ?_,
      by decide⟩
    · decide +kernel
    · decide +kernel

end Plan

end Reckoner
