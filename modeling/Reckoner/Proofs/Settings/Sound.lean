/-
What holds of all settings that come about.

Settings are changed from the command line, read from a file that may hold anything, and changed
by a converter that remembers what it did.  Each way checks a value before it takes it, and takes
a category by its display name, however it was written.  So after any sequence of changes the
scaling is a number from a half to two, and a default category is found under its stored name and
belongs to its group.
-/
import Reckoner.Proofs.Double.Number
import Reckoner.Settings.Store

namespace Reckoner

/-- A category is found by its display name. -/
theorem Category.ofName?_name (c : Category) : ofName? c.name = some c := by
  revert c
  decide +kernel

namespace Settings

/-! ### Sound settings -/

/-- What is relied upon of settings, wherever they come from. -/
structure Sound (s : Settings) : Prop where
  /-- The scaling is a number. -/
  scaling_finite : s.scaling.isFinite = true
  half_le_scaling : 1 / 2 ≤ s.scaling.number
  scaling_le_two : s.scaling.number ≤ 2
  /-- A default category is stored by the display name of a category of its group. -/
  default_named : ∀ group, ∃ c : Category, c.group = group ∧ s.defaultName group = c.name

variable {s changed : Settings} {key : SettingKey} {value : Json}

/-- A default category is found under its stored name, and belongs to its group. -/
theorem Sound.ofName?_defaultName (h : s.Sound) (group : CategoryGroup) :
    Category.ofName? (s.defaultName group) = some (s.defaultCategory group) ∧
      (s.defaultCategory group).group = group := by
  obtain ⟨c, hgroup, hname⟩ := h.default_named group
  have hfound : Category.ofName? (s.defaultName group) = some c := by
    rw [hname, Category.ofName?_name]
  have hdefault : s.defaultCategory group = c := by
    cases group with
    | main =>
        rw [defaultName] at hfound
        rw [defaultCategory, hfound, Option.getD_some]
    | misc =>
        rw [defaultName] at hfound
        rw [defaultCategory, hfound, Option.getD_some]
  rw [hdefault]
  exact ⟨hfound, hgroup⟩

/-! ### Checked values -/

/-- The magnitude of a half. -/
def half : Magnitude := ⟨4503599627370496, 1021, by omega, by omega, by omega⟩

/-- The magnitude of one. -/
def one : Magnitude := ⟨4503599627370496, 1022, by omega, by omega, by omega⟩

/-- The magnitude of two. -/
def two : Magnitude := ⟨4503599627370496, 1023, by omega, by omega, by omega⟩

theorem half_eq : (0.5 : Double) = .finite false half := by
  decide +kernel

theorem two_eq : (2.0 : Double) = .finite false two := by
  decide +kernel

theorem number_half : half.number = 1 / 2 := by
  norm_num [Magnitude.number, half]

theorem number_one : one.number = 1 := by
  norm_num [Magnitude.number, one]

theorem number_two : two.number = 2 := by
  norm_num [Magnitude.number, two]

/-- The range of a scaling, in numbers; it has no room for a NaN or an infinity. -/
theorem inRange_iff {v : Double} : (0.5 : Double) ≤ v ∧ v ≤ 2.0 ↔
    v.isFinite = true ∧ 1 / 2 ≤ v.number ∧ v.number ≤ 2 := by
  show (0.5 : Double).le v = true ∧ v.le 2.0 = true ↔ _
  rw [half_eq, two_eq, ← number_half, ← number_two]
  constructor
  · rintro ⟨hlo, hhi⟩
    have hv : v.isFinite = true := Double.isFinite_of_between rfl rfl hlo hhi
    exact ⟨hv, (Double.le_iff_number_le rfl hv).mp hlo, (Double.le_iff_number_le hv rfl).mp hhi⟩
  · rintro ⟨hv, hlo, hhi⟩
    exact ⟨(Double.le_iff_number_le rfl hv).mpr hlo, (Double.le_iff_number_le hv rfl).mpr hhi⟩

/-- The number for which a value stands as a scaling, before it is checked. -/
def statedNumber? : Json → Option Double
  | .text s => Double.ofText? (Text.trimChars s.toList)
  | .number n => some n.toDouble
  | _ => none

/-- A scaling is taken if it is stated and in range. -/
theorem scaling?_eq_some {v : Double} :
    scaling? value = some v ↔ statedNumber? value = some v ∧ (0.5 : Double) ≤ v ∧ v ≤ 2.0 := by
  have hcheck : scaling? value = (statedNumber? value).bind fun w =>
      if (0.5 : Double) ≤ w ∧ w ≤ 2.0 then some w else none := by
    cases value <;> rfl
  rw [hcheck, Option.bind_eq_some_iff]
  constructor
  · rintro ⟨w, hw, hchecked⟩
    split at hchecked
    · rename_i hrange
      cases hchecked
      exact ⟨hw, hrange⟩
    · cases hchecked
  · rintro ⟨hv, hrange⟩
    exact ⟨v, hv, if_pos hrange⟩

/-- A category that is taken is stored by its display name and belongs to the group. -/
theorem exists_of_categoryName? {group : CategoryGroup} {name : String}
    (h : categoryName? group value = some name) :
    ∃ c : Category, c.group = group ∧ name = c.name := by
  unfold categoryName? at h
  split at h
  · obtain ⟨c, hc, rfl⟩ := Option.map_eq_some_iff.mp h
    obtain ⟨-, hgroup⟩ := Option.filter_eq_some_iff.mp hc
    exact ⟨c, by simpa using hgroup, rfl⟩
  · cases h

/-! ### Single changes -/

theorem initial_scaling : initial.scaling = .finite false one := by
  decide +kernel

theorem sound_initial : initial.Sound := by
  refine ⟨?_, ?_, ?_, ?_⟩
  · rw [initial_scaling]
    rfl
  · rw [initial_scaling, Double.number_finite_false, number_one]
    norm_num
  · rw [initial_scaling, Double.number_finite_false, number_one]
    norm_num
  · intro group
    cases group with
    | main => exact ⟨.length, rfl, rfl⟩
    | misc => exact ⟨.angle, rfl, rfl⟩

/-- A scaling in range keeps settings sound. -/
theorem Sound.withScaling {v : Double} (h : s.Sound) (hrange : (0.5 : Double) ≤ v ∧ v ≤ 2.0) :
    Sound { s with scaling := v } := by
  obtain ⟨hfinite, hlo, hhi⟩ := inRange_iff.mp hrange
  exact ⟨hfinite, hlo, hhi, h.default_named⟩

/-- So does the display name of a category of its group. -/
theorem Sound.withDefaultName (h : s.Sound) (c : Category) :
    (s.withDefaultName c.group c.name).Sound := by
  have hscaling : (s.withDefaultName c.group c.name).scaling = s.scaling := by
    cases hgroup : c.group <;> rfl
  refine ⟨?_, ?_, ?_, ?_⟩
  · rw [hscaling]
    exact h.scaling_finite
  · rw [hscaling]
    exact h.half_le_scaling
  · rw [hscaling]
    exact h.scaling_le_two
  · intro group
    by_cases hgroup : group = c.group
    · subst hgroup
      refine ⟨c, rfl, ?_⟩
      cases c.group <;> rfl
    · obtain ⟨c', hc', hname⟩ := h.default_named group
      refine ⟨c', hc', ?_⟩
      rw [← hname]
      revert hgroup
      cases group <;> cases c.group <;> simp [defaultName, Settings.withDefaultName]

/-- A value that is taken keeps settings sound. -/
theorem Sound.replace? (h : s.Sound) (hchanged : s.replace? key value = some changed) :
    changed.Sound := by
  cases key with
  | scaling =>
      obtain ⟨v, hv, rfl⟩ := Option.map_eq_some_iff.mp hchanged
      exact h.withScaling (scaling?_eq_some.mp hv).2
  | defaultCategoryMain | defaultCategoryMisc =>
      obtain ⟨name, hname, rfl⟩ := Option.map_eq_some_iff.mp hchanged
      obtain ⟨c, hgroup, rfl⟩ := exists_of_categoryName? hname
      have hsound := h.withDefaultName c
      rw [hgroup] at hsound
      exact hsound
  | appearance | theme | startPage | enterToConvert | rememberLastCategory =>
      obtain ⟨v, -, rfl⟩ := Option.map_eq_some_iff.mp hchanged
      exact ⟨h.scaling_finite, h.half_le_scaling, h.scaling_le_two, h.default_named⟩

theorem Sound.set {k text : String} (h : s.Sound) (hset : s.set k text = .ok changed) :
    changed.Sound := by
  unfold Settings.set at hset
  split at hset
  · cases hset
  · split at hset
    · cases hset
    · split at hset
      · rename_i hchanged
        cases hset
        exact h.replace? hchanged
      · cases hset

theorem Sound.remember? {c : Category} (h : s.Sound) (hchanged : s.remember? c = some changed) :
    changed.Sound := by
  unfold Settings.remember? at hchanged
  split at hchanged
  · cases hchanged
    exact h.withDefaultName c
  · cases hchanged

/-! ### Loading -/

theorem Sound.take (h : s.Sound) (members : List (String × Json)) (key : SettingKey) :
    (take members s key).Sound := by
  unfold Settings.take
  cases Json.lastMember? members key.name with
  | none => exact h
  | some value =>
      show ((s.replace? key value).getD s).Sound
      cases hchanged : s.replace? key value with
      | none => exact h
      | some changed => exact h.replace? hchanged

theorem sound_ofJson (document : Json) : (ofJson document).Sound := by
  unfold ofJson
  split
  · rename_i members
    -- Every member is taken into settings that are sound already.
    have hfold : ∀ (keys : List SettingKey) {s : Settings}, s.Sound →
        (keys.foldl (Settings.take members) s).Sound := by
      intro keys
      induction keys with
      | nil =>
          intro s hs
          exact hs
      | cons key keys ih =>
          intro s hs
          exact ih (hs.take members key)
    exact hfold SettingKey.all sound_initial
  · exact sound_initial

theorem sound_ofContent (content : Option ByteArray) : (ofContent content).Sound := by
  unfold ofContent
  split
  · split
    · unfold ofText
      split
      · exact sound_ofJson _
      · exact sound_initial
    · exact sound_initial
  · exact sound_initial

/-! ### Sequences of changes -/

/-- One of the ways in which settings come about from others. -/
inductive Change where
  /-- A setting is set to what a text stands for, if it stands for anything fit. -/
  | set (key text : String)
  /-- The settings that a document holds are taken instead. -/
  | document (value : Json)
  /-- The settings are loaded from a file, which may be absent or hold anything. -/
  | load (content : Option ByteArray)
  | reset
  /-- A category is remembered. -/
  | remember (c : Category)

/-- The settings after a change; one that fails changes nothing. -/
def Change.apply (s : Settings) : Change → Settings
  | set key text =>
    match s.set key text with
    | .ok changed => changed
    | .error _ => s
  | document value => ofJson value
  | load content => ofContent content
  | reset => initial
  | remember c => (s.remember? c).getD s

/-- The settings of a user after a sequence of changes. -/
def after (changes : List Change) : Settings := changes.foldl Change.apply initial

theorem Sound.apply (h : s.Sound) (change : Change) : (change.apply s).Sound := by
  cases change with
  | set key text =>
      rw [Change.apply]
      cases hset : s.set key text with
      | ok changed => exact h.set hset
      | error e => exact h
  | document value => exact sound_ofJson value
  | load content => exact sound_ofContent content
  | reset => exact sound_initial
  | remember c =>
      rw [Change.apply]
      cases hchanged : s.remember? c with
      | none => exact h
      | some changed => exact h.remember? hchanged

theorem sound_after (changes : List Change) : (after changes).Sound := by
  unfold after
  induction changes using List.reverseRecOn with
  | nil => exact sound_initial
  | append_singleton changes change ih =>
      rw [List.foldl_append]
      exact ih.apply change

/--
**Settings stay sound.**  After any sequence of changes, failing ones among them, the scaling is a
number from a half to two, each default category is stored by the display name of a category of
its group, and that category is the one in use, so that the built-in default is never fallen back
on.
-/
theorem settings_stay_sound (changes : List Change) :
    let s := after changes
    (s.scaling.isFinite = true ∧ 1 / 2 ≤ s.scaling.number ∧ s.scaling.number ≤ 2) ∧
    (∃ c : Category, c.group = .main ∧ s.defaultCategoryMain = c.name) ∧
    (∃ c : Category, c.group = .misc ∧ s.defaultCategoryMisc = c.name) ∧
    ∀ group, Category.ofName? (s.defaultName group) = some (s.defaultCategory group) ∧
      (s.defaultCategory group).group = group := by
  intro s
  have h : s.Sound := sound_after changes
  exact ⟨⟨h.scaling_finite, h.half_le_scaling, h.scaling_le_two⟩, h.default_named .main,
    h.default_named .misc, h.ofName?_defaultName⟩

end Settings

end Reckoner
