/-
The settings one by one.

A setting has a type of its own, and settings are known by the values of all eight.  Which values
of a document are fit for a setting, and what they stand for, is said here without the readers of
single values.  Taking a value puts what it stands for into its place and touches nothing else.
-/
import Reckoner.Proofs.Settings.Store

namespace Reckoner

namespace SettingKey

/-- What a setting can be. -/
abbrev Value : SettingKey → Type
  | .appearance => Appearance
  | .scaling => Double
  | .theme => Theme
  | .startPage => StartPage
  | .enterToConvert | .rememberLastCategory => Bool
  | .defaultCategoryMain | .defaultCategoryMisc => String

/-- Every setting is found by its name. -/
theorem ofName?_name (k : SettingKey) : ofName? k.name = some k :=
  Settings.find?_name (by decide) (by cases k <;> decide)

theorem name_of_ofName? {name : String} {k : SettingKey} (h : ofName? name = some k) :
    k.name = name := by
  simpa using List.find?_some h

theorem name_injective {k k' : SettingKey} (h : k.name = k'.name) : k = k' :=
  Option.some.inj ((ofName?_name k).symm.trans (h ▸ ofName?_name k'))

end SettingKey

namespace Settings

/-- The setting of a key. -/
def get (s : Settings) : (k : SettingKey) → k.Value
  | .appearance => s.appearance
  | .scaling => s.scaling
  | .theme => s.theme
  | .startPage => s.startPage
  | .enterToConvert => s.enterToConvert
  | .rememberLastCategory => s.rememberLastCategory
  | .defaultCategoryMain => s.defaultCategoryMain
  | .defaultCategoryMisc => s.defaultCategoryMisc

/-- The settings with another value for a key. -/
def put (s : Settings) : (k : SettingKey) → k.Value → Settings
  | .appearance, v => { s with appearance := v }
  | .scaling, v => { s with scaling := v }
  | .theme, v => { s with theme := v }
  | .startPage, v => { s with startPage := v }
  | .enterToConvert, v => { s with enterToConvert := v }
  | .rememberLastCategory, v => { s with rememberLastCategory := v }
  | .defaultCategoryMain, v => { s with defaultCategoryMain := v }
  | .defaultCategoryMisc, v => { s with defaultCategoryMisc := v }

/-! ### Getting and putting -/

section Access

variable {s t : Settings} {k k' : SettingKey}

@[simp]
theorem get_put_self (s : Settings) (k : SettingKey) (v : k.Value) : (s.put k v).get k = v := by
  cases k <;> rfl

@[simp]
theorem get_put_of_ne (h : k' ≠ k) (s : Settings) (v : k.Value) :
    (s.put k v).get k' = s.get k' := by
  cases k <;> cases k' <;> first | rfl | exact absurd rfl h

@[simp]
theorem put_put (s : Settings) (k : SettingKey) (v w : k.Value) :
    (s.put k v).put k w = s.put k w := by
  cases k <;> rfl

/-- Values for different keys can be put in either order. -/
theorem put_comm (h : k ≠ k') (s : Settings) (v : k.Value) (w : k'.Value) :
    (s.put k v).put k' w = (s.put k' w).put k v := by
  cases k <;> cases k' <;> first | rfl | exact absurd rfl h

/-- Settings are the same if each of them is. -/
theorem eq_of_get (h : ∀ k, s.get k = t.get k) : s = t := by
  obtain ⟨a, b, c, d, e, f, g, i⟩ := s
  obtain ⟨a', b', c', d', e', f', g', i'⟩ := t
  have ha : a = a' := h .appearance
  have hb : b = b' := h .scaling
  have hc : c = c' := h .theme
  have hd : d = d' := h .startPage
  have he : e = e' := h .enterToConvert
  have hf : f = f' := h .rememberLastCategory
  have hg : g = g' := h .defaultCategoryMain
  have hi : i = i' := h .defaultCategoryMisc
  rw [ha, hb, hc, hd, he, hf, hg, hi]

end Access

/-! ### Fit values -/

/-- A value names a choice: as a text, or as an object in which the name, however often it stands
there, is the only one and has null as its last value. -/
inductive NamesChoice (name : String) : Json → Prop
  | text : NamesChoice name (.text name)
  | object {before : List (String × Json)} (hsole : ∀ m ∈ before, m.1 = name) :
      NamesChoice name (.object (before ++ [(name, .null)]))

/-- A value names a category of a group by a text, and with it the category's display name. -/
def NamesCategory (group : CategoryGroup) (value : Json) (name : String) : Prop :=
  ∃ text c, value = .text text ∧ Category.ofName? text = some c ∧ c.group = group ∧ name = c.name

/-- A value is fit for a setting, and the setting that it stands for. -/
def Fits (value : Json) : (k : SettingKey) → k.Value → Prop
  | .appearance, v => NamesChoice v.name value
  | .scaling, v => statedNumber? value = some v ∧
      v.isFinite = true ∧ 1 / 2 ≤ v.number ∧ v.number ≤ 2
  | .theme, v => NamesChoice v.name value
  | .startPage, v => NamesChoice v.name value
  | .enterToConvert, v | .rememberLastCategory, v => value = .bool v
  | .defaultCategoryMain, v => NamesCategory .main value v
  | .defaultCategoryMisc, v => NamesCategory .misc value v

section Reading

variable {value : Json} {name : String}

theorem soleMember?_eq_some {members : List (String × Json)} {m : String × Json} :
    soleMember? members = some m ↔
      ∃ before, members = before ++ [m] ∧ ∀ m' ∈ before, m'.1 = m.1 := by
  unfold soleMember?
  constructor
  · intro h
    split at h
    · rename_i last hlast
      split at h
      · rename_i hall
        cases h
        obtain ⟨before, rfl⟩ := List.getLast?_eq_some_iff.mp hlast
        refine ⟨before, rfl, ?_⟩
        intro m' hm'
        simpa using List.all_eq_true.mp hall m' (List.mem_append_left _ hm')
      · cases h
    · cases h
  · rintro ⟨before, rfl, hsole⟩
    rw [List.getLast?_concat]
    have hall : (before ++ [m]).all (·.1 == m.1) = true := by
      simpa using fun a b h => hsole (a, b) h
    simp [hall]

theorem choiceName?_eq_some : choiceName? value = some name ↔ NamesChoice name value := by
  constructor
  · intro h
    unfold choiceName? at h
    split at h
    · cases h
      exact .text
    · split at h
      · rename_i hsole
        cases h
        obtain ⟨before, rfl, hbefore⟩ := soleMember?_eq_some.mp hsole
        exact .object hbefore
      · cases h
    · cases h
  · rintro (_ | ⟨hsole⟩)
    · rfl
    · rw [choiceName?, soleMember?_eq_some.mpr ⟨_, rfl, hsole⟩]

/-- A choice is taken if its name is the one that a value names. -/
theorem choice?_eq_some {α : Type} {all : List α} {label : α → String}
    (hnames : (all.map label).Nodup) (hall : ∀ a, a ∈ all) {a : α} :
    choice? all label value = some a ↔ NamesChoice (label a) value := by
  rw [choice?, Option.bind_eq_bind, Option.bind_eq_some_iff]
  constructor
  · rintro ⟨chosen, hchosen, hfind⟩
    have hlabel : label a = chosen := by simpa using List.find?_some hfind
    rw [hlabel]
    exact choiceName?_eq_some.mp hchosen
  · intro h
    exact ⟨label a, choiceName?_eq_some.mpr h, find?_name hnames (hall a)⟩

theorem flag?_eq_some {b : Bool} : flag? value = some b ↔ value = .bool b := by
  cases value <;> simp [flag?]

theorem categoryName?_eq_some {group : CategoryGroup} :
    categoryName? group value = some name ↔ NamesCategory group value name := by
  unfold NamesCategory
  cases value with
  | text text =>
      simp only [categoryName?, Option.map_eq_some_iff, Option.filter_eq_some_iff, beq_iff_eq]
      constructor
      · rintro ⟨c, ⟨hc, hgroup⟩, rfl⟩
        exact ⟨text, c, rfl, hc, hgroup, rfl⟩
      · rintro ⟨text', c, htext, hc, hgroup, rfl⟩
        cases htext
        exact ⟨c, ⟨hc, hgroup⟩, rfl⟩
  | null | bool b | number n | array xs | object ms => simp [categoryName?]

end Reading

/-! ### Taking a value -/

/-- What a value stands for as a setting, if it is fit. -/
def accepted? (value : Json) : (k : SettingKey) → Option k.Value
  | .appearance => choice? Appearance.all Appearance.name value
  | .scaling => scaling? value
  | .theme => choice? Theme.all Theme.name value
  | .startPage => choice? StartPage.all StartPage.name value
  | .enterToConvert | .rememberLastCategory => flag? value
  | .defaultCategoryMain => categoryName? .main value
  | .defaultCategoryMisc => categoryName? .misc value

section Taking

variable {s changed : Settings} {k : SettingKey} {value : Json}

theorem accepted?_eq_some {v : k.Value} : accepted? value k = some v ↔ Fits value k v := by
  cases k with
  | appearance => exact choice?_eq_some (by decide) (fun a => by cases a <;> decide)
  | scaling => exact scaling?_eq_some.trans (and_congr_right fun _ => inRange_iff)
  | theme => exact choice?_eq_some (by decide) (fun a => by cases a <;> decide)
  | startPage => exact choice?_eq_some (by decide) (fun a => by cases a <;> decide)
  | enterToConvert | rememberLastCategory => exact flag?_eq_some
  | defaultCategoryMain | defaultCategoryMisc => exact categoryName?_eq_some

theorem accepted?_eq_none : accepted? value k = none ↔ ∀ v, ¬ Fits value k v := by
  simp only [Option.eq_none_iff_forall_ne_some, ne_eq, accepted?_eq_some]

/-- A value stands for one setting at most. -/
theorem Fits.unique {v w : k.Value} (h : Fits value k v) (h' : Fits value k w) : v = w :=
  Option.some.inj ((accepted?_eq_some.mpr h).symm.trans (accepted?_eq_some.mpr h'))

/-- A value that is taken replaces one setting by what it stands for. -/
theorem replace?_eq (s : Settings) (k : SettingKey) (value : Json) :
    s.replace? k value = (accepted? value k).map (s.put k) := by
  cases k <;> rfl

theorem replace?_eq_some :
    s.replace? k value = some changed ↔ ∃ v, Fits value k v ∧ s.put k v = changed := by
  simp only [replace?_eq, Option.map_eq_some_iff, accepted?_eq_some]

theorem replace?_eq_none : s.replace? k value = none ↔ ∀ v, ¬ Fits value k v := by
  rw [replace?_eq, Option.map_eq_none_iff, accepted?_eq_none]

end Taking

end Settings

end Reckoner
