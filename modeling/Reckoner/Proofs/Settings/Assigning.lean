/-
Setting one of the settings by a text.

The key and the text decide whether there is anything to set and what it is; the settings have no
say in it.  So it fails for all settings or for none, and then they are as they were, and where it
succeeds it puts a value into its place and leaves the others alone.  That makes it harmless to set
the same again, and lets different keys be set in any order.
-/
import Reckoner.Proofs.Settings.Field
import Reckoner.Proofs.Text.Blank

namespace Reckoner

/-- Blanks around the name of a category do not matter. -/
theorem Category.ofName?_trim (text : String) : ofName? (Text.trim text) = ofName? text := by
  have hnamed : isNamed (Text.trim text) = isNamed text := by
    funext c
    rw [isNamed, isNamed, Text.trim_trim]
  rw [ofName?, ofName?, hnamed]

namespace Settings

/-! ### What a text stands for -/

/-- A text stands for a setting.  Names of choices and truth values are written exactly so, and
categories in any letter case; blanks at the ends do not count. -/
def Stands (text : String) : (k : SettingKey) → k.Value → Prop
  | .appearance, v => v.name = Text.trim text
  | .scaling, v => Double.ofText? (Text.trimChars text.toList) = some v ∧
      v.isFinite = true ∧ 1 / 2 ≤ v.number ∧ v.number ≤ 2
  | .theme, v => v.name = Text.trim text
  | .startPage, v => v.name = Text.trim text
  | .enterToConvert, v | .rememberLastCategory, v => Text.trim text = if v then "true" else "false"
  | .defaultCategoryMain, v => ∃ c, Category.ofName? text = some c ∧ c.group = .main ∧ v = c.name
  | .defaultCategoryMisc, v => ∃ c, Category.ofName? text = some c ∧ c.group = .misc ∧ v = c.name

variable {s changed : Settings} {k : SettingKey} {key text name : String}

theorem namesChoice_text : NamesChoice name (.text text) ↔ name = text := by
  constructor
  · rintro ⟨⟩
    rfl
  · rintro rfl
    exact .text

theorem flagOfText?_eq_some {b : Bool} :
    flagOfText? text = some b ↔ Text.trim text = if b then "true" else "false" := by
  unfold flagOfText?
  dsimp only
  by_cases htrue : Text.trim text = "true"
  · rw [if_pos htrue, htrue]
    cases b <;> simp
  · rw [if_neg htrue]
    by_cases hfalse : Text.trim text = "false"
    · rw [if_pos hfalse, hfalse]
      cases b <;> simp
    · rw [if_neg hfalse]
      cases b <;> simp [htrue, hfalse]

theorem namesCategory_trim {group : CategoryGroup} :
    NamesCategory group (.text (Text.trim text)) name ↔
      ∃ c, Category.ofName? text = some c ∧ c.group = group ∧ name = c.name := by
  constructor
  · rintro ⟨text', c, htext, hc, hgroup, rfl⟩
    cases htext
    exact ⟨c, Category.ofName?_trim text ▸ hc, hgroup, rfl⟩
  · rintro ⟨c, hc, hgroup, rfl⟩
    exact ⟨_, c, rfl, (Category.ofName?_trim text).trans hc, hgroup, rfl⟩

/-- A number that is not finite is made to a value that states none. -/
theorem statedNumber?_of_text {v w : Double} :
    statedNumber? (if w.isFinite then .number (.float w) else .null) = some v ↔
      w.isFinite = true ∧ w = v := by
  cases hfinite : w.isFinite with
  | true =>
      rw [if_pos rfl]
      simp [statedNumber?, JsonNumber.toDouble]
  | false =>
      rw [if_neg Bool.false_ne_true]
      simp [statedNumber?]

/-- A text stands for what the value that is made of it is fit for. -/
theorem stands_iff {v : k.Value} :
    Stands text k v ↔ ∃ value, valueOfText? k text = some value ∧ Fits value k v := by
  cases k with
  | appearance | theme | startPage =>
      simp only [valueOfText?, Option.some.injEq, exists_eq_left', Fits, namesChoice_text, Stands]
  | scaling =>
      simp only [valueOfText?, Option.map_eq_some_iff, Fits, Stands]
      constructor
      · rintro ⟨hv, hfinite, hrange⟩
        exact ⟨_, ⟨v, hv, rfl⟩, statedNumber?_of_text.mpr ⟨hfinite, rfl⟩, hfinite, hrange⟩
      · rintro ⟨-, ⟨w, hw, rfl⟩, hstated, hfinite, hrange⟩
        obtain ⟨-, rfl⟩ := statedNumber?_of_text.mp hstated
        exact ⟨hw, hfinite, hrange⟩
  | enterToConvert | rememberLastCategory =>
      simp only [valueOfText?, Option.map_eq_some_iff, flagOfText?_eq_some, Fits, Stands]
      constructor
      · intro h
        exact ⟨_, ⟨v, h, rfl⟩, rfl⟩
      · rintro ⟨-, ⟨b, hb, rfl⟩, hv⟩
        cases hv
        exact hb
  | defaultCategoryMain | defaultCategoryMisc =>
      simp only [valueOfText?, Option.some.injEq, exists_eq_left', Fits, namesCategory_trim, Stands]

/-- How a text that stands for nothing fit is shown: as the value that was made of it, or as it is
if there is none. -/
def refusedText (k : SettingKey) (text : String) : String :=
  ((valueOfText? k text).map Json.print).getD text

/-! ### How setting ends -/

/-- To set a key to a text ends in one of three ways. -/
inductive Outcome (s : Settings) (key text : String) : Except SettingsError Settings → Prop
  | unknown (hkey : ∀ k : SettingKey, k.name ≠ key) :
      Outcome s key text (.error (.unknownKey key))
  | refused {k : SettingKey} (hkey : k.name = key) (hstands : ∀ v, ¬ Stands text k v) :
      Outcome s key text (.error (.invalidValue key (refusedText k text)))
  | put {k : SettingKey} {v : k.Value} (hkey : k.name = key) (hstands : Stands text k v) :
      Outcome s key text (.ok (s.put k v))

theorem set_of_unknown (h : ∀ k : SettingKey, k.name ≠ key) (s : Settings) (text : String) :
    s.set key text = .error (.unknownKey key) := by
  have hnone : SettingKey.ofName? key = none := by
    rw [SettingKey.ofName?, List.find?_eq_none]
    intro k _
    simpa using h k
  rw [Settings.set, hnone]

/-- What a text stands for is put into its place. -/
theorem set_of_stands {v : k.Value} (h : Stands text k v) (s : Settings) :
    s.set k.name text = .ok (s.put k v) := by
  obtain ⟨value, hvalue, hfits⟩ := stands_iff.mp h
  have hchanged : s.replace? k value = some (s.put k v) := replace?_eq_some.mpr ⟨v, hfits, rfl⟩
  rw [Settings.set, SettingKey.ofName?_name]
  simp only [hvalue, hchanged]

theorem set_of_not_stands (h : ∀ v, ¬ Stands text k v) (s : Settings) :
    s.set k.name text = .error (.invalidValue k.name (refusedText k text)) := by
  rw [Settings.set, SettingKey.ofName?_name, refusedText]
  dsimp only
  cases hvalue : valueOfText? k text with
  | none => rfl
  | some value =>
      have hrefused : s.replace? k value = none :=
        replace?_eq_none.mpr fun v hfits => h v (stands_iff.mpr ⟨value, hvalue, hfits⟩)
      simp only [hrefused, Option.map_some, Option.getD_some]

theorem outcome_set (s : Settings) (key text : String) : Outcome s key text (s.set key text) := by
  by_cases hkey : ∃ k : SettingKey, k.name = key
  · obtain ⟨k, rfl⟩ := hkey
    by_cases hstands : ∃ v, Stands text k v
    · obtain ⟨v, hv⟩ := hstands
      rw [set_of_stands hv]
      exact .put rfl hv
    · rw [set_of_not_stands (not_exists.mp hstands)]
      exact .refused rfl (not_exists.mp hstands)
  · rw [set_of_unknown (not_exists.mp hkey)]
    exact .unknown (not_exists.mp hkey)

/-- It succeeds if the key is that of a setting and the text stands for one. -/
theorem set_eq_ok :
    s.set key text = .ok changed ↔
      ∃ (k : SettingKey) (v : k.Value), k.name = key ∧ Stands text k v ∧ s.put k v = changed := by
  constructor
  · intro h
    have houtcome := outcome_set s key text
    rw [h] at houtcome
    cases houtcome with
    | put hkey hstands => exact ⟨_, _, hkey, hstands, rfl⟩
  · rintro ⟨k, v, rfl, hv, rfl⟩
    exact set_of_stands hv s

/-- It fails for an unknown key, or for a text that stands for nothing fit. -/
theorem set_eq_error {e : SettingsError} :
    s.set key text = .error e ↔
      (∀ k : SettingKey, k.name ≠ key) ∧ e = .unknownKey key ∨
      ∃ k : SettingKey, k.name = key ∧ (∀ v, ¬ Stands text k v) ∧
        e = .invalidValue key (refusedText k text) := by
  constructor
  · intro h
    have houtcome := outcome_set s key text
    rw [h] at houtcome
    cases houtcome with
    | unknown hkey => exact .inl ⟨hkey, rfl⟩
    | refused hkey hstands => exact .inr ⟨_, hkey, hstands, rfl⟩
  · rintro (⟨hkey, rfl⟩ | ⟨k, rfl, hstands, rfl⟩)
    · exact set_of_unknown hkey s text
    · exact set_of_not_stands hstands s

/-! ### Setting twice -/

/-- Two keys are set in either order. -/
theorem set_comm {key' text' : String} {changed' : Settings} (hne : key' ≠ key)
    (h : s.set key text = .ok changed) (h' : s.set key' text' = .ok changed') :
    ∃ both, changed.set key' text' = .ok both ∧ changed'.set key text = .ok both := by
  obtain ⟨k, v, rfl, hv, rfl⟩ := set_eq_ok.mp h
  obtain ⟨k', v', rfl, hv', rfl⟩ := set_eq_ok.mp h'
  have hk : k ≠ k' := fun heq => hne (congrArg SettingKey.name heq.symm)
  refine ⟨(s.put k v).put k' v', set_of_stands hv' _, ?_⟩
  rw [put_comm hk]
  exact set_of_stands hv _

/-- A second time nothing changes. -/
theorem set_again (h : s.set key text = .ok changed) : changed.set key text = .ok changed := by
  obtain ⟨k, v, rfl, hv, rfl⟩ := set_eq_ok.mp h
  rw [set_of_stands hv, put_put]

/-- What setting does is settled by the key and the text: nothing, or putting one value into its
place. -/
theorem apply_set_cases (key text : String) :
    (∀ s : Settings, (Change.set key text).apply s = s) ∨
    ∃ (k : SettingKey) (v : k.Value), k.name = key ∧
      ∀ s : Settings, (Change.set key text).apply s = s.put k v := by
  by_cases h : ∃ (k : SettingKey) (v : k.Value), k.name = key ∧ Stands text k v
  · obtain ⟨k, v, rfl, hv⟩ := h
    refine .inr ⟨k, v, rfl, fun s => ?_⟩
    simp only [Change.apply, set_of_stands hv]
  · refine .inl fun s => ?_
    cases hset : s.set key text with
    | error e => simp only [Change.apply, hset]
    | ok changed =>
        obtain ⟨k, v, hkey, hv, -⟩ := set_eq_ok.mp hset
        exact absurd ⟨k, v, hkey, hv⟩ h

/-- Of different keys it does not matter which comes first, whether or not they can be set. -/
theorem apply_set_comm {key' text' : String} (hne : key' ≠ key) (s : Settings) :
    (Change.set key' text').apply ((Change.set key text).apply s) =
      (Change.set key text).apply ((Change.set key' text').apply s) := by
  rcases apply_set_cases key text with h | ⟨k, v, rfl, h⟩
  · rw [h, h]
  · rcases apply_set_cases key' text' with h' | ⟨k', v', rfl, h'⟩
    · rw [h', h']
    · have hk : k ≠ k' := fun heq => hne (congrArg SettingKey.name heq.symm)
      rw [h, h', h', h, put_comm hk]

/-- Keys are set one after the other; those that fail are passed over. -/
def setAll (texts : List (String × String)) (s : Settings) : Settings :=
  texts.foldl (fun s m => (Change.set m.1 m.2).apply s) s

/-- A run over different keys leaves the same settings in whatever order they come. -/
theorem setAll_perm {texts texts' : List (String × String)} (hperm : texts.Perm texts')
    (hnodup : (texts.map Prod.fst).Nodup) (s : Settings) : setAll texts s = setAll texts' s := by
  refine hperm.foldl_eq' ?_ s
  intro m hm m' hm' s
  by_cases hkey : m.1 = m'.1
  · -- A key occurs once, so this is one entry twice.
    obtain rfl : m = m' := List.inj_on_of_nodup_map hnodup hm hm' hkey
    rfl
  · exact apply_set_comm (Ne.symm hkey) s

/--
**Setting is all or nothing.**  It succeeds for settings of any kind or for none: if the key is the
name of one of them and the text stands for a value of it.  Where it fails the settings stay as
they are; the key is unknown exactly if no setting has that name, and otherwise the value is
reported as invalid.  Where it succeeds only the setting of that name may differ, and it is what the
text stands for, whatever it and the others were before; to set the same again changes nothing, and
different keys can be set in either order.
-/
theorem set_all_or_nothing (s : Settings) (key text : String) :
    ((∃ changed, s.set key text = .ok changed) ↔
      ∃ (k : SettingKey) (v : k.Value), k.name = key ∧ Stands text k v) ∧
    (s.set key text = .error (.unknownKey key) ↔ ∀ k : SettingKey, k.name ≠ key) ∧
    (∀ e, s.set key text = .error e →
      (Change.set key text).apply s = s ∧
      (e = .unknownKey key ∨
        ∃ k : SettingKey, k.name = key ∧ e = .invalidValue key (refusedText k text))) ∧
    (∀ changed, s.set key text = .ok changed →
      (Change.set key text).apply s = changed ∧
      ∃ (k : SettingKey) (v : k.Value), k.name = key ∧ Stands text k v ∧
        changed.get k = v ∧ (∀ k', k' ≠ k → changed.get k' = s.get k') ∧
        (∀ t : Settings, ∃ changed', t.set key text = .ok changed' ∧ changed'.get k = v) ∧
        changed.set key text = .ok changed) ∧
    ∀ key' text' changed changed', key' ≠ key → s.set key text = .ok changed →
      s.set key' text' = .ok changed' →
      ∃ both, changed.set key' text' = .ok both ∧ changed'.set key text = .ok both := by
  refine ⟨?_, ?_, ?_, ?_, ?_⟩
  · constructor
    · rintro ⟨changed, h⟩
      obtain ⟨k, v, hkey, hv, -⟩ := set_eq_ok.mp h
      exact ⟨k, v, hkey, hv⟩
    · rintro ⟨k, v, hkey, hv⟩
      exact ⟨_, set_eq_ok.mpr ⟨k, v, hkey, hv, rfl⟩⟩
  · rw [set_eq_error]
    simp
  · intro e h
    refine ⟨by simp only [Change.apply, h], ?_⟩
    rcases set_eq_error.mp h with ⟨-, rfl⟩ | ⟨k, hkey, -, rfl⟩
    · exact .inl rfl
    · exact .inr ⟨k, hkey, rfl⟩
  · intro changed h
    refine ⟨by simp only [Change.apply, h], ?_⟩
    have hagain := set_again h
    obtain ⟨k, v, rfl, hv, rfl⟩ := set_eq_ok.mp h
    refine ⟨k, v, rfl, hv, get_put_self s k v, ?_, ?_, hagain⟩
    · intro k' hne
      exact get_put_of_ne hne s v
    · intro t
      exact ⟨t.put k v, set_of_stands hv t, get_put_self t k v⟩
  · intro key' text' changed changed' hne h h'
    exact set_comm hne h h'

end Settings

end Reckoner
