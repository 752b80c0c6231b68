/-
What is kept of settings in a file.

Saving replaces the file as a whole or not at all, so a reader finds the old content or the new
one whenever it looks.  What was written is read back value by value: each setting is stored in
a form that its own check takes, under a name of its own, and so nothing is left as for a new user
by mistake.  That holds for all settings that can come about; the one thing relied upon is that
the scaling is read from its text as the number that was printed.
-/
import Reckoner.Proofs.Json.Reading
import Reckoner.Proofs.Settings.Disk
import Reckoner.Proofs.Settings.Sound

namespace Reckoner

/-! ### Single values -/

namespace Settings

/-- The settings with one of them as in others. -/
def copy (t s : Settings) : SettingKey → Settings
  | .appearance => { t with appearance := s.appearance }
  | .scaling => { t with scaling := s.scaling }
  | .theme => { t with theme := s.theme }
  | .startPage => { t with startPage := s.startPage }
  | .enterToConvert => { t with enterToConvert := s.enterToConvert }
  | .rememberLastCategory => { t with rememberLastCategory := s.rememberLastCategory }
  | .defaultCategoryMain => { t with defaultCategoryMain := s.defaultCategoryMain }
  | .defaultCategoryMisc => { t with defaultCategoryMisc := s.defaultCategoryMisc }

/-- Settings that are copied one by one are copied as a whole. -/
theorem foldl_copy (t s : Settings) : SettingKey.all.foldl (fun t => t.copy s) t = s := by
  simp only [SettingKey.all, List.foldl_cons, List.foldl_nil, copy]

/-- Where no two names are the same, each finds what it names. -/
theorem find?_name {α : Type} {all : List α} {name : α → String} (hnames : (all.map name).Nodup)
    {a : α} (ha : a ∈ all) : all.find? (name · == name a) = some a := by
  induction all with
  | nil => cases ha
  | cons b all ih =>
      rw [List.map_cons, List.nodup_cons] at hnames
      obtain ⟨hb, hnames⟩ := hnames
      rcases List.mem_cons.mp ha with rfl | ha
      · rw [List.find?_cons_of_pos (by simp)]
      · have hne : name b ≠ name a := by
          intro h
          exact hb (h ▸ List.mem_map_of_mem ha)
        rw [List.find?_cons_of_neg (by simpa using hne)]
        exact ih hnames ha

theorem choice?_name {α : Type} {all : List α} {name : α → String} (hnames : (all.map name).Nodup)
    {a : α} (ha : a ∈ all) : choice? all name (.text (name a)) = some a :=
  find?_name hnames ha

variable {s : Settings}

theorem Sound.scaling?_value (hs : s.Sound) : scaling? (s.value .scaling) = some s.scaling :=
  scaling?_eq_some.mpr
    ⟨rfl, inRange_iff.mpr ⟨hs.scaling_finite, hs.half_le_scaling, hs.scaling_le_two⟩⟩

theorem Sound.categoryName?_defaultName (hs : s.Sound) (group : CategoryGroup) :
    categoryName? group (.text (s.defaultName group)) = some (s.defaultName group) := by
  obtain ⟨c, rfl, hname⟩ := hs.default_named group
  rw [hname, categoryName?, Category.ofName?_name]
  simp

/-- The stored form of a setting passes its check, whatever the settings into which it is taken. -/
theorem Sound.replace?_value (hs : s.Sound) (t : Settings) (key : SettingKey) :
    t.replace? key (s.value key) = some (t.copy s key) := by
  cases key with
  | appearance =>
      rw [Settings.replace?, value, choice?_name (by decide) (by cases s.appearance <;> decide)]
      rfl
  | scaling =>
      rw [Settings.replace?, hs.scaling?_value]
      rfl
  | theme =>
      rw [Settings.replace?, value, choice?_name (by decide) (by cases s.theme <;> decide)]
      rfl
  | startPage =>
      rw [Settings.replace?, value, choice?_name (by decide) (by cases s.startPage <;> decide)]
      rfl
  | enterToConvert | rememberLastCategory => rfl
  | defaultCategoryMain =>
      have hname := hs.categoryName?_defaultName .main
      rw [defaultName] at hname
      rw [Settings.replace?, value, hname]
      rfl
  | defaultCategoryMisc =>
      have hname := hs.categoryName?_defaultName .misc
      rw [defaultName] at hname
      rw [Settings.replace?, value, hname]
      rfl

/-! ### The stored object -/

/-- No two settings are stored under one name. -/
theorem find?_reverse_all (key : SettingKey) :
    SettingKey.all.reverse.find? (·.name == key.name) = some key :=
  find?_name (by decide) (by cases key <;> decide)

theorem lastMember?_members (s : Settings) (key : SettingKey) :
    Json.lastMember? s.members key.name = some (s.value key) := by
  rw [Json.lastMember?, members, ← List.map_reverse, List.find?_map]
  show Option.map _ (Option.map _ (SettingKey.all.reverse.find? (·.name == key.name))) = _
  rw [find?_reverse_all]
  rfl

theorem Sound.take_members (hs : s.Sound) (t : Settings) (key : SettingKey) :
    Settings.take s.members t key = t.copy s key := by
  rw [Settings.take, lastMember?_members]
  show (t.replace? key (s.value key)).getD t = _
  rw [hs.replace?_value]
  rfl

/-- Settings are restored from the object in which they are stored. -/
theorem Sound.ofJson_members (hs : s.Sound) : ofJson (.object s.members) = s := by
  have hcopy : Settings.take s.members = fun t => t.copy s := by
    funext t key
    exact hs.take_members t key
  rw [ofJson, hcopy, foldl_copy]

/-- The stored text is read as the stored object. -/
theorem read?_print (s : Settings) (hscaling : Json.ReadsBack (.float s.scaling)) :
    Json.read? s.print = some (.object s.members) := by
  refine Json.read?_printLines (List.cons_ne_nil _ _) ?_
  intro m hm steps depth
  obtain ⟨key, -, rfl⟩ := List.mem_map.mp hm
  cases key with
  | scaling => exact Json.finds_number steps depth hscaling
  | enterToConvert | rememberLastCategory => exact Json.finds_bool steps depth _
  | appearance | theme | startPage | defaultCategoryMain | defaultCategoryMisc =>
      exact Json.finds_text steps depth _

theorem ofText_print (hs : s.Sound) (hscaling : Json.ReadsBack (.float s.scaling)) :
    ofText s.print = s := by
  rw [ofText, read?_print s hscaling]
  exact hs.ofJson_members

/-- The content of the file is the stored text. -/
theorem fromUTF8?_content (s : Settings) : String.fromUTF8? s.content = some s.print := by
  rw [content, String.fromUTF8?, String.toUTF8_eq_toByteArray, dif_pos s.print.isValidUTF8]
  rfl

end Settings

namespace Disk

variable {s : Settings} {d : Disk} {p : FilePath} {faults : Faults}

/-! ### Saving -/

theorem text?_of_find?_content (h : d.find? p = some (.file s.content)) :
    d.text? p = some s.print := by
  rw [text?, content?_eq_some.mpr h, Option.bind_some, s.fromUTF8?_content]

/--
**Saving is atomic.**  Whatever is on the disk and whichever steps fail, each state on the way has
the old content of the file or the whole new one.  In the end a successful run leaves the new
content, which is the printed settings, and no temporary file; a failed one leaves the old
content, and no temporary file either if it was created and can be removed.  What else was on the
disk stays there.  The printed settings are JSON, an object with a line for each setting, if the
scaling is read from its text as the number that was printed.
-/
theorem saveSettings_atomic (faults : Faults) (p : FilePath) (s : Settings) (d : Disk) :
    let run := d.saveSettings faults p s
    let prepared := createDirectories faults p.dropLast d
    (∀ state ∈ run.states,
      state.find? p = d.find? p ∨ state.find? p = some (.file s.content)) ∧
    (run.ok = true →
      run.last.find? p = some (.file s.content) ∧ run.last.text? p = some s.print ∧
      run.last.find? (temporary p) = none) ∧
    (run.ok = false →
      run.last.find? p = d.find? p ∧
      (prepared.2 = true → (create faults (temporary p) prepared.1).2 = true →
        faults.remove = false → run.last.find? (temporary p) = none)) ∧
    (∀ q found, q ≠ p → q ≠ temporary p → d.find? q = some found →
      ∀ state ∈ run.states, state.find? q = some found) ∧
    s.print = Json.printLines s.members ∧
    (Json.ReadsBack (.float s.scaling) → Json.read? s.print = some (.object s.members)) := by
  refine ⟨?_, ?_, ?_, ?_, rfl, s.read?_print⟩
  · intro state hstate
    rcases spares_or_replaced hstate with h | h
    · exact .inl h.target
    · exact .inr h.target
  · intro hok
    have hreplaced := replaced_of_ok hok
    exact ⟨hreplaced.target, text?_of_find?_content hreplaced.target, hreplaced.temporary⟩
  · intro hfail
    exact ⟨(spares_of_fail hfail).target, find?_temporary_of_fail hfail⟩
  · intro q found hq htemporary hfound state hstate
    rcases spares_or_replaced hstate with h | h
    · exact h.others q found htemporary hfound
    · exact h.others q found hq htemporary hfound

/-! ### Loading what was saved -/

/--
**Settings that were saved are loaded again.**  This holds for all settings that can come about,
whatever the file held before, if the scaling is read from its text as the number that was printed.
-/
theorem loadSettings_saveSettings (faults : Faults) (p : FilePath) (s : Settings) (d : Disk)
    (hs : s.Sound) (hscaling : Json.ReadsBack (.float s.scaling))
    (hok : (d.saveSettings faults p s).ok = true) :
    let saved := (d.saveSettings faults p s).last
    saved.text? p = some s.print ∧
    (∃ document, Json.read? s.print = some document ∧ Settings.ofJson document = s) ∧
    saved.loadSettings p = s := by
  intro saved
  have hfound : saved.find? p = some (.file s.content) := (replaced_of_ok hok).target
  refine ⟨text?_of_find?_content hfound, ?_, ?_⟩
  · exact ⟨.object s.members, s.read?_print hscaling, hs.ofJson_members⟩
  · rw [loadSettings, content?_eq_some.mpr hfound, Settings.ofContent, s.fromUTF8?_content]
    exact Settings.ofText_print hs hscaling

/-- The same for the dark look at a scaling of `1.1`, saved where there was no file yet. -/
theorem loadSettings_saveSettings_dark :
    let s : Settings := { Settings.initial with appearance := .dark, scaling := 1.1 }
    let run := Disk.saveSettings .none ["unit-calc", "settings.json"] s ⟨[]⟩
    s.Sound ∧ Json.ReadsBack (.float s.scaling) ∧ run.ok = true ∧
      run.last.loadSettings ["unit-calc", "settings.json"] = s := by
  intro s run
  have hrange : (0.5 : Double) ≤ 1.1 ∧ (1.1 : Double) ≤ 2.0 := by
    decide +kernel
  obtain ⟨hfinite, hlo, hhi⟩ := Settings.inRange_iff.mp hrange
  have hs : s.Sound := ⟨hfinite, hlo, hhi, Settings.sound_initial.default_named⟩
  have hscaling : Json.ReadsBack (.float s.scaling) := by
    unfold Json.ReadsBack
    decide +kernel
  have hok : run.ok = true := by
    decide +kernel
  exact ⟨hs, hscaling, hok, (loadSettings_saveSettings _ _ _ _ hs hscaling hok).2.2⟩

-- The reader rounds twice where there are more digits than fit, so it may be off by the last bit.
example : ¬ Json.ReadsBack (.float 1.0000007366098407) := by
  unfold Json.ReadsBack
  decide +kernel

end Disk

end Reckoner
