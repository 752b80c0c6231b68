/-
What commands keep of the settings.

A command that fails has not touched the settings file: it fails before it comes to keeping
anything, or because the file could not be replaced, and then the file is as it was.  A command
that succeeds has replaced the file if changing the settings is what it is for.  A converter
replaces it only to remember a category that is not the default of its group yet, and succeeds
even where that is not possible.  All other commands leave the file alone.
-/
import Reckoner.CommandLine.Plan
import Reckoner.Proofs.Outcome
import Reckoner.Proofs.Settings.Store

namespace Reckoner

open Outcome

/-! ### Settings that differ in one place -/

namespace Settings

variable {s changed : Settings} {k : SettingKey}

/-- The setting in which the default category of a group is kept. -/
def defaultKey : CategoryGroup → SettingKey
  | .main => .defaultCategoryMain
  | .misc => .defaultCategoryMisc

/-- Settings are as others were, but for a single one. -/
def Revises (s : Settings) (k : SettingKey) (changed : Settings) : Prop :=
  changed = s.copy changed k

theorem revises_withDefaultName (s : Settings) (group : CategoryGroup) (name : String) :
    s.Revises (defaultKey group) (s.withDefaultName group name) := by
  cases group <;> rfl

theorem defaultName_withDefaultName (s : Settings) (group : CategoryGroup) (name : String) :
    (s.withDefaultName group name).defaultName group = name := by
  cases group <;> rfl

/-- A value that is taken changes the setting for which it is meant. -/
theorem revises_of_replace? {value : Json} (h : s.replace? k value = some changed) :
    s.Revises k changed := by
  cases k with
  | appearance | scaling | theme | startPage | enterToConvert | rememberLastCategory
  | defaultCategoryMain | defaultCategoryMisc =>
      obtain ⟨v, -, rfl⟩ := Option.map_eq_some_iff.mp h
      rfl

/-- What is set is one of the settings, found by its name. -/
theorem revises_of_set {key text : String} (h : s.set key text = .ok changed) :
    ∃ k : SettingKey, k.name = key ∧ s.Revises k changed := by
  unfold Settings.set at h
  split at h
  · cases h
  · rename_i k hk
    split at h
    · cases h
    · split at h
      · rename_i hchanged
        cases h
        exact ⟨k, by simpa using List.find?_some hk, revises_of_replace? hchanged⟩
      · cases h

end Settings

/-! ### The file after a plan -/

section Plans

variable {faults : Disk.Faults} {p : FilePath} {d : Disk}

/-- Saving replaces the file, or leaves it as it was. -/
theorem Disk.find?_saveSettings (faults : Faults) (p : FilePath) (s : Settings) (d : Disk) :
    (d.saveSettings faults p s).last.find? p =
      if (d.saveSettings faults p s).ok = true then some (.file s.content) else d.find? p := by
  cases hok : (d.saveSettings faults p s).ok with
  | true =>
      rw [if_pos rfl]
      exact (replaced_of_ok hok).target
  | false =>
      rw [if_neg Bool.false_ne_true]
      exact (spares_of_fail hok).target

namespace Plan

theorem carryOut_keepThenPrint_of_ok {s : Settings} (text : String)
    (h : (d.saveSettings faults p s).ok = true) :
    carryOut faults p d (.keepThenPrint s text) =
      ⟨text, none, (d.saveSettings faults p s).last⟩ := by
  rw [Disk.Run.ok, Option.isNone_iff_eq_none] at h
  simp only [carryOut, h]

/-- If settings cannot be kept then the error tells what the system said of the action that
failed. -/
theorem carryOut_keepThenPrint_of_fail {s : Settings} (text : String)
    (h : (d.saveSettings faults p s).ok = false) :
    ∃ a, (∃ state ∈ (d.saveSettings faults p s).states,
        (a.step faults p s.content state).2 = false) ∧
      carryOut faults p d (.keepThenPrint s text) =
        ⟨"", some (.settings (.ofFailed a (faults.words a))),
          (d.saveSettings faults p s).last⟩ := by
  rw [Disk.Run.ok, Option.isNone_eq_false_iff, Option.isSome_iff_exists] at h
  obtain ⟨a, ha⟩ := h
  exact ⟨a, Disk.exists_of_failed ha, by simp only [carryOut, ha]⟩

/-- A plan that fails leaves the file as it was. -/
theorem find?_of_error {plan : Plan} (h : (plan.carryOut faults p d).error ≠ none) :
    (plan.carryOut faults p d).disk.find? p = d.find? p := by
  cases plan with
  | print text | fail text e => rfl
  | printThenKeep text s => exact absurd rfl h
  | keepThenPrint s text =>
      cases hok : (d.saveSettings faults p s).ok with
      | true =>
          rw [carryOut_keepThenPrint_of_ok text hok] at h
          exact absurd rfl h
      | false =>
          obtain ⟨a, -, hplan⟩ := carryOut_keepThenPrint_of_fail text hok
          rw [hplan]
          simpa [hok] using d.find?_saveSettings faults p s

/-- A plan to keep settings that succeeds has replaced the file. -/
theorem find?_keepThenPrint {s : Settings} {text : String}
    (h : (carryOut faults p d (.keepThenPrint s text)).error = none) :
    (carryOut faults p d (.keepThenPrint s text)).disk.find? p = some (.file s.content) := by
  cases hok : (d.saveSettings faults p s).ok with
  | true =>
      rw [carryOut_keepThenPrint_of_ok text hok]
      simpa [hok] using d.find?_saveSettings faults p s
  | false =>
      obtain ⟨a, -, hplan⟩ := carryOut_keepThenPrint_of_fail text hok
      rw [hplan] at h
      cases h

/-- Nothing is kept where there is only something to print. -/
theorem disk_print (text : String) : (carryOut faults p d (.print text)).disk = d := rfl

theorem disk_ofExcept (x : Except Failure String) :
    (carryOut faults p d (.ofExcept x)).disk = d := by
  cases x <;> rfl

/-- What a converter makes of the settings file when it has used a category: that category is
remembered if that is wanted and new, and if the file can be replaced. -/
def Remembers (faults : Disk.Faults) (p : FilePath) (before after : Disk) (s : Settings)
    (c : Category) : Prop :=
  ∃ changed, changed.defaultName c.group = c.name ∧
    s.Revises (Settings.defaultKey c.group) changed ∧
    after.find? p =
      if s.rememberLastCategory = true ∧ s.defaultName c.group ≠ c.name ∧
          (before.saveSettings faults p changed).ok = true then some (.file changed.content)
      else before.find? p

theorem remembers_printAndRemember (s : Settings) (c : Category) (text : String) :
    Remembers faults p d (carryOut faults p d (printAndRemember s c text)).disk s c := by
  refine ⟨s.withDefaultName c.group c.name, s.defaultName_withDefaultName _ _,
    s.revises_withDefaultName _ _, ?_⟩
  unfold printAndRemember Settings.remember?
  by_cases hnew : s.rememberLastCategory = true ∧ s.defaultName c.group ≠ c.name
  · rw [if_pos (by simpa using hnew)]
    simpa [carryOut, hnew] using d.find?_saveSettings faults p (s.withDefaultName c.group c.name)
  · rw [if_neg (by simpa using hnew), if_neg (fun h => hnew ⟨h.1, h.2.1⟩)]
    rfl

/-- A line about a conversion is about the category in which the quantity was found. -/
theorem locateQuantity_of_convertLine {s : Settings} {quantity target line : String}
    {category : Option String} {c : Category}
    (h : convertLine s quantity target category = .ok (c, line)) :
    ∃ v i, locateQuantity s quantity category = .ok (v, c, i) := by
  obtain ⟨q, hq, h⟩ := bind_eq_ok.mp h
  obtain ⟨⟨c', i⟩, hc, h⟩ := bind_eq_ok.mp h
  obtain ⟨j, -, h⟩ := bind_eq_ok.mp h
  obtain ⟨v, -, h⟩ := bind_eq_ok.mp h
  cases h
  exact ⟨q.value, i, bind_eq_ok.mpr ⟨q, hq, bind_eq_ok.mpr ⟨(c, i), hc, rfl⟩⟩⟩

end Plan

/-! ### The file after a command -/

/-- What a command that succeeds makes of the settings file, given the settings that it found
there.  They are changed in a single place, and only by some commands. -/
def Command.Keeps (faults : Disk.Faults) (p : FilePath) (before after : Disk) (s : Settings) :
    Command → Prop
  | .resetSettings => after.find? p = some (.file Settings.initial.content)
  | .setSetting key text =>
    ∃ k changed, k.name = key ∧ s.set key text = .ok changed ∧ s.Revises k changed ∧
      after.find? p = some (.file changed.content)
  | .convert quantity _ category | .all quantity category =>
    ∃ v c i, Plan.locateQuantity s quantity category = .ok (v, c, i) ∧
      Plan.Remembers faults p before after s c
  | _ => after.find? p = before.find? p

/-- A plan that succeeds has kept what its command is meant to, whatever the settings. -/
theorem Plan.keeps_ofCommand (command : Command) (s : Settings) (file : String)
    (hok : (carryOut faults p d (ofCommand s file command)).error = none) :
    command.Keeps faults p d (carryOut faults p d (ofCommand s file command)).disk s := by
  cases command with
  | serve config | showSettings => exact congrArg (Disk.find? · p) (disk_print _)
  | calculate expression | graph g | prog lhs op rhs radix bits =>
      simp only [ofCommand, calculate, graph, prog]
      exact congrArg (Disk.find? · p) (disk_ofExcept _)
  | units category =>
      cases category with
      | none => exact congrArg (Disk.find? · p) (disk_print _)
      | some name =>
          simp only [ofCommand, units]
          exact congrArg (Disk.find? · p) (disk_ofExcept _)
  | resetSettings => exact find?_keepThenPrint hok
  | setSetting key text =>
      rw [ofCommand, setSetting] at hok ⊢
      cases hset : s.set key text with
      | error e =>
          rw [hset] at hok
          cases hok
      | ok changed =>
          rw [hset] at hok
          obtain ⟨k, hname, hrevises⟩ := Settings.revises_of_set hset
          exact ⟨k, changed, hname, hset, hrevises, find?_keepThenPrint hok⟩
  | convert quantity target category =>
      rw [ofCommand, convert] at hok ⊢
      cases hline : convertLine s quantity target category with
      | error e =>
          rw [hline] at hok
          cases hok
      | ok found =>
          obtain ⟨c, line⟩ := found
          obtain ⟨v, i, hlocated⟩ := locateQuantity_of_convertLine hline
          exact ⟨v, c, i, hlocated, remembers_printAndRemember s c _⟩
  | all quantity category =>
      rw [ofCommand, convertAll] at hok ⊢
      cases hlocated : locateQuantity s quantity category with
      | error e =>
          rw [hlocated] at hok
          cases hok
      | ok found =>
          obtain ⟨v, c, i⟩ := found
          rw [hlocated] at hok
          dsimp only at hok ⊢
          cases hresults : c.convertAll (label c i) v with
          | error e =>
              rw [hresults] at hok
              cases hok
          | ok results => exact ⟨v, c, i, hlocated, remembers_printAndRemember s c _⟩

/-- Whether a command converts, and may remember a category. -/
def Command.converts : Command → Bool
  | convert _ _ _ | all _ _ => true
  | _ => false

theorem Plan.error_printAndRemember (s : Settings) (c : Category) (text : String) :
    (carryOut faults p d (printAndRemember s c text)).error = none := by
  unfold printAndRemember
  cases s.remember? c <;> rfl

/-- A converter fails or succeeds whichever steps of saving fail. -/
theorem Plan.error_of_converts {command : Command} (h : command.converts = true) (s : Settings)
    (file : String) (faults' : Disk.Faults) :
    (carryOut faults' p d (ofCommand s file command)).error =
      (carryOut faults p d (ofCommand s file command)).error := by
  cases command with
  | convert quantity target category =>
      rw [ofCommand, convert]
      cases convertLine s quantity target category with
      | error e => rfl
      | ok found => exact (error_printAndRemember s _ _).trans (error_printAndRemember s _ _).symm
  | all quantity category =>
      rw [ofCommand, convertAll]
      cases locateQuantity s quantity category with
      | error e => rfl
      | ok found =>
          obtain ⟨v, c, i⟩ := found
          dsimp only
          cases c.convertAll (label c i) v with
          | error e => rfl
          | ok results =>
              exact (error_printAndRemember s _ _).trans (error_printAndRemember s _ _).symm
  | serve config | calculate expression | graph g | prog lhs op rhs radix bits | units category
  | showSettings | resetSettings | setSetting key value => cases h

/--
**A command that fails keeps nothing, and one that succeeds keeps what it is meant to.**  This
holds whatever the settings file holds, if there is one, and whichever steps of saving fail.  A
converter does not fail because a category could not be remembered.
-/
theorem execute_keeps (command : Command) (faults : Disk.Faults) (p : FilePath) (file : String)
    (d : Disk) :
    let r := command.execute faults p file d
    (r.error ≠ none → r.disk.find? p = d.find? p) ∧
    (r.error = none → command.Keeps faults p d r.disk (d.loadSettings p)) ∧
    (command.converts = true → ∀ faults', (command.execute faults' p file d).error = r.error) :=
  ⟨Plan.find?_of_error, Plan.keeps_ofCommand command (d.loadSettings p) file,
    fun h => Plan.error_of_converts h (d.loadSettings p) file⟩

/-! ### No place for settings -/

/-- Where there is a text to print or a failure, it does not matter where settings would be kept. -/
theorem Plan.carryOut_ofExcept (p q : FilePath) (x : Except Failure String) :
    carryOut faults p d (.ofExcept x) = carryOut faults q d (.ofExcept x) := by
  cases x <;> rfl

/-- A command that has to do with settings fails for a user who has no place for them, and any other
does what it does for everybody. -/
theorem executeWithoutStore_eq (command : Command) (faults : Disk.Faults) (p : FilePath)
    (file : String) (d : Disk) :
    command.executeWithoutStore faults d =
      if command.needsSettings = true then ⟨"", some (.settings .noDirectory), d⟩
      else command.execute faults p file d := by
  cases command with
  | convert quantity target category | all quantity category | showSettings | resetSettings
  | setSetting key text => rfl
  | serve config => rfl
  | calculate expression | graph g | prog lhs op rhs radix bits =>
      simp only [Command.executeWithoutStore, Command.execute, Plan.ofStore, Plan.ofCommand,
        Plan.calculate, Plan.graph, Plan.prog, Command.needsSettings, Bool.false_eq_true, if_false]
      exact Plan.carryOut_ofExcept _ _ _
  | units category =>
      cases category with
      | none => rfl
      | some name =>
          simp only [Command.executeWithoutStore, Command.execute, Plan.ofStore, Plan.ofCommand,
            Plan.units, Command.needsSettings, Bool.false_eq_true, if_false]
          exact Plan.carryOut_ofExcept _ _ _

end Plans

end Reckoner
