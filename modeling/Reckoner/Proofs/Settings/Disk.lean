/-
A file is replaced as a whole.

Every step before the renaming works on the temporary file or creates a directory where there was
nothing, so up to then the file to be replaced and all else on the disk stay as they are.  The
renaming then puts the temporary file in its place, with the content that was written to it, or
changes nothing.  What a failed run leaves behind is the temporary file, and that is removed; the
run names the action that failed.
-/
import Reckoner.Settings.Disk

namespace Reckoner.Disk

variable {d : Disk} {p q : FilePath} {n : DiskNode}

/-! ### What is found on a disk -/

theorem find?_root (d : Disk) : d.find? [] = some .directory := by
  rw [find?, if_pos rfl]

theorem find?_of_ne_nil (d : Disk) (hp : p ≠ []) : d.find? p = d.nodes.lookup p := by
  rw [find?, if_neg hp]

theorem lookup_filter_ne (h : q ≠ p) (nodes : List (FilePath × DiskNode)) :
    (nodes.filter (·.1 != p)).lookup q = nodes.lookup q := by
  induction nodes with
  | nil => rfl
  | cons entry nodes ih =>
      obtain ⟨r, m⟩ := entry
      by_cases hr : r = p
      · have hq : (q == r) = false := by simpa [hr] using h
        rw [List.filter_cons, if_neg (by simp [hr]), ih, List.lookup_cons, hq]
      · rw [List.filter_cons, if_pos (by simpa using hr), List.lookup_cons, List.lookup_cons, ih]

theorem find?_erase_of_ne (d : Disk) (h : q ≠ p) : (d.erase p).find? q = d.find? q := by
  unfold find? erase
  rw [lookup_filter_ne h]

theorem find?_erase_self (d : Disk) (hp : p ≠ []) : (d.erase p).find? p = none := by
  rw [find?_of_ne_nil _ hp, erase, List.lookup_eq_none_iff]
  intro entry hentry
  have := (List.mem_filter.mp hentry).2
  simp only [bne_iff_ne, ne_eq] at this
  simpa using fun h => this h.symm

theorem find?_put_self (d : Disk) (n : DiskNode) (hp : p ≠ []) : (d.put p n).find? p = some n := by
  rw [find?_of_ne_nil _ hp, put, List.lookup_cons, beq_self_eq_true]

theorem find?_put_of_ne (d : Disk) (n : DiskNode) (h : q ≠ p) :
    (d.put p n).find? q = d.find? q := by
  have hq : (q == p) = false := by simpa using h
  rw [← find?_erase_of_ne d h]
  unfold find? put
  rw [List.lookup_cons, hq]

theorem content?_eq_some {content : ByteArray} :
    d.content? p = some content ↔ d.find? p = some (.file content) := by
  unfold content?
  split
  · rename_i c hc
    rw [hc, Option.some.injEq, Option.some.injEq, DiskNode.file.injEq]
  · rename_i hnone
    constructor
    · intro h
      cases h
    · intro h
      exact absurd h (hnone content)

/-! ### The temporary file -/

theorem temporary_ne_nil (p : FilePath) : temporary p ≠ [] := by
  simp [temporary]

theorem temporary_ne (p : FilePath) : temporary p ≠ p := by
  intro h
  by_cases hp : p = []
  · rw [hp] at h
    exact temporary_ne_nil [] h
  · have hname := congrArg List.getLast? h
    rw [temporary, List.getLast?_concat, List.getLast?_eq_some_getLast hp, Option.getD_some,
      Option.some.injEq] at hname
    have hlength := congrArg String.length hname
    rw [String.length_append] at hlength
    exact absurd hlength (by simp)

/-- What was on a disk stays there, apart from the temporary file that stands for another one;
and nothing takes the place of that one if it was not there. -/
structure Spares (p : FilePath) (before after : Disk) : Prop where
  target : after.find? p = before.find? p
  others : ∀ q found, q ≠ temporary p → before.find? q = some found → after.find? q = some found

theorem Spares.refl (p : FilePath) (d : Disk) : Spares p d d :=
  ⟨rfl, fun _ _ _ h => h⟩

theorem Spares.trans {a b c : Disk} (h : Spares p a b) (h' : Spares p b c) : Spares p a c :=
  ⟨h'.target.trans h.target, fun q n hq hn => h'.others q n hq (h.others q n hq hn)⟩

/-- Whatever is done to the temporary file spares the rest. -/
theorem Spares.of_find? {after : Disk}
    (h : ∀ q, q ≠ temporary p → after.find? q = d.find? q) : Spares p d after :=
  ⟨h p (temporary_ne p).symm, fun q _ hq hn => (h q hq).trans hn⟩

theorem spares_put (d : Disk) (p : FilePath) (n : DiskNode) :
    Spares p d (d.put (temporary p) n) :=
  .of_find? fun _ hq => find?_put_of_ne d n hq

theorem spares_erase (d : Disk) (p : FilePath) : Spares p d (d.erase (temporary p)) :=
  .of_find? fun _ hq => find?_erase_of_ne d hq

/-! ### Single steps -/

/-- Directories are created along a path and not below it. -/
theorem find?_createBelow_of_length : ∀ (rest before : FilePath) (d : Disk),
    before.length + rest.length < q.length → (createBelow before rest d).1.find? q = d.find? q := by
  intro rest
  induction rest with
  | nil =>
      intro before d _
      rfl
  | cons name rest ih =>
      intro before d hq
      have hnext : (before ++ [name]).length + rest.length < q.length := by
        simp only [List.length_append, List.length_cons, List.length_nil] at hq ⊢
        omega
      rw [createBelow]
      cases hfound : d.find? (before ++ [name]) with
      | none =>
          have hne : q ≠ before ++ [name] := by
            rintro rfl
            omega
          exact (ih _ _ hnext).trans (find?_put_of_ne d _ hne)
      | some m =>
          cases m with
          | file content => rfl
          | directory => exact ih _ d hnext

/-- A directory is created only where there is nothing. -/
theorem find?_createBelow_of_some : ∀ (rest before : FilePath) (d : Disk),
    d.find? q = some n → (createBelow before rest d).1.find? q = some n := by
  intro rest
  induction rest with
  | nil =>
      intro before d h
      exact h
  | cons name rest ih =>
      intro before d h
      rw [createBelow]
      cases hfound : d.find? (before ++ [name]) with
      | none =>
          have hne : q ≠ before ++ [name] := by
            rintro rfl
            rw [hfound] at h
            cases h
          exact ih _ _ ((find?_put_of_ne d _ hne).trans h)
      | some m =>
          cases m with
          | file content => exact h
          | directory => exact ih _ d h

theorem spares_createBelow (d : Disk) {names : FilePath} (h : names.length ≤ p.dropLast.length) :
    Spares p d (createBelow [] names d).1 := by
  refine ⟨?_, fun _ _ _ hn => find?_createBelow_of_some names [] d hn⟩
  by_cases hp : p = []
  · rw [hp, find?_root, find?_root]
  · have hpos := List.length_pos_iff.mpr hp
    rw [List.length_dropLast] at h
    refine find?_createBelow_of_length names [] d ?_
    rw [List.length_nil]
    omega

theorem spares_createDirectories (faults : Faults) (d : Disk) :
    Spares p d (createDirectories faults p.dropLast d).1 := by
  unfold createDirectories
  cases faults.directories with
  | none => exact spares_createBelow d (Nat.le_refl _)
  | some count => exact spares_createBelow d (List.length_take_le' _ _)

theorem spares_create (faults : Faults) (d : Disk) :
    Spares p d (create faults (temporary p) d).1 := by
  unfold create
  split
  · exact .refl p d
  · exact spares_put d p _

theorem spares_write (faults : Faults) (content : ByteArray) (d : Disk) :
    Spares p d (write faults (temporary p) content d).1 := by
  unfold write
  cases faults.write <;> exact spares_put d p _

theorem spares_remove (faults : Faults) (d : Disk) :
    Spares p d (remove faults (temporary p) d).1 := by
  unfold remove
  split
  · exact .refl p d
  · exact spares_erase d p

/-- A file that was created is there, and empty. -/
theorem find?_create {faults : Faults} (hp : p ≠ []) (h : (create faults p d).2 = true) :
    (create faults p d).1.find? p = some (.file ByteArray.empty) := by
  unfold create at h ⊢
  split at h
  · cases h
  · rename_i hfits
    rw [if_neg hfits]
    exact find?_put_self d _ hp

/-- A write leaves some content, and the whole of it if it succeeds. -/
theorem content?_write (faults : Faults) (content : ByteArray) (d : Disk) (hp : p ≠ []) :
    ∃ c, (write faults p content d).1.content? p = some c ∧
      ((write faults p content d).2 = true → c = content) := by
  unfold write
  cases faults.write with
  | none => exact ⟨_, content?_eq_some.mpr (find?_put_self d _ hp), fun _ => rfl⟩
  | some count => exact ⟨_, content?_eq_some.mpr (find?_put_self d _ hp), nofun⟩

/-- A renaming changes nothing, or moves the content. -/
theorem rename_cases (faults : Faults) (source target : FilePath) (d : Disk) :
    rename faults source target d = (d, false) ∨
      ∃ content, d.content? source = some content ∧ target ≠ [] ∧
        rename faults source target d = ((d.erase source).put target (.file content), true) := by
  unfold rename
  cases hsource : d.content? source with
  | none => exact .inl rfl
  | some content =>
      by_cases hblocked : (faults.rename || d.find? target == some .directory) = true
      · exact .inl (if_pos hblocked)
      · refine .inr ⟨content, rfl, ?_, if_neg hblocked⟩
        rintro rfl
        rw [find?_root] at hblocked
        exact hblocked (by simp)

/-! ### Runs -/

namespace Run

theorem last_mem_states (r : Run) : r.last ∈ r.states := by
  unfold last states
  cases h : r.later.getLast? with
  | none => exact List.mem_cons_self
  | some s => exact List.mem_cons_of_mem _ (List.mem_of_getLast? h)

/-- The states of a run that has one state more. -/
theorem mem_states_concat {first s x : Disk} {later : List Disk} {failed : Option Action}
    (h : s ∈ (Run.mk first (later ++ [x]) failed).states) : s ∈ first :: later ∨ s = x := by
  rw [states, ← List.cons_append, List.mem_append, List.mem_singleton] at h
  exact h

end Run

section Actions

variable {step : Action → Step} {a : Action}

theorem runAll_first (step : Action → Step) (actions : List Action) (d : Disk) :
    (runAll step actions d).first = d := by
  cases actions with
  | nil => rfl
  | cons a actions =>
      unfold runAll
      split <;> rfl

theorem runAll_cons_of_fail (actions : List Action) (h : (step a d).2 = false) :
    runAll step (a :: actions) d = ⟨d, [(step a d).1], some a⟩ := by
  rw [runAll]
  split
  · rename_i next hnext
    rw [hnext]
  · rename_i next hnext
    rw [hnext] at h
    cases h

theorem runAll_cons_of_ok (actions : List Action) (h : (step a d).2 = true) :
    runAll step (a :: actions) d =
      ⟨d, (step a d).1 :: (runAll step actions (step a d).1).later,
        (runAll step actions (step a d).1).failed⟩ := by
  rw [runAll]
  split
  · rename_i next hnext
    rw [hnext] at h
    cases h
  · rename_i next hnext
    rw [hnext]

theorem last_runAll_cons (actions : List Action) (h : (step a d).2 = true) :
    (runAll step (a :: actions) d).last = (runAll step actions (step a d).1).last := by
  rw [runAll_cons_of_ok actions h, Run.last, Run.last, List.getLast?_cons, runAll_first]
  rfl

theorem ok_runAll_cons (actions : List Action) (h : (step a d).2 = true) :
    (runAll step (a :: actions) d).ok = (runAll step actions (step a d).1).ok := by
  rw [runAll_cons_of_ok actions h]
  rfl

/-- A run succeeds when its first step does and the rest of it. -/
theorem runAll_cons_ok {actions : List Action} (h : (runAll step (a :: actions) d).ok = true) :
    (step a d).2 = true ∧ (runAll step actions (step a d).1).ok = true := by
  cases hstep : (step a d).2 with
  | false =>
      rw [runAll_cons_of_fail actions hstep] at h
      cases h
  | true =>
      rw [ok_runAll_cons actions hstep] at h
      exact ⟨rfl, h⟩

theorem states_runAll (actions : List Action) (d : Disk) :
    (runAll step actions d).states = d :: (runAll step actions d).later := by
  rw [Run.states, runAll_first]

theorem states_runAll_cons_of_fail (actions : List Action) (h : (step a d).2 = false) :
    (runAll step (a :: actions) d).states = [d, (step a d).1] := by
  rw [states_runAll, runAll_cons_of_fail actions h]

theorem states_runAll_cons_of_ok (actions : List Action) (h : (step a d).2 = true) :
    (runAll step (a :: actions) d).states = d :: (runAll step actions (step a d).1).states := by
  rw [states_runAll, runAll_cons_of_ok actions h, states_runAll]

/-- What every step keeps holds throughout a run. -/
theorem forall_states_runAll {P : Disk → Prop} : ∀ {actions : List Action} {d : Disk},
    (∀ a ∈ actions, ∀ s, P s → P (step a s).1) → P d →
      ∀ s ∈ (runAll step actions d).states, P s := by
  intro actions
  induction actions with
  | nil =>
      intro d _ hd s hs
      rw [List.mem_singleton.mp hs]
      exact hd
  | cons a actions ih =>
      intro d hkeep hd s hs
      have hnext : P (step a d).1 := hkeep a List.mem_cons_self d hd
      cases hstep : (step a d).2 with
      | false =>
          rw [states_runAll_cons_of_fail actions hstep] at hs
          rcases List.mem_cons.mp hs with rfl | hs
          · exact hd
          · rw [List.mem_singleton.mp hs]
            exact hnext
      | true =>
          rw [states_runAll_cons_of_ok actions hstep] at hs
          rcases List.mem_cons.mp hs with rfl | hs
          · exact hd
          · exact ih (fun b h => hkeep b (List.mem_cons_of_mem _ h)) hnext s hs

/-- A run that stops at an action has tried its step in vain. -/
theorem exists_of_failed_runAll : ∀ {actions : List Action} {d : Disk},
    (runAll step actions d).failed = some a →
      ∃ s ∈ (runAll step actions d).states, (step a s).2 = false := by
  intro actions
  induction actions with
  | nil => exact nofun
  | cons b actions ih =>
      intro d h
      cases hstep : (step b d).2 with
      | false =>
          rw [runAll_cons_of_fail actions hstep] at h
          cases h
          rw [states_runAll_cons_of_fail actions hstep]
          exact ⟨d, List.mem_cons_self, hstep⟩
      | true =>
          rw [runAll_cons_of_ok actions hstep] at h
          obtain ⟨s, hs, hfail⟩ := ih h
          rw [states_runAll_cons_of_ok actions hstep]
          exact ⟨s, List.mem_cons_of_mem _ hs, hfail⟩

/-- A last step is tried where the others have led, if they succeed. -/
theorem runAll_concat (step : Action → Step) (a : Action) : ∀ (actions : List Action) (d : Disk),
    runAll step (actions ++ [a]) d =
      if (runAll step actions d).ok then
        ⟨d, (runAll step actions d).later ++ [(step a (runAll step actions d).last).1],
          if (step a (runAll step actions d).last).2 then none else some a⟩
      else runAll step actions d := by
  intro actions
  induction actions with
  | nil =>
      intro d
      show runAll step [a] d = ⟨d, [(step a d).1], if (step a d).2 then none else some a⟩
      cases hstep : (step a d).2 with
      | false =>
          rw [runAll_cons_of_fail _ hstep]
          rfl
      | true =>
          rw [runAll_cons_of_ok _ hstep]
          rfl
  | cons first actions ih =>
      intro d
      rw [List.cons_append]
      cases hfirst : (step first d).2 with
      | false =>
          rw [runAll_cons_of_fail _ hfirst, runAll_cons_of_fail _ hfirst]
          rfl
      | true =>
          rw [ok_runAll_cons _ hfirst, last_runAll_cons _ hfirst, runAll_cons_of_ok _ hfirst,
            runAll_cons_of_ok _ hfirst, ih]
          cases (runAll step actions (step first d).1).ok <;> rfl

/-- A run that goes through its steps up to the last one ends with that. -/
theorem last_runAll_concat {actions : List Action} (h : (runAll step actions d).ok = true) :
    (runAll step (actions ++ [a]) d).last = (step a (runAll step actions d).last).1 := by
  rw [runAll_concat, if_pos h, Run.last, List.getLast?_concat]
  rfl

theorem ok_runAll_concat {actions : List Action} (h : (runAll step actions d).ok = true) :
    (runAll step (actions ++ [a]) d).ok = (step a (runAll step actions d).last).2 := by
  rw [runAll_concat, if_pos h]
  cases (step a (runAll step actions d).last).2 <;> rfl

end Actions

/-! ### Replacing a file -/

/-- The actions by which the content gets into the temporary file. -/
def filling : List Action := [.write, .flush, .sync]

/-- The actions by which there comes to be a temporary file with the content. -/
def writing : List Action := .create :: filling

/-- The actions before the temporary file takes the place of the other one. -/
def preparation : List Action := .createDirectories :: writing

/-- All actions of a replacement that does not fail. -/
def replacement : List Action := preparation ++ [.rename]

section Replacement

variable {faults : Faults} {content : ByteArray}

/-- A replacement is its actions in a row, and the removal of the temporary file if one of them
fails when the directories are there. -/
theorem replaceFile_eq (faults : Faults) (p : FilePath) (content : ByteArray) (d : Disk) :
    replaceFile faults p content d =
      let run := runAll (Action.step faults p content) replacement d
      if run.ok || !(createDirectories faults p.dropLast d).2 then run
      else ⟨d, run.later ++ [(remove faults (temporary p) run.last).1], run.failed⟩ := by
  have hactions : replacement = .createDirectories :: (writing ++ [.rename]) := rfl
  have hwriting : [.create, .write, .flush, .sync, .rename] = writing ++ [.rename] := rfl
  simp only [replaceFile, hactions, hwriting]
  generalize writing ++ [.rename] = actions
  generalize hstep : Action.step faults p content = step
  have hfirst : createDirectories faults p.dropLast d = step .createDirectories d := by
    rw [← hstep]
    rfl
  rw [hfirst]
  cases hdirectories : (step .createDirectories d).2 with
  | false =>
      rw [runAll_cons_of_fail _ hdirectories, runAll_cons_of_fail _ hdirectories]
      rfl
  | true =>
      have hprepared : runAll step [.createDirectories] d =
          ⟨d, [(step .createDirectories d).1], none⟩ := runAll_cons_of_ok [] hdirectories
      have hlast : (Run.mk d [(step .createDirectories d).1] none).last =
          (step .createDirectories d).1 := rfl
      rw [hprepared, hlast, last_runAll_cons actions hdirectories,
        runAll_cons_of_ok actions hdirectories]
      generalize runAll step actions (step .createDirectories d).1 = rest
      obtain ⟨first, later, failed⟩ := rest
      cases failed <;> rfl

/-- Each action before the renaming spares all but the temporary file. -/
theorem spares_step {a : Action} (h : a ∈ preparation) (d : Disk) :
    Spares p d (a.step faults p content d).1 := by
  simp only [preparation, writing, filling, List.mem_cons, List.not_mem_nil, or_false] at h
  rcases h with rfl | rfl | rfl | rfl | rfl
  · exact spares_createDirectories faults d
  · exact spares_create faults d
  · exact spares_write faults content d
  · exact .refl p d
  · exact .refl p d

/-- Nothing but the temporary file is touched before the renaming. -/
theorem spares_states_preparation :
    ∀ s ∈ (runAll (Action.step faults p content) preparation d).states, Spares p d s :=
  forall_states_runAll (fun _ ha s hs => hs.trans (spares_step ha s)) (.refl p d)

/-- Once it is written the temporary file has its content. -/
theorem content?_temporary (h : (runAll (Action.step faults p content) preparation d).ok = true) :
    (runAll (Action.step faults p content) preparation d).last.content? (temporary p) =
      some content := by
  unfold preparation writing filling at h ⊢
  obtain ⟨hdirectories, h⟩ := runAll_cons_ok h
  rw [last_runAll_cons _ hdirectories]
  generalize (Action.step faults p content .createDirectories d).1 = d at h ⊢
  obtain ⟨hcreate, h⟩ := runAll_cons_ok h
  rw [last_runAll_cons _ hcreate]
  generalize (Action.step faults p content .create d).1 = d at h ⊢
  obtain ⟨hwrite, h⟩ := runAll_cons_ok h
  obtain ⟨hflush, h⟩ := runAll_cons_ok h
  obtain ⟨hsync, -⟩ := runAll_cons_ok h
  rw [last_runAll_cons _ hwrite, last_runAll_cons _ hflush, last_runAll_cons _ hsync]
  obtain ⟨c, hc, hwhole⟩ := content?_write faults content d (temporary_ne_nil p)
  obtain rfl := hwhole hwrite
  exact hc

/-- A file has been replaced, and all else but the temporary file is as it was. -/
structure Replaced (p : FilePath) (content : ByteArray) (before after : Disk) : Prop where
  target : after.find? p = some (.file content)
  temporary : after.find? (temporary p) = none
  others : ∀ q found, q ≠ p → q ≠ Disk.temporary p → before.find? q = some found →
    after.find? q = some found

/-- The renaming makes the replacement out of what the steps before it have spared. -/
theorem Spares.replaced {s : Disk} (h : Spares p d s) (hp : p ≠ []) (content : ByteArray) :
    Replaced p content d ((s.erase (Disk.temporary p)).put p (.file content)) := by
  refine ⟨find?_put_self _ _ hp, ?_, ?_⟩
  · rw [find?_put_of_ne _ _ (temporary_ne p)]
    exact find?_erase_self s (temporary_ne_nil p)
  · intro q found hq htemporary hfound
    rw [find?_put_of_ne _ _ hq, find?_erase_of_ne s htemporary]
    exact h.others q found htemporary hfound

/-- The actions in a row spare all but the temporary file, unless they end with the renaming. -/
theorem replacement_cases (faults : Faults) (p : FilePath) (content : ByteArray) (d : Disk) :
    let run := runAll (Action.step faults p content) replacement d
    (run.ok = true ∧ Replaced p content d run.last ∧
      ∀ s ∈ run.states, Spares p d s ∨ s = run.last) ∨
    (run.ok = false ∧ ∀ s ∈ run.states, Spares p d s) := by
  intro run
  have hspares : ∀ s ∈ (runAll (Action.step faults p content) preparation d).states, Spares p d s :=
    spares_states_preparation
  have hrun : run = _ := runAll_concat (Action.step faults p content) .rename preparation d
  cases hready : (runAll (Action.step faults p content) preparation d).ok with
  | false =>
      rw [hready, if_neg (by simp)] at hrun
      rw [hrun]
      exact .inr ⟨hready, hspares⟩
  | true =>
      have hready' := hspares _ (Run.last_mem_states _)
      have hlast : run.last = _ := last_runAll_concat hready
      rw [hready, if_pos rfl] at hrun
      have hstates : ∀ s ∈ run.states, Spares p d s ∨ s = run.last := by
        intro s hs
        rw [hlast]
        rw [hrun] at hs
        rcases Run.mem_states_concat hs with hs | hs
        · rw [← states_runAll] at hs
          exact .inl (hspares s hs)
        · exact .inr hs
      have hok : run.ok = _ := ok_runAll_concat hready
      rw [Action.step] at hlast hok
      rcases rename_cases faults (temporary p) p
          (runAll (Action.step faults p content) preparation d).last
        with hfail | ⟨moved, hmoved, hp, hrename⟩
      · refine .inr ⟨by rw [hok, hfail], ?_⟩
        intro s hs
        rcases hstates s hs with hs | hs
        · exact hs
        · rw [hs, hlast, hfail]
          exact hready'
      · rw [content?_temporary hready, Option.some.injEq] at hmoved
        subst hmoved
        refine .inl ⟨by rw [hok, hrename], ?_, hstates⟩
        rw [hlast, hrename]
        exact hready'.replaced hp _

/-- The temporary file stays from its creation until it is renamed. -/
theorem temporary_of_fail (hdirectories : (createDirectories faults p.dropLast d).2 = true)
    (hcreate : (create faults (temporary p) (createDirectories faults p.dropLast d).1).2 = true)
    (hfail : (runAll (Action.step faults p content) replacement d).ok = false) :
    ∃ c, (runAll (Action.step faults p content) replacement d).last.content? (temporary p) =
      some c := by
  have hactions : replacement = .createDirectories :: .create :: (filling ++ [.rename]) := rfl
  have hfirst : (Action.step faults p content .createDirectories d).2 = true := hdirectories
  have hsecond : (Action.step faults p content .create
      (Action.step faults p content .createDirectories d).1).2 = true := hcreate
  have hcreated : (Action.step faults p content .create
      (Action.step faults p content .createDirectories d).1).1.find? (temporary p) =
        some (.file ByteArray.empty) := find?_create (temporary_ne_nil p) hcreate
  rw [hactions] at hfail ⊢
  rw [last_runAll_cons _ hfirst, last_runAll_cons _ hsecond]
  rw [ok_runAll_cons _ hfirst, ok_runAll_cons _ hsecond] at hfail
  generalize (Action.step faults p content .create
    (Action.step faults p content .createDirectories d).1).1 = s at hfail hcreated ⊢
  -- Of the remaining actions only the renaming takes the temporary file away.
  have hkept : ∀ t ∈ (runAll (Action.step faults p content) filling s).states,
      ∃ c, t.content? (temporary p) = some c := by
    refine forall_states_runAll ?_ ⟨_, content?_eq_some.mpr hcreated⟩
    intro a ha t ht
    simp only [filling, List.mem_cons, List.not_mem_nil, or_false] at ha
    rcases ha with rfl | rfl | rfl
    · obtain ⟨c, hc, -⟩ := content?_write faults content t (temporary_ne_nil p)
      exact ⟨c, hc⟩
    · exact ht
    · exact ht
  cases hfilled : (runAll (Action.step faults p content) filling s).ok with
  | false =>
      rw [runAll_concat, hfilled, if_neg (by simp)]
      exact hkept _ (Run.last_mem_states _)
  | true =>
      have hlast := hkept _ (Run.last_mem_states _)
      rw [last_runAll_concat hfilled]
      rcases rename_cases faults (temporary p) p
          (runAll (Action.step faults p content) filling s).last
        with hsame | ⟨moved, -, -, hrename⟩
      · rw [Action.step, hsame]
        exact hlast
      · rw [ok_runAll_concat hfilled, Action.step, hrename] at hfail
        cases hfail

/-! ### The run as a whole -/

/-- A replacement leaves everything but the temporary file alone, or ends with the file replaced. -/
theorem replaceFile_cases (faults : Faults) (p : FilePath) (content : ByteArray) (d : Disk) :
    let run := replaceFile faults p content d
    (run.ok = true ∧ Replaced p content d run.last ∧
      ∀ s ∈ run.states, Spares p d s ∨ s = run.last) ∨
    (run.ok = false ∧ ∀ s ∈ run.states, Spares p d s) := by
  intro run
  have hrun : run = _ := replaceFile_eq faults p content d
  rcases replacement_cases faults p content d with ⟨hok, hcases⟩ | ⟨hok, hspares⟩
  · simp only [hok, Bool.true_or, if_true] at hrun
    rw [hrun]
    exact .inl ⟨hok, hcases⟩
  · right
    cases hdirectories : (createDirectories faults p.dropLast d).2 with
    | false =>
        simp only [hok, hdirectories, Bool.not_false, Bool.or_true, if_true] at hrun
        rw [hrun]
        exact ⟨hok, hspares⟩
    | true =>
        simp only [hok, hdirectories, Bool.not_true, Bool.or_false, Bool.false_eq_true, if_false]
          at hrun
        rw [hrun]
        refine ⟨hok, ?_⟩
        intro s hs
        rcases Run.mem_states_concat hs with hs | rfl
        · rw [← states_runAll] at hs
          exact hspares s hs
        · exact (hspares _ (Run.last_mem_states _)).trans (spares_remove faults _)

/-- A replacement that succeeds has replaced the file. -/
theorem replaced_of_ok (h : (replaceFile faults p content d).ok = true) :
    Replaced p content d (replaceFile faults p content d).last := by
  rcases replaceFile_cases faults p content d with ⟨-, hreplaced, -⟩ | ⟨hfail, -⟩
  · exact hreplaced
  · rw [hfail] at h
    cases h

/-- A replacement that fails leaves all but the temporary file as it was. -/
theorem spares_of_fail (h : (replaceFile faults p content d).ok = false) :
    Spares p d (replaceFile faults p content d).last := by
  rcases replaceFile_cases faults p content d with ⟨hok, -, -⟩ | ⟨-, hspares⟩
  · rw [hok] at h
    cases h
  · exact hspares _ (Run.last_mem_states _)

/-- On the way to the end there is no state but those before the replacement and after it. -/
theorem spares_or_replaced {s : Disk} (hs : s ∈ (replaceFile faults p content d).states) :
    Spares p d s ∨ Replaced p content d s := by
  rcases replaceFile_cases faults p content d with ⟨-, hreplaced, hstates⟩ | ⟨-, hspares⟩
  · rcases hstates s hs with h | h
    · exact .inl h
    · rw [h]
      exact .inr hreplaced
  · exact .inl (hspares s hs)

/-- A failed replacement leaves no temporary file behind that it has created and can remove. -/
theorem find?_temporary_of_fail (hfail : (replaceFile faults p content d).ok = false)
    (hdirectories : (createDirectories faults p.dropLast d).2 = true)
    (hcreate : (create faults (temporary p) (createDirectories faults p.dropLast d).1).2 = true)
    (hremove : faults.remove = false) :
    (replaceFile faults p content d).last.find? (temporary p) = none := by
  rw [replaceFile_eq] at hfail ⊢
  cases hok : (runAll (Action.step faults p content) replacement d).ok with
  | true =>
      simp [hok] at hfail
  | false =>
      obtain ⟨c, hc⟩ := temporary_of_fail hdirectories hcreate hok
      simp only [hok, hdirectories, Bool.not_true, Bool.or_false, Bool.false_eq_true, if_false]
      rw [Run.last, List.getLast?_concat, Option.getD_some, remove, hremove, hc]
      exact find?_erase_self _ (temporary_ne_nil p)

/-- A replacement names an action whose step it has tried in vain. -/
theorem exists_of_failed {a : Action} (h : (replaceFile faults p content d).failed = some a) :
    ∃ s ∈ (replaceFile faults p content d).states, (a.step faults p content s).2 = false := by
  rw [replaceFile_eq] at h ⊢
  dsimp only at h ⊢
  split at h
  · rename_i hwhole
    rw [if_pos hwhole]
    exact exists_of_failed_runAll h
  · rename_i hcleaned
    rw [if_neg hcleaned]
    obtain ⟨s, hs, hfail⟩ := exists_of_failed_runAll h
    rw [states_runAll] at hs
    exact ⟨s, List.mem_append_left [_] hs, hfail⟩

end Replacement

end Reckoner.Disk
