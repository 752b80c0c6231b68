/-
What the keypad shows.

Keys append to the display, replace it or write it anew, and the base in which it is read
changes between them.  Whatever keys were pressed, it is an error, and then no operation is
pending, or the canonical numeral of a number in the current base; so reading it back fails
for an error and for nothing else.  The numeral comes from the machine that the keypad shows; that
nothing is pending after an error takes an invariant of its own, since the machine does not
say when an operation may be absent.
-/
import Reckoner.Proofs.Programmer.Pending
import Reckoner.Proofs.Programmer.Reading

namespace Reckoner

namespace Keypad

variable {k : Keypad}

/-! ### What is pending after an error -/

/-- Nothing is pending while an error is shown. -/
def Settled (k : Keypad) : Prop := k.entry = .failed → k.pending = none

theorem settled_of_pending_eq_none (h : k.pending = none) : k.Settled := fun _ => h

theorem settled_of_digits {cs : List Char} (h : k.entry = .digits cs) : k.Settled := by
  intro hfailed
  rw [h] at hfailed
  cases hfailed

theorem Settled.pressDigit (h : k.Settled) (c : Char) : (k.pressDigit c).1.Settled := by
  unfold Keypad.pressDigit
  dsimp only
  split
  · exact settled_of_digits rfl
  · exact h

theorem settled_pressOperator (k : Keypad) (op : WordOp) : (k.pressOperator op).1.Settled := by
  unfold pressOperator
  split
  · exact settled_of_pending_eq_none rfl
  · dsimp only
    split
    · exact settled_of_digits rfl
    · exact settled_of_pending_eq_none rfl

theorem Settled.pressWordSize (h : k.Settled) (bits : Nat) : (k.pressWordSize bits).1.Settled := by
  unfold Keypad.pressWordSize
  split
  · exact settled_of_digits rfl
  · exact h

theorem Settled.press (h : k.Settled) (key : Key) : (k.press key).1.Settled := by
  cases key with
  | digit c => exact h.pressDigit c
  | operator op => exact settled_pressOperator k op
  | equals => exact settled_of_pending_eq_none k.pending_pressEquals
  | complement => exact settled_of_pending_eq_none rfl
  | clear => exact settled_of_pending_eq_none rfl
  | radix r => exact settled_of_digits rfl
  | wordSize bits => exact h.pressWordSize bits

theorem Settled.run (h : k.Settled) (keys : List Key) : (k.run keys).1.Settled := by
  induction keys generalizing k with
  | nil => exact h
  | cons key keys ih => exact ih (h.press key)

/-! ### What is shown -/

/-- The text of an error is no numeral, in hexadecimal neither. -/
theorem read_error (r : Radix) : r.read "Error" = .error (.invalidDigits r "Error") := by
  cases r <;> decide +kernel

/-- The text of an error can be read in no base; any other shown text is the canonical numeral of
a number, and is read as the number that is shown. -/
theorem text_of_showsEntry {r : Radix} {word : Option UInt64} (hentry : ShowsEntry r k.entry word)
    (hradix : k.radix = r) :
    k.entry = .failed ∨
      ∃ cs n, k.entry = .digits cs ∧ Numeral.IsCanonical k.radix.base cs n ∧
        k.radix.read k.entry.text = .ok k.shown ∧ k.shown = UInt64.ofNat n := by
  obtain ⟨entry, radix, wordSize, pending⟩ := k
  subst hradix
  dsimp only at hentry ⊢
  cases hentry with
  | failed => exact .inl rfl
  | numeral n =>
      have hshown : shown ⟨.digits (Numeral.write radix.base n), radix, wordSize, pending⟩ =
          UInt64.ofNat n := by
        unfold shown
        simp only [radix.readDigits?_write]
        rfl
      refine .inr ⟨_, n, rfl, Numeral.isCanonical_write radix.one_lt_base n, ?_, hshown⟩
      rw [hshown]
      exact Radix.read_ofList (Numeral.read?_write radix.one_lt_base radix.base_le n)

/-! ### Words of the selected size -/

/-- A word that is displayed is the value afterwards, and is written out. -/
theorem text_display (k : Keypad) (n : UInt64) :
    (k.display n).entry.text = k.radix.write (k.display n).value := by
  have hshown : (k.display n).shown = n &&& k.wordSize.mask := by
    show (k.radix.readDigits? (k.radix.writeChars _)).getD 0 = _
    rw [Radix.writeChars, k.radix.readDigits?_write, UInt64.ofNat_toNat]
    rfl
  have hvalue : (k.display n).value = n &&& k.wordSize.mask := by
    rw [value, hshown]
    show n &&& k.wordSize.mask &&& k.wordSize.mask = _
    rw [UInt64.and_assoc, UInt64.and_self]
  rw [hvalue]
  rfl

/-- The keys after which the display holds a word of the selected size, if they are obeyed. -/
def Displays (k : Keypad) : Key → Prop
  | .equals => k.pending ≠ none
  | .operator op => op = .not
  | .complement => True
  | .wordSize _ => True
  | .digit _ => False
  | .clear => False
  | .radix _ => False

/-- Such a key displays a number. -/
theorem exists_display {key : Key} (hkey : k.Displays key) (hdone : (k.press key).2 = .done) :
    ∃ k' n, (k.press key).1 = display k' n := by
  cases key with
  | digit c => exact hkey.elim
  | clear => exact hkey.elim
  | radix r => exact hkey.elim
  | operator op =>
      obtain rfl : op = .not := hkey
      exact ⟨{ k with pending := none }, ~~~k.value, rfl⟩
  | complement => exact ⟨{ k with pending := none }, ~~~k.value, rfl⟩
  | equals =>
      obtain ⟨⟨a, op⟩, hpending⟩ := Option.ne_none_iff_exists'.mp hkey
      simp only [press, pressEquals, hpending] at hdone ⊢
      cases happly : op.apply k.wordSize a k.value with
      | error e =>
          rw [happly] at hdone
          cases hdone
      | ok n => exact ⟨{ k with pending := none }, n, rfl⟩
  | wordSize bits =>
      simp only [press, pressWordSize] at hdone ⊢
      cases hbits : WordSize.ofBits bits with
      | error e =>
          rw [hbits] at hdone
          cases hdone
      | ok w => exact ⟨{ k with wordSize := w }, k.shown, rfl⟩

/--
**The display is an error or a canonical numeral.**  After any keys the text that is shown is
either an error, which no base can read, which counts as zero and leaves nothing pending, or the
canonical numeral of some number in the current base, which is read as the number shown.  What is
pending is never a complement.  And a key that completes a pending operation, complements or
selects a size leaves the value of the keypad on the display, written out.
-/
theorem display_run (keys : List Key) :
    let k := (Keypad.start.run keys).1
    (k.entry.text = "Error" ∧ k.pending = none ∧ k.shown = 0 ∧
        k.radix.read k.entry.text = .error (.invalidDigits k.radix "Error") ∨
      k.entry.text ≠ "Error" ∧
        ∃ cs n, k.entry.text = String.ofList cs ∧ Numeral.IsCanonical k.radix.base cs n ∧
          k.radix.read k.entry.text = .ok k.shown ∧ k.shown = UInt64.ofNat n) ∧
    (∀ a op, k.pending = some (a, op) → op ≠ .not) ∧
    ∀ key, k.Displays key → (k.press key).2 = .done →
      (k.press key).1.entry.text = (k.press key).1.radix.write (k.press key).1.value := by
  intro k
  have hsettled : k.Settled := Settled.run (settled_of_pending_eq_none rfl) keys
  have hshows := (Shows.start.run keys).2
  refine ⟨?_, ?_, ?_⟩
  · rcases text_of_showsEntry hshows.entry hshows.radix with
      hfailed | ⟨cs, n, hcs, hn, hread, hword⟩
    · have htext : k.entry.text = "Error" := congrArg Entry.text hfailed
      refine .inl ⟨htext, hsettled hfailed, ?_, htext ▸ read_error k.radix⟩
      rw [shown, hfailed]
    · refine .inr ⟨?_, cs, n, congrArg Entry.text hcs, hn, hread, hword⟩
      intro htext
      rw [htext, read_error] at hread
      cases hread
  · rintro a op hpending rfl
    obtain ⟨-, -, -, -, -, hbinary, -⟩ := pending_run_eq_some.mp hpending
    cases hbinary
  · intro key hkey hdone
    obtain ⟨k', n, hpress⟩ := exists_display hkey hdone
    rw [hpress]
    exact k'.text_display n

/-- A smaller size takes away what does not fit. -/
theorem display_run_narrowed :
    let k := (Keypad.start.run [.digit '3', .digit '0', .digit '0']).1
    let next := (k.press (.wordSize 8)).1
    k.Displays (.wordSize 8) ∧ (k.press (.wordSize 8)).2 = .done ∧
      next.entry.text = next.radix.write next.value ∧ next.entry.text = "44" := by
  intro k next
  have hdone : (k.press (.wordSize 8)).2 = .done := rfl
  exact ⟨trivial, hdone, (display_run _).2.2 (.wordSize 8) trivial hdone, by decide +kernel⟩

end Keypad

end Reckoner
