/-
Failures of the keypad, and what is left of them.

A key that is refused changes nothing.  A division by zero is on the display and nowhere
else: the base and the size stay, nothing is pending, and the error counts as zero.  So the
calculator goes on as one that has been cleared, key by key.  The keys fall into two kinds,
those that give both the same state and those that neither of them obeys, and the run of
any keys follows by induction on them.
-/
import Reckoner.Proofs.Programmer.Word
import Reckoner.Programmer.Keypad

namespace Reckoner

/-- A key puts something new on a display of the given base that shows an error. -/
def Key.Renews (r : Radix) : Key → Prop
  | .digit c => r.accepts c = true
  | .operator _ => True
  | .equals => False
  | .complement => True
  | .clear => True
  | .radix _ => True
  | .wordSize bits => ∃ w : WordSize, w.bits = bits

namespace WordSize

theorem ofBits_bits (w : WordSize) : ofBits w.bits = .ok w := by
  cases w <;> rfl

theorem ofBits_eq_error {bits : Nat} (h : ¬∃ w : WordSize, w.bits = bits) :
    ofBits bits = .error (.unsupportedWordSize bits) := by
  have hnone : all.find? (fun w => w.bits == bits) = none := by
    rw [List.find?_eq_none]
    intro w _ hw
    exact h ⟨w, beq_iff_eq.mp hw⟩
  rw [ofBits, hnone]

end WordSize

theorem Radix.accepts_toUpper (r : Radix) (c : Char) : r.accepts c.toUpper = r.accepts c := by
  rw [accepts, accepts, Numeral.digitIn?_toUpper]

namespace Keypad

/-! ### Keys that are refused -/

theorem press_digit_of_rejects (k : Keypad) {c : Char} (h : k.radix.accepts c = false) :
    k.press (.digit c) = (k, .ignored) := by
  rw [press, pressDigit]
  simp only [Radix.accepts_toUpper, h]
  rfl

theorem press_digit_of_accepts (k : Keypad) {c : Char} (h : k.radix.accepts c = true) :
    (k.press (.digit c)).2 = .done := by
  rw [press, pressDigit]
  simp only [Radix.accepts_toUpper, h]
  rfl

theorem press_wordSize_of_unsupported (k : Keypad) {bits : Nat}
    (h : ¬∃ w : WordSize, w.bits = bits) :
    k.press (.wordSize bits) = (k, .failed (.unsupportedWordSize bits)) := by
  rw [press, pressWordSize, WordSize.ofBits_eq_error h]

/-- A division by zero is told by an operator or by equals, and leaves an error. -/
theorem press_eq_fail {k : Keypad} {key : Key} (h : (k.press key).2 = .failed .divisionByZero) :
    (k.press key).1 = k.fail ∧ (key = .equals ∨ ∃ op, key = .operator op) := by
  cases key with
  | digit c =>
      simp only [press, pressDigit] at h
      split at h <;> cases h
  | operator op =>
      refine ⟨?_, .inr ⟨op, rfl⟩⟩
      simp only [press, pressOperator] at h ⊢
      split at h
      · cases h
      · rename_i hbinary
        rw [if_neg hbinary]
        split at h
        · cases h
        · rfl
  | equals =>
      refine ⟨?_, .inl rfl⟩
      simp only [press, pressEquals] at h ⊢
      split at h
      · cases h
      · split at h
        · cases h
        · rfl
  | complement => cases h
  | clear => cases h
  | radix r => cases h
  | wordSize bits =>
      simp only [press, pressWordSize] at h
      by_cases hbits : ∃ w : WordSize, w.bits = bits
      · obtain ⟨w, rfl⟩ := hbits
        rw [WordSize.ofBits_bits] at h
        cases h
      · rw [WordSize.ofBits_eq_error hbits] at h
        cases h

/-! ### After an error -/

theorem shown_pressClear (k : Keypad) : k.pressClear.shown = 0 := by
  have hzero : k.radix.readDigits? ['0'] = some 0 := by
    cases k.radix <;> rfl
  show (k.radix.readDigits? ['0']).getD 0 = 0
  rw [hzero]
  rfl

/-- An error counts as the zero that clearing leaves. -/
theorem shown_fail (k : Keypad) : k.fail.shown = k.pressClear.shown := by
  rw [shown_pressClear]
  rfl

theorem value_fail (k : Keypad) : k.fail.value = k.pressClear.value := by
  rw [value, value, shown_fail]
  rfl

/-- A key that puts something new on the display does not see what was there. -/
theorem press_fail_of_renews (k : Keypad) {key : Key} (h : key.Renews k.radix) :
    k.fail.press key = k.pressClear.press key := by
  cases key with
  | digit c =>
      have hfail : k.fail.radix.accepts c = true := h
      have hclear : k.pressClear.radix.accepts c = true := h
      rw [press, press, pressDigit, pressDigit]
      simp only [Radix.accepts_toUpper, hfail, hclear]
      rfl
  | operator op =>
      rw [press, press, pressOperator, pressOperator]
      split
      · rw [pressComplement, pressComplement, value_fail]
        rfl
      · show ({ k.fail with entry := .digits ['0'], pending := some (k.fail.value, op) },
            Reply.done) =
          ({ k.pressClear with entry := .digits ['0'], pending := some (k.pressClear.value, op) },
            .done)
        rw [value_fail]
        rfl
  | equals => exact h.elim
  | complement =>
      rw [press, press, pressComplement, pressComplement, value_fail]
      rfl
  | clear => rfl
  | radix r =>
      rw [press, press, pressRadix, pressRadix, shown_fail]
      rfl
  | wordSize bits =>
      obtain ⟨w, rfl⟩ := h
      rw [press, press, pressWordSize, pressWordSize, WordSize.ofBits_bits, shown_fail]
      rfl

/-- Any other key is not obeyed, or there is nothing for it to do. -/
theorem press_of_not_renews (k : Keypad) {key : Key} (h : ¬key.Renews k.radix) :
    ∃ reply, k.fail.press key = (k.fail, reply) ∧
      k.pressClear.press key = (k.pressClear, reply) := by
  cases key with
  | digit c =>
      have hrejects : k.radix.accepts c = false := Bool.eq_false_iff.mpr h
      exact ⟨.ignored, k.fail.press_digit_of_rejects hrejects,
        k.pressClear.press_digit_of_rejects hrejects⟩
  | equals => exact ⟨.done, rfl, rfl⟩
  | wordSize bits =>
      exact ⟨_, k.fail.press_wordSize_of_unsupported h,
        k.pressClear.press_wordSize_of_unsupported h⟩
  | operator op => exact (h trivial).elim
  | complement => exact (h trivial).elim
  | clear => exact (h trivial).elim
  | radix r => exact (h trivial).elim

/-! ### Runs after an error -/

theorem run_cons (k : Keypad) (key : Key) (keys : List Key) :
    k.run (key :: keys) =
      (((k.press key).1.run keys).1, (k.press key).2 :: ((k.press key).1.run keys).2) := rfl

/-- As long as no key puts something new on the display, the error stays there. -/
theorem run_of_not_renews (k : Keypad) {keys : List Key}
    (h : ∀ key ∈ keys, ¬key.Renews k.radix) :
    ∃ replies, k.fail.run keys = (k.fail, replies) ∧
      k.pressClear.run keys = (k.pressClear, replies) := by
  induction keys with
  | nil => exact ⟨[], rfl, rfl⟩
  | cons key keys ih =>
      obtain ⟨reply, hfail, hclear⟩ := k.press_of_not_renews (h key List.mem_cons_self)
      obtain ⟨replies, hfails, hclears⟩ := ih fun key hkey => h key (List.mem_cons_of_mem _ hkey)
      refine ⟨reply :: replies, ?_, ?_⟩
      · rw [run_cons, hfail, hfails]
      · rw [run_cons, hclear, hclears]

/-- Once a key has done so, nothing is left of the error. -/
theorem run_fail_of_renews (k : Keypad) {keys : List Key}
    (h : ∃ key ∈ keys, key.Renews k.radix) : k.fail.run keys = k.pressClear.run keys := by
  induction keys with
  | nil => simp at h
  | cons key keys ih =>
      rw [run_cons, run_cons]
      by_cases hkey : key.Renews k.radix
      · rw [k.press_fail_of_renews hkey]
      · obtain ⟨reply, hfail, hclear⟩ := k.press_of_not_renews hkey
        have hkeys : ∃ key ∈ keys, key.Renews k.radix := by
          obtain ⟨key', hmem, hrenews⟩ := h
          rcases List.mem_cons.mp hmem with rfl | hmem
          · exact (hkey hrenews).elim
          · exact ⟨key', hmem, hrenews⟩
        rw [hfail, hclear, ih hkeys]

/-- An error and a cleared display cannot be told apart by replies, values and what is pending. -/
theorem run_fail_alike (k : Keypad) (keys : List Key) :
    (k.fail.run keys).2 = (k.pressClear.run keys).2 ∧
      (k.fail.run keys).1.value = (k.pressClear.run keys).1.value ∧
      (k.fail.run keys).1.pending = (k.pressClear.run keys).1.pending := by
  by_cases h : ∃ key ∈ keys, key.Renews k.radix
  · rw [k.run_fail_of_renews h]
    exact ⟨rfl, rfl, rfl⟩
  · have hnone : ∀ key ∈ keys, ¬key.Renews k.radix := fun key hkey hrenews =>
      h ⟨key, hkey, hrenews⟩
    obtain ⟨replies, hfail, hclear⟩ := k.run_of_not_renews hnone
    rw [hfail, hclear]
    exact ⟨rfl, k.value_fail, rfl⟩

/--
**Failures are contained.**  A digit that the base does not have and a size that is not supported
are refused and change nothing.  A division by zero, which an operator or equals tells, keeps the
base and the size; and after it the calculator goes on as if it were cleared, with the same replies,
values and pending operations for all keys to come, and with the same display as well, as soon as
one of them puts something new on it: an accepted digit, an operator, a complement, clearing, or a
change of the base or the size.
-/
theorem failures_contained (k : Keypad) :
    (∀ c, ((k.press (.digit c)).2 = .ignored ↔ k.radix.accepts c = false) ∧
      ((k.press (.digit c)).2 = .ignored → (k.press (.digit c)).1 = k)) ∧
    (∀ bits, ((∃ e, (k.press (.wordSize bits)).2 = .failed e) ↔ ¬∃ w : WordSize, w.bits = bits) ∧
      ∀ e, (k.press (.wordSize bits)).2 = .failed e →
        (k.press (.wordSize bits)).1 = k ∧ e = .unsupportedWordSize bits) ∧
    ∀ key, (k.press key).2 = .failed .divisionByZero →
      let failed := (k.press key).1
      let cleared := (failed.press .clear).1
      (key = .equals ∨ ∃ op, key = .operator op) ∧
      failed.entry.text = "Error" ∧ failed.radix = k.radix ∧ failed.wordSize = k.wordSize ∧
      ∀ keys, (failed.run keys).2 = (cleared.run keys).2 ∧
        (failed.run keys).1.value = (cleared.run keys).1.value ∧
        (failed.run keys).1.pending = (cleared.run keys).1.pending ∧
        ((∃ key ∈ keys, key.Renews failed.radix) → (failed.run keys).1 = (cleared.run keys).1) := by
  refine ⟨fun c => ?_, fun bits => ?_, fun key hkey => ?_⟩
  · by_cases h : k.radix.accepts c = true
    · simp [k.press_digit_of_accepts h, h]
    · have hrejects : k.radix.accepts c = false := Bool.eq_false_iff.mpr h
      simp [k.press_digit_of_rejects hrejects, hrejects]
  · by_cases h : ∃ w : WordSize, w.bits = bits
    · have hdone : (k.press (.wordSize bits)).2 = .done := by
        obtain ⟨w, rfl⟩ := h
        rw [press, pressWordSize, WordSize.ofBits_bits]
      simp [hdone, h]
    · simp [k.press_wordSize_of_unsupported h, h]
  · intro failed cleared
    obtain ⟨hfail, hkeys⟩ := press_eq_fail hkey
    have hfailed : failed = k.fail := hfail
    have hcleared : cleared = k.pressClear := by
      show failed.pressClear = _
      rw [hfailed]
      rfl
    rw [hfailed, hcleared]
    refine ⟨hkeys, rfl, rfl, rfl, fun keys => ?_⟩
    obtain ⟨hreplies, hvalue, hpending⟩ := k.run_fail_alike keys
    exact ⟨hreplies, hvalue, hpending, fun h => by rw [k.run_fail_of_renews h]⟩

/-- Refused keys, and an error that equals and a digit of another base leave on the display until a
digit takes its place. -/
theorem failures_contained_division :
    let k := (start.run [.digit '8', .operator .div]).1
    let failed := (k.press .equals).1
    let cleared := (failed.press .clear).1
    let keys : List Key := [.equals, .digit 'A', .digit '3']
    (k.press (.digit 'A')).1 = k ∧ (k.press (.wordSize 12)).1 = k ∧
      (k.press .equals).2 = .failed .divisionByZero ∧
      (∃ key ∈ keys, key.Renews failed.radix) ∧
      (failed.run keys).1 = (cleared.run keys).1 ∧
      (failed.run keys).1.entry.text = "3" ∧ (failed.run (keys.take 2)).1.entry.text = "Error" := by
  intro k failed cleared keys
  have hignored : (k.press (.digit 'A')).2 = .ignored := by decide +kernel
  have hrefused : (k.press (.wordSize 12)).2 = .failed (.unsupportedWordSize 12) := rfl
  have hfails : (k.press .equals).2 = .failed .divisionByZero := by decide +kernel
  have hrenews : ∃ key ∈ keys, key.Renews failed.radix :=
    ⟨.digit '3', by decide, by show Radix.accepts _ _ = true; decide +kernel⟩
  obtain ⟨hdigit, hsize, hdivision⟩ := failures_contained k
  obtain ⟨-, -, -, -, hruns⟩ := hdivision .equals hfails
  exact ⟨(hdigit 'A').2 hignored, ((hsize 12).2 _ hrefused).1, hfails, hrenews,
    (hruns keys).2.2.2 hrenews, by decide +kernel, by decide +kernel⟩

end Keypad

end Reckoner
