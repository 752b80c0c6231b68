/-
The first word of a pending operation.

It is folded when the operator is pressed, and so it fits the size that is selected then.
From there on nothing touches it: digits, bases and sizes leave it as it is, and every
other key takes the operation away.  So it fits as long as the size is not smaller than it
was at the operator, and a smaller size hides what does not fit, where the shown word loses
it.
-/
import Reckoner.Proofs.Programmer.Arithmetic
import Reckoner.Proofs.Programmer.Machine

namespace Reckoner

/-- A key leaves a pending operation as it is. -/
def Key.Spares : Key → Prop
  | .digit _ => True
  | .radix _ => True
  | .wordSize _ => True
  | .operator _ => False
  | .equals => False
  | .complement => False
  | .clear => False

namespace Keypad

variable {k : Keypad} {a : UInt64} {op : WordOp}

/-! ### One key -/

/-- The word that an operator keeps: the result of the pending operation, or else the value. -/
def folded (k : Keypad) : Except WordError UInt64 :=
  match k.pending with
  | none => .ok k.value
  | some (a, op) => op.apply k.wordSize a k.value

theorem lt_of_folded (h : k.folded = .ok a) : a.toNat < 2 ^ k.wordSize.bits := by
  unfold folded at h
  split at h
  · cases h
    rw [value, WordSize.toNat_and_mask]
    exact Nat.mod_lt _ (Nat.two_pow_pos _)
  · exact WordOp.lt_of_apply h

theorem pending_press_of_spares (k : Keypad) (key : Key) (h : key.Spares) :
    (k.press key).1.pending = k.pending := by
  cases key with
  | digit c =>
      rw [press, pressDigit]
      dsimp only
      split <;> rfl
  | radix r => rfl
  | wordSize bits =>
      rw [press, pressWordSize]
      split <;> rfl
  | operator op => exact h.elim
  | equals => exact h.elim
  | complement => exact h.elim
  | clear => exact h.elim

theorem pending_pressOperator_eq_some {op' : WordOp} :
    (k.pressOperator op').1.pending = some (a, op) ↔
      op' = op ∧ op.isUnary = false ∧ k.folded = .ok a := by
  unfold pressOperator
  split
  · rename_i hunary
    constructor
    · rintro ⟨⟩
    · rintro ⟨rfl, hbinary, -⟩
      rw [hunary] at hbinary
      cases hbinary
  · rename_i hbinary
    extract_lets first
    have hfirst : first = k.folded := rfl
    rw [hfirst]
    cases k.folded with
    | error e => simp [fail]
    | ok b =>
        simp only [Option.some.injEq, Prod.mk.injEq, Except.ok.injEq]
        constructor
        · rintro ⟨rfl, rfl⟩
          exact ⟨rfl, Bool.eq_false_iff.mpr hbinary, rfl⟩
        · rintro ⟨rfl, -, rfl⟩
          exact ⟨rfl, rfl⟩

theorem pending_pressEquals (k : Keypad) : k.pressEquals.1.pending = none := by
  unfold pressEquals
  split
  · assumption
  · split <;> rfl

/-- An operation is pending after a key if it was before, or if the key is its operator. -/
theorem pending_press_eq_some {key : Key} :
    (k.press key).1.pending = some (a, op) ↔
      key.Spares ∧ k.pending = some (a, op) ∨
        key = .operator op ∧ op.isUnary = false ∧ k.folded = .ok a := by
  cases key with
  | digit c => simp [pending_press_of_spares k (.digit c) trivial, Key.Spares]
  | radix r => simp [pending_press_of_spares k (.radix r) trivial, Key.Spares]
  | wordSize bits => simp [pending_press_of_spares k (.wordSize bits) trivial, Key.Spares]
  | operator op' => simpa [Key.Spares, press] using pending_pressOperator_eq_some
  | equals => simp [press, pending_pressEquals, Key.Spares]
  | complement => simp [press, pressComplement, Key.Spares]
  | clear => simp [press, pressClear, Key.Spares]

/-! ### All keys -/

theorem pending_run_of_spares (k : Keypad) {keys : List Key} (h : ∀ key ∈ keys, key.Spares) :
    (k.run keys).1.pending = k.pending := by
  induction keys generalizing k with
  | nil => rfl
  | cons key keys ih =>
      show ((k.press key).1.run keys).1.pending = k.pending
      rw [ih _ fun key hkey => h key (List.mem_cons_of_mem _ hkey),
        k.pending_press_of_spares key (h key List.mem_cons_self)]

/-- The keys end with the operator of an operation, which kept a word, and keys that left the
operation as it is; the first state is that in which the operator was pressed. -/
def KeptAt (pressed : Keypad) (keys : List Key) (a : UInt64) (op : WordOp) : Prop :=
  ∃ before later, keys = before ++ .operator op :: later ∧ pressed = (start.run before).1 ∧
    op.isUnary = false ∧ pressed.folded = .ok a ∧ ∀ key ∈ later, key.Spares

/-- What is pending has been kept by an operator, and whatever has been kept is pending. -/
theorem pending_run_eq_some {keys : List Key} :
    (start.run keys).1.pending = some (a, op) ↔ ∃ pressed, KeptAt pressed keys a op := by
  constructor
  · intro h
    induction keys using List.reverseRecOn with
    | nil => cases h
    | append_singleton keys key ih =>
        rw [run_append] at h
        rcases pending_press_eq_some.mp h with ⟨hkey, hpending⟩ | ⟨rfl, hbinary, hfolded⟩
        · obtain ⟨pressed, before, later, rfl, hpressed, hbinary, hfolded, hlater⟩ := ih hpending
          refine ⟨pressed, before, later ++ [key], by simp, hpressed, hbinary, hfolded, ?_⟩
          intro key' hmem
          rcases List.mem_append.mp hmem with hmem | hmem
          · exact hlater key' hmem
          · rw [List.mem_singleton.mp hmem]
            exact hkey
        · exact ⟨_, keys, [], rfl, rfl, hbinary, hfolded, by simp⟩
  · rintro ⟨pressed, before, later, rfl, rfl, hbinary, hfolded, hlater⟩
    rw [run_append]
    show (((start.run before).1.press (.operator op)).1.run later).1.pending = _
    rw [pending_run_of_spares _ hlater]
    exact pending_press_eq_some.mpr (.inr ⟨rfl, hbinary, hfolded⟩)

/--
**A pending word fits the size at its operator.**  Whatever keys are pressed, the first word of a
pending operation is what its operator folded, and fits the size that was selected there; so it fits
the current size unless that is smaller.  Selecting another size leaves it as it is, and the
operation is applied to what fits.
-/
theorem pending_fits (keys : List Key) (a : UInt64) (op : WordOp)
    (h : (start.run keys).1.pending = some (a, op)) :
    let k := (start.run keys).1
    ∃ pressed, KeptAt pressed keys a op ∧
      a.toNat < 2 ^ pressed.wordSize.bits ∧
      (pressed.wordSize.bits ≤ k.wordSize.bits → a.toNat < 2 ^ k.wordSize.bits) ∧
      (∀ bits, (k.press (.wordSize bits)).1.pending = some (a, op)) ∧
      ∀ b, op.apply k.wordSize a b = op.apply k.wordSize (k.wordSize.low a) b := by
  intro k
  obtain ⟨pressed, hkept⟩ := pending_run_eq_some.mp h
  obtain ⟨-, -, -, -, -, hfolded, -⟩ := id hkept
  have hlt := lt_of_folded hfolded
  refine ⟨pressed, hkept, hlt, fun hle => ?_, fun bits => ?_, fun b => ?_⟩
  · exact Nat.lt_of_lt_of_le hlt (Nat.pow_le_pow_right two_pos hle)
  · rw [k.pending_press_of_spares (.wordSize bits) trivial, h]
  · exact (WordOp.apply_low_left op k.wordSize a b).symm

/-- A word that is kept while the size grows. -/
theorem pending_fits_widened :
    let keys : List Key := [.digit '3', .digit '0', .digit '0', .operator .add, .wordSize 64]
    let k := (start.run keys).1
    k.pending = some (300, .add) ∧
      ∃ pressed, KeptAt pressed keys 300 .add ∧
        (300 : UInt64).toNat < 2 ^ pressed.wordSize.bits ∧
        (pressed.wordSize.bits ≤ k.wordSize.bits → (300 : UInt64).toNat < 2 ^ k.wordSize.bits) ∧
        (∀ bits, (k.press (.wordSize bits)).1.pending = some (300, .add)) ∧
        ∀ b, WordOp.add.apply k.wordSize 300 b =
          WordOp.add.apply k.wordSize (k.wordSize.low 300) b := by
  intro keys k
  have hpending : k.pending = some (300, .add) := by decide +kernel
  exact ⟨hpending, pending_fits keys 300 .add hpending⟩

/-- A word of nine bits stays pending when the size shrinks to eight, and when the size grows again
all of them are there; the shown word is cut to eight bits for good. -/
theorem pending_overflows :
    let k := (start.run [.digit '3', .digit '0', .digit '0', .operator .add, .wordSize 8]).1
    k.pending = some (300, .add) ∧ ¬(300 : UInt64).toNat < 2 ^ k.wordSize.bits ∧
      (k.run [.wordSize 16, .digit '1', .equals]).1.entry.text = "301" ∧
      (start.run [.digit '3', .digit '0', .digit '0', .wordSize 8, .wordSize 16]).1.entry.text =
        "44" := by
  decide +kernel

end Keypad

end Reckoner
