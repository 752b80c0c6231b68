/-
The keypad is an integer machine.

The keypad keeps what is entered as text of any length and reads it again at every key.
The machine beside it keeps a word instead, and every key does arithmetic.  The two are
tied together by what the text is: the numeral, in the current base, of some natural
number that wraps around to the machine's word.  Appending a digit multiplies and adds to
that number, so the relation survives every key, also where the entry is too long for a
word, and where it has wrapped around to zero without being a lone zero.
-/
import Reckoner.Programmer.Keypad
import Reckoner.Proofs.Programmer.Word

namespace Reckoner

/-! ### The machine -/

/-- The state of the machine. -/
structure Machine where
  /-- The word that is entered, or nothing after an error. -/
  entry : Option UInt64
  radix : Radix
  wordSize : WordSize
  /-- An operation with its first word. -/
  pending : Option (UInt64 × WordOp)

namespace Machine

/-- The machine as it is switched on. -/
def start : Machine := ⟨some 0, .dec, .bits32, none⟩

/-- The word that is entered; an error counts as zero. -/
def number (m : Machine) : UInt64 := m.entry.getD 0

/-- An error. -/
def fail (m : Machine) : Machine := { m with entry := none, pending := none }

/-- A digit is appended to the number, which wraps around, or replaces an error. -/
def pressDigit (m : Machine) (c : Char) : Machine × Reply :=
  match Numeral.digitIn? m.radix.base c.toUpper with
  | none => (m, .ignored)
  | some d =>
    let n := match m.entry with
      | none => d
      | some n => (n.toNat * m.radix.base + d) % 2 ^ 64
    ({ m with entry := some (UInt64.ofNat n) }, .done)

/-- The complement in the selected size. -/
def pressComplement (m : Machine) : Machine :=
  let n := 2 ^ m.wordSize.bits - 1 - m.number.toNat % 2 ^ m.wordSize.bits
  { m with entry := some (UInt64.ofNat n), pending := none }

/-- The result of the waiting operation, or what is entered if none is waiting. -/
def folded (m : Machine) : Except WordError UInt64 :=
  match m.pending with
  | none => .ok (m.wordSize.low m.number)
  | some (a, op) => op.apply m.wordSize a m.number

/-- An operation between two words waits for the second, after the one that was waiting. -/
def pressOperator (m : Machine) (op : WordOp) : Machine × Reply :=
  if op.isUnary then (m.pressComplement, .done)
  else
    match m.folded with
    | .ok a => ({ m with entry := some 0, pending := some (a, op) }, .done)
    | .error e => (m.fail, .failed e)

/-- The waiting operation is applied. -/
def pressEquals (m : Machine) : Machine × Reply :=
  match m.pending with
  | none => (m, .done)
  | some (a, op) =>
    match op.apply m.wordSize a m.number with
    | .ok n => ({ m with entry := some n, pending := none }, .done)
    | .error e => (m.fail, .failed e)

/-- What a key does. -/
def press (m : Machine) : Key → Machine × Reply
  | .digit c => m.pressDigit c
  | .operator op => m.pressOperator op
  | .equals => m.pressEquals
  | .complement => (m.pressComplement, .done)
  | .clear => ({ m with entry := some 0, pending := none }, .done)
  | .radix r => ({ m with radix := r, entry := some m.number }, .done)
  | .wordSize bits =>
    match WordSize.ofBits bits with
    | .ok w => ({ m with wordSize := w, entry := some (w.low m.number) }, .done)
    | .error e => (m, .failed e)

/-- The state after a sequence of keys, and the reply to each. -/
def run (m : Machine) : List Key → Machine × List Reply
  | [] => (m, [])
  | key :: keys =>
    let (next, reply) := m.press key
    let (last, replies) := next.run keys
    (last, reply :: replies)

theorem run_append (m : Machine) (keys keys' : List Key) :
    m.run (keys ++ keys') =
      (((m.run keys).1.run keys').1, (m.run keys).2 ++ ((m.run keys).1.run keys').2) := by
  induction keys generalizing m with
  | nil => rfl
  | cons key keys ih =>
      show (((m.press key).1.run (keys ++ keys')).1,
        (m.press key).2 :: ((m.press key).1.run (keys ++ keys')).2) = _
      rw [ih]
      rfl

end Machine

theorem Keypad.run_append (k : Keypad) (keys keys' : List Key) :
    k.run (keys ++ keys') =
      (((k.run keys).1.run keys').1, (k.run keys).2 ++ ((k.run keys).1.run keys').2) := by
  induction keys generalizing k with
  | nil => rfl
  | cons key keys ih =>
      show (((k.press key).1.run (keys ++ keys')).1,
        (k.press key).2 :: ((k.press key).1.run (keys ++ keys')).2) = _
      rw [ih]
      rfl

/-! ### What the keypad shows of the machine -/

/-- A shown entry stands for a word: it is the numeral of a number that wraps around to it. -/
inductive ShowsEntry (r : Radix) : Entry → Option UInt64 → Prop
  | failed : ShowsEntry r .failed none
  | numeral (n : Nat) :
      ShowsEntry r (.digits (Numeral.write r.base n)) (some (UInt64.ofNat n))

/-- A keypad shows the state of a machine. -/
structure Shows (k : Keypad) (m : Machine) : Prop where
  entry : ShowsEntry m.radix k.entry m.entry
  radix : k.radix = m.radix
  wordSize : k.wordSize = m.wordSize
  pending : k.pending = m.pending

theorem showsEntry_writeChars (r : Radix) (n : UInt64) :
    ShowsEntry r (.digits (r.writeChars n)) (some n) := by
  have := ShowsEntry.numeral (r := r) n.toNat
  rwa [UInt64.ofNat_toNat] at this

theorem showsEntry_zero (r : Radix) : ShowsEntry r (.digits ['0']) (some 0) := by
  have := ShowsEntry.numeral (r := r) 0
  rwa [Numeral.write_zero] at this

namespace Shows

variable {k : Keypad} {m : Machine}

/-- The shown number is the one that is entered. -/
theorem shown_eq (h : Shows k m) : k.shown = m.number := by
  obtain ⟨entry, radix, wordSize, pending⟩ := k
  obtain ⟨entry', radix', wordSize', pending'⟩ := m
  obtain ⟨hentry, hradix, -, -⟩ := h
  simp only at hentry hradix
  subst hradix
  cases hentry with
  | failed => rfl
  | numeral n =>
      unfold Keypad.shown Machine.number
      simp only [radix.readDigits?_write]

theorem value_eq (h : Shows k m) : k.value = m.wordSize.low m.number := by
  rw [Keypad.value, h.shown_eq, h.wordSize, WordSize.and_mask]

theorem start : Shows Keypad.start Machine.start :=
  ⟨showsEntry_zero .dec, rfl, rfl, rfl⟩

/-! ### One lemma for each key -/

theorem fail (h : Shows k m) : Shows k.fail m.fail :=
  ⟨.failed, h.radix, h.wordSize, rfl⟩

/-- A digit goes to the end of the numeral, unless that is a lone zero. -/
theorem pressDigit (h : Shows k m) (c : Char) :
    (k.pressDigit c).2 = (m.pressDigit c).2 ∧ Shows (k.pressDigit c).1 (m.pressDigit c).1 := by
  obtain ⟨entry, radix, wordSize, pending⟩ := k
  obtain ⟨entry', radix', wordSize', pending'⟩ := m
  obtain ⟨hentry, hradix, hsize, hpending⟩ := h
  simp only at hentry hradix hsize hpending
  subst hradix hsize hpending
  unfold Keypad.pressDigit Machine.pressDigit
  rcases hd : Numeral.digitIn? radix.base c.toUpper with _ | d
  · have hrejects : ¬ radix.accepts c.toUpper = true := by simp [Radix.accepts, hd]
    simp only [if_neg hrejects]
    exact ⟨trivial, hentry, rfl, rfl, rfl⟩
  · have haccepts : radix.accepts c.toUpper = true := by simp [Radix.accepts, hd]
    simp only [if_pos haccepts]
    have hlt := (Numeral.digitIn?_eq_some.mp hd).2
    have hchar := Numeral.digitChar_of_digitIn? hd
    have hsingle : ShowsEntry radix (.digits [c.toUpper]) (some (UInt64.ofNat d)) := by
      rw [← hchar, ← Numeral.write_of_lt radix.one_lt_base hlt]
      exact .numeral d
    refine ⟨trivial, ?_, rfl, rfl, rfl⟩
    cases hentry with
    | failed => exact hsingle
    | numeral n =>
        have hword : UInt64.ofNat (((UInt64.ofNat n).toNat * radix.base + d) % 2 ^ 64)
            = UInt64.ofNat (n * radix.base + d) := by
          rw [← UInt64.toNat_inj]
          simp only [UInt64.toNat_ofNat']
          simp [Nat.add_mod, Nat.mul_mod]
        simp only [hword]
        by_cases h0 : n = 0
        · rw [if_pos ((Numeral.write_eq_zero_iff radix.one_lt_base radix.base_le).mpr h0), h0,
            Nat.zero_mul, Nat.zero_add]
          exact hsingle
        · rw [if_neg fun h => h0 ((Numeral.write_eq_zero_iff radix.one_lt_base radix.base_le).mp h),
            ← hchar, ← Numeral.write_mul_add radix.one_lt_base (Nat.pos_of_ne_zero h0) hlt]
          exact .numeral _

theorem pressComplement (h : Shows k m) : Shows k.pressComplement m.pressComplement := by
  refine ⟨?_, h.radix, h.wordSize, rfl⟩
  have hword : ~~~k.value &&& k.wordSize.mask =
      UInt64.ofNat (2 ^ m.wordSize.bits - 1 - m.number.toNat % 2 ^ m.wordSize.bits) := by
    rw [h.value_eq, h.wordSize, WordSize.not_and_mask]
  show ShowsEntry m.radix (.digits (k.radix.writeChars (~~~k.value &&& k.wordSize.mask))) _
  rw [hword, h.radix]
  exact showsEntry_writeChars m.radix _

theorem pressOperator (h : Shows k m) (op : WordOp) :
    (k.pressOperator op).2 = (m.pressOperator op).2 ∧
      Shows (k.pressOperator op).1 (m.pressOperator op).1 := by
  unfold Keypad.pressOperator Machine.pressOperator
  by_cases hunary : op.isUnary = true
  · rw [if_pos hunary, if_pos hunary]
    exact ⟨rfl, h.pressComplement⟩
  · rw [if_neg hunary, if_neg hunary, Machine.folded]
    simp only [h.pending, h.wordSize, h.value_eq]
    cases m.pending with
    | none => exact ⟨rfl, showsEntry_zero m.radix, h.radix, rfl, rfl⟩
    | some p =>
        simp only [WordOp.apply_low_right]
        cases p.2.apply m.wordSize p.1 m.number with
        | ok a => exact ⟨rfl, showsEntry_zero m.radix, h.radix, rfl, rfl⟩
        | error e => exact ⟨rfl, h.fail⟩

theorem pressEquals (h : Shows k m) :
    k.pressEquals.2 = m.pressEquals.2 ∧ Shows k.pressEquals.1 m.pressEquals.1 := by
  rw [Keypad.pressEquals, Machine.pressEquals, h.pending]
  cases hpending : m.pending with
  | none => exact ⟨rfl, h⟩
  | some p =>
      obtain ⟨a, op⟩ := p
      simp only [h.wordSize, h.value_eq, WordOp.apply_low_right]
      cases happly : op.apply m.wordSize a m.number with
      | error e => exact ⟨rfl, h.fail⟩
      | ok n =>
          refine ⟨rfl, ?_, h.radix, h.wordSize, rfl⟩
          show ShowsEntry m.radix (.digits (k.radix.writeChars (n &&& k.wordSize.mask))) (some n)
          rw [h.radix, h.wordSize, WordSize.and_mask, WordOp.low_of_apply happly]
          exact showsEntry_writeChars m.radix n

theorem pressRadix (h : Shows k m) (r : Radix) :
    Shows (k.pressRadix r) { m with radix := r, entry := some m.number } := by
  refine ⟨?_, rfl, h.wordSize, h.pending⟩
  show ShowsEntry r (.digits (r.writeChars k.shown)) (some m.number)
  rw [h.shown_eq]
  exact showsEntry_writeChars r _

theorem pressWordSize (h : Shows k m) (bits : Nat) :
    (k.pressWordSize bits).2 = (m.press (.wordSize bits)).2 ∧
      Shows (k.pressWordSize bits).1 (m.press (.wordSize bits)).1 := by
  rw [Keypad.pressWordSize, Machine.press]
  cases hbits : WordSize.ofBits bits with
  | error e => exact ⟨rfl, h⟩
  | ok w =>
      refine ⟨rfl, ?_, h.radix, rfl, h.pending⟩
      show ShowsEntry m.radix (.digits (k.radix.writeChars (k.shown &&& w.mask))) _
      rw [h.radix, h.shown_eq, WordSize.and_mask]
      exact showsEntry_writeChars m.radix _

/-! ### Runs -/

/-- A key has the same reply on both sides, and what is shown stays what is there. -/
theorem press (h : Shows k m) (key : Key) :
    (k.press key).2 = (m.press key).2 ∧ Shows (k.press key).1 (m.press key).1 := by
  cases key with
  | digit c => exact h.pressDigit c
  | operator op => exact h.pressOperator op
  | equals => exact h.pressEquals
  | complement => exact ⟨rfl, h.pressComplement⟩
  | clear => exact ⟨rfl, showsEntry_zero m.radix, h.radix, h.wordSize, rfl⟩
  | radix r => exact ⟨rfl, h.pressRadix r⟩
  | wordSize bits => exact h.pressWordSize bits

theorem run : ∀ (keys : List Key) {k : Keypad} {m : Machine}, Shows k m →
    (k.run keys).2 = (m.run keys).2 ∧ Shows (k.run keys).1 (m.run keys).1 := by
  intro keys
  induction keys with
  | nil => intro k m h; exact ⟨rfl, h⟩
  | cons key keys ih =>
      intro k m h
      obtain ⟨hreply, hnext⟩ := h.press key
      obtain ⟨hreplies, hlast⟩ := ih hnext
      refine ⟨?_, hlast⟩
      show (k.press key).2 :: ((k.press key).1.run keys).2 =
        (m.press key).2 :: ((m.press key).1.run keys).2
      rw [hreply, hreplies]

end Shows

/--
**The keypad is the machine.**  Whatever keys are pressed, both give the same replies, and
afterwards the keypad has the base, the size and the pending operation of the machine; its
value is the machine's word in the selected size, and it shows an error exactly after an
error of the machine.  Otherwise it shows the numeral of a number that wraps around to the
machine's word, and what it shows is read as that word.
-/
theorem keypad_run_eq_machine_run (keys : List Key) :
    let k := (Keypad.start.run keys).1
    let m := (Machine.start.run keys).1
    (Keypad.start.run keys).2 = (Machine.start.run keys).2 ∧
      k.radix = m.radix ∧ k.wordSize = m.wordSize ∧ k.pending = m.pending ∧
      k.value = UInt64.ofNat ((m.entry.getD 0).toNat % 2 ^ m.wordSize.bits) ∧
      match m.entry with
      | none => k.entry.text = "Error"
      | some word =>
        m.radix.read k.entry.text = .ok word ∧
          ∃ n, k.entry.text = String.ofList (Numeral.write m.radix.base n) ∧
            n % 2 ^ 64 = word.toNat := by
  intro k m
  obtain ⟨hreplies, h⟩ := Shows.start.run keys
  refine ⟨hreplies, h.radix, h.wordSize, h.pending, h.value_eq, ?_⟩
  have hentry : ShowsEntry m.radix k.entry m.entry := h.entry
  revert hentry
  generalize m.entry = entry
  generalize k.entry = shown
  intro hentry
  cases hentry with
  | failed => rfl
  | numeral n =>
      have hread := Numeral.read?_write m.radix.one_lt_base m.radix.base_le n
      exact ⟨m.radix.read_ofList hread, n, rfl, by simp⟩

end Reckoner
