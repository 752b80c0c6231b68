/-
Chains of operations on the keypad, and one operation after the other.

A chain of operations can be typed on the keypad, or each can be evaluated by itself, its
result going into the next one as text.  The keypad is always one operation behind: what
it would fold next is the result that has been written out on the other side.  From this
invariant, kept by an operator and the digits after it, both ways have the same outcome,
and a division by zero is told by the key that folds it.
-/
import Reckoner.Proofs.Programmer.Machine

namespace Reckoner

open Outcome

/-- The keys of a chain: an operator and digits, again and again. -/
def chainKeys (steps : List (WordOp × List Char)) : List Key :=
  steps.flatMap fun s => .operator s.1 :: s.2.map .digit

/-- The outcome of a chain, one operation after the other. -/
def evaluateChain (r : Radix) (w : WordSize) (first : String)
    (steps : List (WordOp × List Char)) : Except WordError String :=
  steps.foldlM
    (fun t s => evaluateWords t s.1.symbol (some (String.ofList s.2)) r w) first

theorem evaluateChain_concat (r : Radix) (w : WordSize) (first : String)
    (before : List (WordOp × List Char)) (s : WordOp × List Char) :
    evaluateChain r w first (before ++ [s]) =
      (evaluateChain r w first before >>= fun t =>
        evaluateWords t s.1.symbol (some (String.ofList s.2)) r w) := by
  simp [evaluateChain, List.foldlM_append]

/-- The operations of a chain take two words, and its digits are digits of the base. -/
def WellTyped (r : Radix) (steps : List (WordOp × List Char)) : Prop :=
  ∀ s ∈ steps, s.1.isUnary = false ∧ ∀ c ∈ s.2, r.accepts c = true

/-- The key that folds the last operation before what is left of a chain. -/
def foldingKey : List (WordOp × List Char) → Key
  | [] => .equals
  | s :: _ => .operator s.1

/-! ### Typing digits -/

/-- The word that digits denote. -/
def Radix.word (r : Radix) (v : List Char) : UInt64 := (r.readDigits? v).getD 0

theorem Radix.read_word {r : Radix} {v : List Char} (h : ∀ c ∈ v, r.accepts c = true) :
    r.read (String.ofList v) = .ok (r.word v) := by
  obtain ⟨n, hn⟩ := Numeral.read?_of_isSome h
  rw [read_ofList hn, word, readDigits?_eq, hn]
  rfl

theorem Radix.read_write (r : Radix) (n : UInt64) : r.read (r.write n) = .ok n := by
  have h := Numeral.read?_write r.one_lt_base r.base_le n.toNat
  rw [write, writeChars, read_ofList h, UInt64.ofNat_toNat]

/-- An operation that is evaluated by itself reads both of its words. -/
theorem evaluateWords_eq {r : Radix} {w : WordSize} {t : String} {a : UInt64}
    (ht : r.read t = .ok a) {op : WordOp} (hop : op.isUnary = false) {v : List Char}
    (hv : ∀ c ∈ v, r.accepts c = true) :
    evaluateWords t op.symbol (some (String.ofList v)) r w =
      (op.apply w a (r.word v)).map r.write := by
  have hname : WordOp.ofName op.symbol = .ok op := by
    cases op <;> rfl
  have hread := Radix.read_word hv
  simp only [evaluateWords, hname, bind, Except.bind, ht, hop, hread]
  cases op.apply w a (r.word v) <;> rfl

namespace Machine

/-- The keys lead from one state to another, and each is obeyed. -/
def Reaches (m : Machine) (keys : List Key) (m' : Machine) : Prop :=
  (m.run keys).1 = m' ∧ ∀ reply ∈ (m.run keys).2, reply = .done

theorem Reaches.append {m m₁ m₂ : Machine} {keys keys' : List Key} (h : m.Reaches keys m₁)
    (h' : m₁.Reaches keys' m₂) : m.Reaches (keys ++ keys') m₂ := by
  obtain ⟨rfl, hdone⟩ := h
  obtain ⟨rfl, hdone'⟩ := h'
  refine ⟨by rw [run_append], ?_⟩
  rw [run_append]
  intro reply hreply
  rcases List.mem_append.mp hreply with hreply | hreply
  · exact hdone reply hreply
  · exact hdone' reply hreply

theorem Reaches.of_press {m m' : Machine} {key : Key} (h : m.press key = (m', .done)) :
    m.Reaches [key] m' := by
  refine ⟨?_, ?_⟩
  · show (m.press key).1 = m'
    rw [h]
  · intro reply hreply
    have : reply = (m.press key).2 := by simpa [run] using hreply
    rw [this, h]

/-- A digit multiplies and adds. -/
theorem press_digit {m : Machine} {n : UInt64} {c : Char} {d : Nat} (hentry : m.entry = some n)
    (hd : Numeral.digitIn? m.radix.base c = some d) :
    m.press (.digit c) =
      ({ m with entry := some (n * m.radix.base.toUInt64 + d.toUInt64) }, .done) := by
  have hword : UInt64.ofNat ((n.toNat * m.radix.base + d) % 2 ^ 64)
      = n * m.radix.base.toUInt64 + d.toUInt64 := by
    have hwrap : UInt64.ofNat ((n.toNat * m.radix.base + d) % 2 ^ 64)
        = UInt64.ofNat (n.toNat * m.radix.base + d) := by
      simp [← UInt64.toNat_inj]
    rw [hwrap, UInt64.ofNat_add, UInt64.ofNat_mul, UInt64.ofNat_toNat]
  rw [press, pressDigit, Numeral.digitIn?_toUpper, hd]
  simp only [hentry, hword]

/-- Digits are read into the entered word. -/
theorem reaches_digits : ∀ (v : List Char) {m : Machine} {n : UInt64}, m.entry = some n →
    (∀ c ∈ v, m.radix.accepts c = true) →
    ∃ n', v.foldlM (fun n c => (Numeral.digitIn? m.radix.base c).map fun d =>
        n * m.radix.base.toUInt64 + d.toUInt64) n = some n' ∧
      m.Reaches (v.map .digit) { m with entry := some n' } := by
  intro v
  induction v with
  | nil =>
      intro m n hentry _
      refine ⟨n, rfl, ?_, by simp [run]⟩
      rw [← hentry]
      rfl
  | cons c v ih =>
      intro m n hentry hv
      obtain ⟨d, hd⟩ := Option.isSome_iff_exists.mp (hv c (by simp))
      obtain ⟨n', hn', hreaches⟩ :=
        @ih { m with entry := some (n * m.radix.base.toUInt64 + d.toUInt64) } _ rfl
          fun c hc => hv c (by simp [hc])
      refine ⟨n', ?_, (Reaches.of_press (press_digit hentry hd)).append hreaches⟩
      rw [List.foldlM_cons, hd]
      exact hn'

/-- Digits that are typed after a zero are the entered word. -/
theorem reaches_word {m : Machine} {v : List Char} (hentry : m.entry = some 0)
    (hv : ∀ c ∈ v, m.radix.accepts c = true) :
    m.Reaches (v.map .digit) { m with entry := some (m.radix.word v) } := by
  obtain ⟨n, hn, hreaches⟩ := reaches_digits v hentry hv
  have hword : m.radix.word v = n := by
    rw [Radix.word, Radix.readDigits?, hn]
    rfl
  rwa [hword]

/-! ### One operation -/

theorem low_of_folded {m : Machine} {n : UInt64} (h : m.folded = .ok n) :
    m.wordSize.low n = n := by
  unfold folded at h
  split at h
  · cases h
    exact m.wordSize.low_low _
  · exact WordOp.low_of_apply h

theorem error_of_folded {m : Machine} {e : WordError} (h : m.folded = .error e) :
    e = .divisionByZero := by
  unfold folded at h
  split at h
  · cases h
  · exact WordOp.error_of_apply h

/-- The next key to fold folds to the number that a text denotes. -/
structure Computes (m : Machine) (r : Radix) (w : WordSize) (t : String) : Prop where
  radix : m.radix = r
  wordSize : m.wordSize = w
  folded : ∃ b, r.read t = .ok b ∧ m.folded = .ok (w.low b)

/-- An operator and digits lead to where the operation is pending, with the outcome that it has
by itself. -/
theorem Computes.reaches {m : Machine} {r : Radix} {w : WordSize} {t : String}
    (h : m.Computes r w t) {op : WordOp} (hop : op.isUnary = false) {v : List Char}
    (hv : ∀ c ∈ v, r.accepts c = true) :
    ∃ m', m.Reaches (.operator op :: v.map .digit) m' ∧
      m'.radix = r ∧ m'.wordSize = w ∧ m'.pending ≠ none ∧
      m'.folded.map r.write = evaluateWords t op.symbol (some (String.ofList v)) r w := by
  obtain ⟨hradix, hsize, b, hread, hfolded⟩ := h
  subst hradix hsize
  have hpress : m.press (.operator op) =
      ({ m with entry := some 0, pending := some (m.wordSize.low b, op) }, .done) := by
    rw [press, pressOperator, hop, hfolded]
    rfl
  refine ⟨_, (Reaches.of_press hpress).append (reaches_word rfl hv), rfl, rfl, ?_, ?_⟩
  · exact Option.some_ne_none _
  · rw [evaluateWords_eq hread hop hv, ← WordOp.apply_low_left]
    rfl

/-- So the operation after it can be typed as well. -/
theorem computes_of_folded {m : Machine} {r : Radix} {w : WordSize} {t : String}
    (hradix : m.radix = r) (hsize : m.wordSize = w) (h : m.folded.map r.write = .ok t) :
    m.Computes r w t := by
  obtain ⟨n, hfolded, rfl⟩ := map_eq_ok.mp h
  refine ⟨hradix, hsize, n, r.read_write n, ?_⟩
  rw [hfolded, ← hsize, low_of_folded hfolded]

/-! ### Chains of operations -/

/-- A chain whose operations have results is typed without an error, and the text of its result
is what would be folded next. -/
theorem Computes.reaches_chain {r : Radix} {w : WordSize} :
    ∀ (steps : List (WordOp × List Char)) {m : Machine} {t t' : String}, m.Computes r w t →
      WellTyped r steps → evaluateChain r w t steps = .ok t' →
      ∃ m', m.Reaches (chainKeys steps) m' ∧ m'.Computes r w t' := by
  intro steps
  induction steps with
  | nil =>
      intro m t t' h _ heval
      cases heval
      exact ⟨m, ⟨rfl, by simp [chainKeys, run]⟩, h⟩
  | cons s steps ih =>
      intro m t t' h htyped heval
      obtain ⟨t₁, heval₁, heval'⟩ := bind_eq_ok.mp heval
      obtain ⟨hop, hv⟩ := htyped s (by simp)
      obtain ⟨m₁, hreaches, hradix, hsize, -, hfolded⟩ := h.reaches hop hv
      obtain ⟨m', hreaches', h'⟩ := ih
        (computes_of_folded hradix hsize (hfolded.trans heval₁))
        (fun s hs => htyped s (by simp [hs])) heval'
      exact ⟨m', hreaches.append hreaches', h'⟩

/-- After the digits before a chain, and a chain whose operations have results, one more operation
is pending with the outcome that it has by itself. -/
theorem reaches_last {r : Radix} {w : WordSize} {first : List Char}
    {before : List (WordOp × List Char)} {s : WordOp × List Char} {t : String}
    (hfirst : ∀ c ∈ first, r.accepts c = true) (htyped : WellTyped r (before ++ [s]))
    (heval : evaluateChain r w (String.ofList first) before = .ok t) :
    ∃ m', Reaches ⟨some 0, r, w, none⟩ (first.map .digit ++ chainKeys (before ++ [s])) m' ∧
      m'.radix = r ∧ m'.wordSize = w ∧ m'.pending ≠ none ∧
      m'.folded.map r.write =
        evaluateWords t s.1.symbol (some (String.ofList s.2)) r w := by
  have hcomputes : Computes ⟨some (r.word first), r, w, none⟩ r w (String.ofList first) :=
    ⟨rfl, rfl, r.word first, Radix.read_word hfirst, rfl⟩
  obtain ⟨m₁, hreaches, h₁⟩ := hcomputes.reaches_chain before
    (fun s hs => htyped s (by simp [hs])) heval
  obtain ⟨hop, hv⟩ := htyped s (by simp)
  obtain ⟨m', hreaches', h'⟩ := h₁.reaches hop hv
  have hkeys : chainKeys (before ++ [s]) =
      chainKeys before ++ (.operator s.1 :: s.2.map .digit) := by
    simp [chainKeys]
  refine ⟨m', ?_, h'⟩
  rw [hkeys]
  exact (reaches_word rfl hfirst).append (hreaches.append hreaches')

end Machine

/-! ### The key that folds -/

namespace Shows

variable {k : Keypad} {m : Machine}

/-- What the keypad would fold is what the machine would fold. -/
theorem apply_value (h : Shows k m) {a : UInt64} {op : WordOp}
    (hpending : k.pending = some (a, op)) : op.apply k.wordSize a k.value = m.folded := by
  rw [Machine.folded, ← h.pending, hpending, h.wordSize, h.value_eq]
  exact WordOp.apply_low_right op _ _ _

/-- The result is shown. -/
theorem equals_of_folded (h : Shows k m) (hpending : m.pending ≠ none) {n : UInt64}
    (hfolded : m.folded = .ok n) :
    (k.press .equals).2 = .done ∧ (k.press .equals).1.pending = none ∧
      (k.press .equals).1.entry.text = m.radix.write n := by
  obtain ⟨⟨a, op⟩, hp⟩ := Option.ne_none_iff_exists'.mp (h.pending ▸ hpending)
  rw [Keypad.press, Keypad.pressEquals, hp]
  simp only [(h.apply_value hp).trans hfolded]
  refine ⟨trivial, trivial, ?_⟩
  show k.radix.write (n &&& k.wordSize.mask) = _
  rw [WordSize.and_mask, h.radix, h.wordSize, Machine.low_of_folded hfolded]

/-- An error is told by the next key that folds, and shown. -/
theorem foldingKey_of_folded (h : Shows k m) (hpending : m.pending ≠ none) {e : WordError}
    (hfolded : m.folded = .error e) {r : Radix} {after : List (WordOp × List Char)}
    (htyped : WellTyped r after) :
    k.press (foldingKey after) = (k.fail, .failed e) := by
  obtain ⟨⟨a, op⟩, hp⟩ := Option.ne_none_iff_exists'.mp (h.pending ▸ hpending)
  cases after with
  | nil =>
      rw [foldingKey, Keypad.press, Keypad.pressEquals, hp]
      simp only [(h.apply_value hp).trans hfolded]
  | cons s after =>
      have hop := (htyped s (by simp)).1
      rw [foldingKey, Keypad.press, Keypad.pressOperator, hop, hp]
      simp only [(h.apply_value hp).trans hfolded]
      rfl

end Shows

/-- A keypad that is cleared, and switched to a base and a size, is at the start of a chain. -/
theorem shows_ready (k : Keypad) (r : Radix) (w : WordSize) :
    Shows (k.run [.clear, .radix r, .wordSize w.bits]).1 ⟨some 0, r, w, none⟩ := by
  have hclear : Shows k.pressClear ⟨some 0, k.radix, k.wordSize, none⟩ :=
    ⟨showsEntry_zero k.radix, rfl, rfl, rfl⟩
  have hready := ((hclear.pressRadix r).pressWordSize w.bits).2
  have hbits : WordSize.ofBits w.bits = .ok w := by
    cases w <;> rfl
  rw [Machine.press, hbits] at hready
  simp only [Machine.number, Option.getD_some, w.low_zero] at hready
  exact hready

/-- The keys of a chain go on with the one that folds, wherever the chain is cut. -/
theorem chainKeys_append (before after : List (WordOp × List Char)) :
    ∃ rest, chainKeys (before ++ after) ++ [.equals] =
      chainKeys before ++ foldingKey after :: rest := by
  cases after with
  | nil => exact ⟨[], by simp [foldingKey]⟩
  | cons s after =>
      exact ⟨s.2.map .digit ++ chainKeys after ++ [.equals], by simp [chainKeys, foldingKey]⟩

/-- The last key before the next fold, on the keypad. -/
theorem Keypad.reaches_last (k : Keypad) {r : Radix} {w : WordSize} {first : List Char}
    {before : List (WordOp × List Char)} {s : WordOp × List Char} {t : String}
    (hfirst : ∀ c ∈ first, r.accepts c = true) (htyped : WellTyped r (before ++ [s]))
    (heval : evaluateChain r w (String.ofList first) before = .ok t) :
    let ready := (k.run [.clear, .radix r, .wordSize w.bits]).1
    let typed := ready.run (first.map .digit ++ chainKeys (before ++ [s]))
    (∀ reply ∈ typed.2, reply = .done) ∧
      ∃ m, Shows typed.1 m ∧ m.radix = r ∧ m.pending ≠ none ∧
        m.folded.map r.write = evaluateWords t s.1.symbol (some (String.ofList s.2)) r w := by
  intro ready typed
  obtain ⟨m, ⟨hlast, hdone⟩, hradix, -, hpending, hfolded⟩ :=
    Machine.reaches_last hfirst htyped heval
  obtain ⟨hreplies, hshows⟩ :=
    (shows_ready k r w).run (first.map .digit ++ chainKeys (before ++ [s]))
  refine ⟨?_, m, hlast ▸ hshows, hradix, hpending, hfolded⟩
  show ∀ reply ∈ (ready.run _).2, reply = .done
  rw [hreplies]
  exact hdone

/--
**Chaining on the keypad is evaluating one operation after the other.**  The digits of a word, and
then operators with digits, are typed on a keypad that has been cleared and switched to a base and
a size, whatever its state was before.  If every operation by itself has a result, then no key
tells an error, and at the end exactly the last result is shown and nothing is pending.  Otherwise
the first operation without a result is a division by zero, all keys before the one that folds it
are obeyed, and that one tells the error, shows it, and leaves nothing pending.
-/
theorem keypad_run_chain (k : Keypad) (r : Radix) (w : WordSize) (first : List Char)
    (steps : List (WordOp × List Char)) (hsteps : steps ≠ [])
    (hfirst : ∀ c ∈ first, r.accepts c = true) (htyped : WellTyped r steps) :
    let ready := (k.run [.clear, .radix r, .wordSize w.bits]).1
    let keys := first.map .digit ++ chainKeys steps ++ [.equals]
    match evaluateChain r w (String.ofList first) steps with
    | .ok t =>
      let (last, replies) := ready.run keys
      last.entry.text = t ∧ last.pending = none ∧ ∀ reply ∈ replies, reply = .done
    | .error e =>
      e = .divisionByZero ∧
      ∃ before s after t keys' rest,
        steps = before ++ s :: after ∧
        evaluateChain r w (String.ofList first) before = .ok t ∧
        evaluateWords t s.1.symbol (some (String.ofList s.2)) r w = .error e ∧
        keys' = first.map .digit ++ chainKeys (before ++ [s]) ∧
        keys = keys' ++ foldingKey after :: rest ∧
        (∀ reply ∈ (ready.run keys').2, reply = .done) ∧
        let (next, reply) := (ready.run keys').1.press (foldingKey after)
        reply = .failed e ∧ next.entry.text = "Error" ∧ next.pending = none := by
  intro ready keys
  cases heval : evaluateChain r w (String.ofList first) steps with
  | ok t =>
      obtain ⟨before, s, rfl⟩ := (List.eq_nil_or_concat' steps).resolve_left hsteps
      have heval' : (evaluateChain r w (String.ofList first) before >>= fun t =>
          evaluateWords t s.1.symbol (some (String.ofList s.2)) r w) = .ok t := by
        rw [← heval, evaluateChain_concat]
      obtain ⟨t₁, hbefore, hs⟩ := bind_eq_ok.mp heval'
      obtain ⟨hdone, m, hshows, hradix, hpending, hfolded⟩ :=
        k.reaches_last hfirst htyped hbefore
      obtain ⟨n, hn, rfl⟩ := map_eq_ok.mp (hfolded.trans hs)
      obtain ⟨hreply, hnone, htext⟩ := hshows.equals_of_folded hpending hn
      show (ready.run keys).1.entry.text = _ ∧ (ready.run keys).1.pending = none ∧
        ∀ reply ∈ (ready.run keys).2, reply = .done
      rw [Keypad.run_append]
      refine ⟨hradix ▸ htext, hnone, ?_⟩
      intro reply hmem
      rcases List.mem_append.mp hmem with hmem | hmem
      · exact hdone reply hmem
      · rw [List.mem_singleton.mp hmem]
        exact hreply
  | error e =>
      obtain ⟨before, s, after, t, rfl, hbefore, hs⟩ := foldlM_eq_error steps heval
      have htyped' : WellTyped r (before ++ [s]) := by
        intro s' hs'
        rcases List.mem_append.mp hs' with hs' | hs'
        · exact htyped s' (by simp [hs'])
        · exact htyped s' (by simp [List.mem_singleton.mp hs'])
      obtain ⟨hdone, m, hshows, hradix, hpending, hfolded⟩ :=
        k.reaches_last hfirst htyped' hbefore
      have herror := map_eq_error.mp (hfolded.trans hs)
      obtain ⟨rest, hrest⟩ := chainKeys_append (before ++ [s]) after
      refine ⟨m.error_of_folded herror, before, s, after, t,
        first.map .digit ++ chainKeys (before ++ [s]), rest, rfl, hbefore, hs, rfl, ?_, hdone, ?_⟩
      · show first.map .digit ++ chainKeys (before ++ s :: after) ++ [.equals] = _
        rw [List.append_assoc, List.append_assoc, ← hrest]
        simp
      · have hafter : WellTyped r after := fun s' hs' => htyped s' (by simp [hs'])
        rw [hshows.foldingKey_of_folded hpending herror hafter]
        exact ⟨rfl, rfl, rfl⟩

/-- Digits in both letter cases, and words that overflow. -/
theorem keypad_run_chain_hex :
    let steps : List (WordOp × List Char) := [(.add, ['1', '0', '2']), (.shl, ['4'])]
    steps ≠ [] ∧ (∀ c ∈ ['f', 'F'], Radix.hex.accepts c = true) ∧ WellTyped .hex steps ∧
      let ready := (Keypad.start.run [.clear, .radix .hex, .wordSize 8]).1
      let (last, replies) := ready.run
        [.digit 'f', .digit 'F', .operator .add, .digit '1', .digit '0', .digit '2',
          .operator .shl, .digit '4', .equals]
      last.entry.text = "10" ∧ last.pending = none ∧ ∀ reply ∈ replies, reply = .done := by
  intro steps
  have hsteps : steps ≠ [] := List.cons_ne_nil _ _
  have hfirst : ∀ c ∈ ['f', 'F'], Radix.hex.accepts c = true := List.all_eq_true.mp rfl
  have htyped : WellTyped .hex steps := by
    intro s hs
    rcases List.mem_pair.mp hs with rfl | rfl
    · exact ⟨rfl, List.all_eq_true.mp rfl⟩
    · exact ⟨rfl, List.all_eq_true.mp rfl⟩
  have heval : evaluateChain .hex .bits8 (String.ofList ['f', 'F']) steps = .ok "10" := by
    decide +kernel
  have hrun := keypad_run_chain .start .hex .bits8 ['f', 'F'] steps hsteps hfirst htyped
  rw [heval] at hrun
  exact ⟨hsteps, hfirst, htyped, hrun⟩

end Reckoner
