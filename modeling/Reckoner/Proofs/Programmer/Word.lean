/-
Words as numbers.

Masking a word is taking what is left of its number modulo a power of two, and reading
digits with wrap-around is reading a number of any size modulo 2 ^ 64.  With these two an
operation on words can be told apart from the bits in which it is carried out.
-/
import Reckoner.Proofs.Numeral
import Reckoner.Proofs.Outcome
import Reckoner.Proofs.Text.Blank
import Reckoner.Programmer.Word

namespace Reckoner

/-! ### Bases -/

theorem Radix.one_lt_base (r : Radix) : 1 < r.base := by
  cases r <;> decide

theorem Radix.base_le (r : Radix) : r.base ≤ 16 := by
  cases r <;> decide

namespace Radix

/-- Digits are read modulo the size of a word. -/
theorem foldlM_readDigits (r : Radix) :
    ∀ (cs : List Char) (n : Nat),
      cs.foldlM (fun n c => (Numeral.digitIn? r.base c).map fun d =>
        n * r.base.toUInt64 + d.toUInt64) (UInt64.ofNat n) =
      (cs.mapM (Numeral.digitIn? r.base)).map fun ds =>
        UInt64.ofNat (ds.foldl (fun n d => n * r.base + d) n) := by
  intro cs
  induction cs with
  | nil => intro n; rfl
  | cons c cs ih =>
      intro n
      rw [List.foldlM_cons, List.mapM_cons]
      cases hc : Numeral.digitIn? r.base c with
      | none => rfl
      | some d =>
          have hstep : UInt64.ofNat n * r.base.toUInt64 + d.toUInt64
              = UInt64.ofNat (n * r.base + d) := by
            rw [UInt64.ofNat_add, UInt64.ofNat_mul]
          show List.foldlM _ (UInt64.ofNat n * r.base.toUInt64 + d.toUInt64) cs = _
          rw [hstep, ih]
          cases List.mapM (Numeral.digitIn? r.base) cs <;> rfl

/-- The word that digits denote is the number they denote, wrapped around. -/
theorem readDigits?_eq (r : Radix) (cs : List Char) :
    r.readDigits? cs = (Numeral.read? r.base cs).map UInt64.ofNat := by
  rw [readDigits?, Numeral.read?, Option.map_map]
  exact r.foldlM_readDigits cs 0

theorem readDigits?_write (r : Radix) (n : Nat) :
    r.readDigits? (Numeral.write r.base n) = some (UInt64.ofNat n) := by
  rw [readDigits?_eq, Numeral.read?_write r.one_lt_base r.base_le]
  rfl

/-- A digit is neither blank nor a sign. -/
theorem accepts_ne {r : Radix} {c : Char} (h : r.accepts c = true) :
    Text.isBlank c = false ∧ c ≠ '-' ∧ c ≠ '+' := by
  obtain ⟨d, hd⟩ := Option.isSome_iff_exists.mp h
  have hvalue := (Numeral.digitIn?_eq_some.mp hd).1
  have hrange : (48 ≤ c.toNat ∧ c.toNat ≤ 57) ∨ (65 ≤ c.toNat ∧ c.toNat ≤ 90) ∨
      (97 ≤ c.toNat ∧ c.toNat ≤ 122) := by
    rw [Numeral.digitValue?_eq] at hvalue
    split_ifs at hvalue <;> simp_all
  refine ⟨?_, ?_, ?_⟩
  · simp only [Text.isBlank, Bool.or_eq_false_iff, Bool.and_eq_false_iff, decide_eq_false_iff_not,
      beq_eq_false_iff_ne]
    omega
  · rintro rfl
    exact absurd hrange (by decide)
  · rintro rfl
    exact absurd hrange (by decide)

/-- A text that is a numeral is read as its number, wrapped around. -/
theorem read_ofList {r : Radix} {cs : List Char} {n : Nat}
    (h : Numeral.read? r.base cs = some n) :
    r.read (String.ofList cs) = .ok (UInt64.ofNat n) := by
  have haccepts : ∀ c ∈ cs, r.accepts c = true := Numeral.isSome_of_read? h
  have htrim := Text.trimChars_eq_self fun c hc => (accepts_ne (haccepts c hc)).1
  have hread : r.readDigits? cs = some (UInt64.ofNat n) := by
    rw [readDigits?_eq, h, Option.map_some]
  rw [read, String.toList_ofList, htrim]
  cases cs with
  | nil =>
      obtain rfl : n = 0 := by simpa [Numeral.read?, Numeral.value] using h.symm
      rfl
  | cons c cs =>
      obtain ⟨-, hminus, hplus⟩ := accepts_ne (haccepts c (by simp))
      split
      · rename_i heq
        split at heq <;> simp_all
      · rename_i heq
        split at heq <;> simp_all

end Radix

/-! ### Sizes -/

namespace WordSize

/-- What is left of a word in a size: its number modulo a power of two. -/
def low (w : WordSize) (n : UInt64) : UInt64 := UInt64.ofNat (n.toNat % 2 ^ w.bits)

theorem toNat_mask (w : WordSize) : w.mask.toNat = 2 ^ w.bits - 1 := by
  cases w <;> rfl

theorem toNat_and_mask (w : WordSize) (n : UInt64) :
    (n &&& w.mask).toNat = n.toNat % 2 ^ w.bits := by
  rw [UInt64.toNat_and, toNat_mask, Nat.and_two_pow_sub_one_eq_mod]

/-- Masking a word keeps what is left of its number. -/
theorem and_mask (w : WordSize) (n : UInt64) : n &&& w.mask = w.low n := by
  rw [← UInt64.toNat_inj, toNat_and_mask, low, UInt64.toNat_ofNat']
  exact (Nat.mod_eq_of_lt (Nat.lt_of_le_of_lt (Nat.mod_le _ _) n.toNat_lt)).symm

theorem toNat_low (w : WordSize) (n : UInt64) : (w.low n).toNat = n.toNat % 2 ^ w.bits := by
  rw [← and_mask, toNat_and_mask]

theorem low_low (w : WordSize) (n : UInt64) : w.low (w.low n) = w.low n := by
  rw [← and_mask, ← and_mask, UInt64.and_assoc, UInt64.and_self]

theorem low_zero (w : WordSize) : w.low 0 = 0 := by
  rw [← and_mask, UInt64.zero_and]

/-- Masking the complement counts down from the largest word of the size. -/
theorem not_and_mask (w : WordSize) (n : UInt64) :
    ~~~(w.low n) &&& w.mask = UInt64.ofNat (2 ^ w.bits - 1 - n.toNat % 2 ^ w.bits) := by
  have hn := n.toNat_lt
  rw [← UInt64.toNat_inj, toNat_and_mask, UInt64.toNat_not, toNat_low, UInt64.toNat_ofNat']
  cases w <;> simp only [bits, UInt64.size] <;> omega

end WordSize

/-! ### Operations -/

namespace WordOp

/-- An operation looks at its words only through the selected size. -/
theorem apply_low (op : WordOp) (w : WordSize) (a b : UInt64) :
    op.apply w (w.low a) (w.low b) = op.apply w a b := by
  have hmask : ∀ n : UInt64, w.low n &&& w.mask = n &&& w.mask := by
    intro n
    rw [w.and_mask, w.and_mask, w.low_low]
  simp only [apply, hmask]

theorem apply_low_right (op : WordOp) (w : WordSize) (a b : UInt64) :
    op.apply w a (w.low b) = op.apply w a b := by
  rw [← apply_low, w.low_low, apply_low]

theorem apply_low_left (op : WordOp) (w : WordSize) (a b : UInt64) :
    op.apply w (w.low a) b = op.apply w a b := by
  rw [← apply_low, w.low_low, apply_low]

/-- What an operation gives fits the selected size. -/
theorem low_of_apply {op : WordOp} {w : WordSize} {a b n : UInt64} (h : op.apply w a b = .ok n) :
    w.low n = n := by
  have hmasked : ∃ m, n = m &&& w.mask := by
    cases op with
    | div =>
        simp only [apply] at h
        split at h
        · cases h
        · cases h
          exact ⟨_, rfl⟩
    | _ =>
        cases h
        exact ⟨_, rfl⟩
  obtain ⟨m, rfl⟩ := hmasked
  rw [w.and_mask, w.low_low]

/-- Nothing fails but a division by zero. -/
theorem error_of_apply {op : WordOp} {w : WordSize} {a b : UInt64} {e : WordError}
    (h : op.apply w a b = .error e) : e = .divisionByZero := by
  cases op with
  | div =>
      simp only [apply] at h
      split at h
      · cases h
        rfl
      · cases h
  | _ => cases h

end WordOp

end Reckoner
