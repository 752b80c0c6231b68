/-
Operations on words as arithmetic of integers.

Every operation is carried out in 64 bits and then masked.  Sums, differences and products
come out right because the size of a word divides `2 ^ 64`; quotients and the bitwise
operations never leave the size; and a shift by 64 or more, which the machine refuses, is
one that leaves nothing.  So an operation is one of integers on what is left of its words,
and for sums, differences and products it does not matter whether these are read with a
sign.
-/
import Reckoner.Proofs.Programmer.Word

namespace Reckoner

namespace WordSize

theorem bits_le (w : WordSize) : w.bits ≤ 64 := by
  cases w <;> decide

/-- Wrapping around at 64 bits does not show in a smaller size. -/
theorem two_pow_bits_dvd (w : WordSize) : 2 ^ w.bits ∣ 2 ^ 64 :=
  Nat.pow_dvd_pow 2 w.bits_le

/-- A word as a number with a sign, in two's complement. -/
def signed (w : WordSize) (n : UInt64) : ℤ :=
  let low : ℤ := (n.toNat % 2 ^ w.bits : ℕ)
  if low < 2 ^ (w.bits - 1) then low else low - 2 ^ w.bits

/-- Reading a word with a sign takes its number to the remainder nearest to zero. -/
theorem signed_eq_bmod (w : WordSize) (n : UInt64) :
    w.signed n = Int.bmod (n.toNat : ℤ) (2 ^ w.bits) := by
  unfold signed Int.bmod
  cases w <;> simp only [bits] <;> push_cast <;> omega

end WordSize

namespace WordOp

/-! ### The operation on numbers -/

/-- What an operation gives for two numbers below `2 ^ bits`. -/
def onNumbers (bits : ℕ) : WordOp → ℕ → ℕ → ℤ
  | add, a, b => (a + b) % 2 ^ bits
  | sub, a, b => (a - b) % 2 ^ bits
  | mul, a, b => (a * b) % 2 ^ bits
  | div, a, b => (a / b : ℕ)
  | and, a, b => (a &&& b : ℕ)
  | or, a, b => (a ||| b : ℕ)
  | xor, a, b => (a ^^^ b : ℕ)
  | shl, a, b => a * 2 ^ b % 2 ^ bits
  | shr, a, b => (a / 2 ^ b : ℕ)
  | not, a, _ => 2 ^ bits - 1 - a

variable {w : WordSize} {a b : UInt64}

/-- Masking a result leaves its remainder. -/
theorem toNat_masked (w : WordSize) {n : UInt64} {k : ℕ} (h : n.toNat = k % 2 ^ 64) :
    (n &&& w.mask).toNat = k % 2 ^ w.bits := by
  rw [w.toNat_and_mask, h, Nat.mod_mod_of_dvd k w.two_pow_bits_dvd]

/-- A result that fits is left as it is. -/
theorem toNat_masked_of_lt (w : WordSize) {n : UInt64} {k : ℕ} (h : n.toNat = k)
    (hk : k < 2 ^ w.bits) : (n &&& w.mask).toNat = k := by
  rw [w.toNat_and_mask, h, Nat.mod_eq_of_lt hk]

section Masked

variable {x y : UInt64} (hx : x.toNat < 2 ^ w.bits) (hy : y.toNat < 2 ^ w.bits)

include hx in
theorem toNat_sub_masked :
    (((x - y) &&& w.mask).toNat : ℤ) = ((x.toNat : ℤ) - y.toNat) % 2 ^ w.bits := by
  have hx64 := x.toNat_lt
  have hy64 := y.toNat_lt
  rw [toNat_masked w (UInt64.toNat_sub x y)]
  cases w <;> simp only [WordSize.bits] <;> push_cast <;> omega

include hx hy in
theorem toNat_bitwise_masked :
    ((x &&& y) &&& w.mask).toNat = x.toNat &&& y.toNat ∧
      ((x ||| y) &&& w.mask).toNat = x.toNat ||| y.toNat ∧
      ((x ^^^ y) &&& w.mask).toNat = x.toNat ^^^ y.toNat :=
  ⟨toNat_masked_of_lt w (UInt64.toNat_and x y) (Nat.and_lt_two_pow _ hy),
    toNat_masked_of_lt w (UInt64.toNat_or x y) (Nat.or_lt_two_pow hx hy),
    toNat_masked_of_lt w (UInt64.toNat_xor x y) (Nat.xor_lt_two_pow hx hy)⟩

/-- A shift to the left multiplies, and one out of the word leaves a multiple of its size. -/
theorem toNat_shl_masked :
    ((if y < 64 then x <<< y else 0) &&& w.mask).toNat = x.toNat * 2 ^ y.toNat % 2 ^ w.bits := by
  by_cases h : y < 64
  · have hlt : y.toNat < 64 := UInt64.lt_iff_toNat_lt.mp h
    rw [if_pos h]
    refine toNat_masked w ?_
    rw [UInt64.toNat_shiftLeft, Nat.mod_eq_of_lt hlt, Nat.shiftLeft_eq]
  · have hge : 64 ≤ y.toNat := UInt64.le_iff_toNat_le.mp (UInt64.not_lt.mp h)
    have hdvd : 2 ^ w.bits ∣ x.toNat * 2 ^ y.toNat :=
      Dvd.dvd.mul_left (Nat.pow_dvd_pow 2 (Nat.le_trans w.bits_le hge)) _
    rw [if_neg h, UInt64.zero_and, Nat.mod_eq_zero_of_dvd hdvd]
    rfl

include hx in
/-- A shift to the right divides, and one out of the word leaves nothing. -/
theorem toNat_shr_masked :
    ((if y < 64 then x >>> y else 0) &&& w.mask).toNat = x.toNat / 2 ^ y.toNat := by
  by_cases h : y < 64
  · have hlt : y.toNat < 64 := UInt64.lt_iff_toNat_lt.mp h
    rw [if_pos h]
    refine toNat_masked_of_lt w ?_ (Nat.lt_of_le_of_lt (Nat.div_le_self _ _) hx)
    rw [UInt64.toNat_shiftRight, Nat.mod_eq_of_lt hlt, Nat.shiftRight_eq_div_pow]
  · have hge : 64 ≤ y.toNat := UInt64.le_iff_toNat_le.mp (UInt64.not_lt.mp h)
    have hsmall : x.toNat < 2 ^ y.toNat :=
      Nat.lt_of_lt_of_le hx (Nat.pow_le_pow_right two_pos (Nat.le_trans w.bits_le hge))
    rw [if_neg h, UInt64.zero_and, Nat.div_eq_of_lt hsmall]
    rfl

end Masked

/-- Unless it divides by zero, an operation has the result that it has for numbers. -/
theorem apply_eq_ok (op : WordOp) (w : WordSize) (a b : UInt64)
    (h : ¬(op = div ∧ b.toNat % 2 ^ w.bits = 0)) :
    ∃ n, op.apply w a b = .ok n ∧
      (n.toNat : ℤ) = op.onNumbers w.bits (a.toNat % 2 ^ w.bits) (b.toNat % 2 ^ w.bits) := by
  have hx : (a &&& w.mask).toNat < 2 ^ w.bits := by
    rw [w.toNat_and_mask]
    exact Nat.mod_lt _ (Nat.two_pow_pos _)
  have hy : (b &&& w.mask).toNat < 2 ^ w.bits := by
    rw [w.toNat_and_mask]
    exact Nat.mod_lt _ (Nat.two_pow_pos _)
  rw [← w.toNat_and_mask, ← w.toNat_and_mask]
  rw [← w.toNat_and_mask] at h
  obtain ⟨hand, hor, hxor⟩ := toNat_bitwise_masked hx hy
  cases op with
  | add =>
      refine ⟨_, rfl, ?_⟩
      rw [toNat_masked w (UInt64.toNat_add _ _)]
      push_cast
      rfl
  | sub => exact ⟨_, rfl, toNat_sub_masked hx⟩
  | mul =>
      refine ⟨_, rfl, ?_⟩
      rw [toNat_masked w (UInt64.toNat_mul _ _)]
      push_cast
      rfl
  | div =>
      have hne : b &&& w.mask ≠ 0 := by
        intro h0
        exact h ⟨rfl, by rw [h0]; rfl⟩
      refine ⟨_, by rw [apply]; exact if_neg hne, ?_⟩
      have hdiv := UInt64.toNat_div (a &&& w.mask) (b &&& w.mask)
      rw [toNat_masked_of_lt w hdiv (Nat.lt_of_le_of_lt (Nat.div_le_self _ _) hx)]
      rfl
  | and => exact ⟨_, rfl, congrArg Nat.cast hand⟩
  | or => exact ⟨_, rfl, congrArg Nat.cast hor⟩
  | xor => exact ⟨_, rfl, congrArg Nat.cast hxor⟩
  | shl =>
      refine ⟨_, rfl, ?_⟩
      rw [toNat_shl_masked]
      push_cast
      rfl
  | shr => exact ⟨_, rfl, congrArg Nat.cast (toNat_shr_masked hx)⟩
  | not =>
      refine ⟨_, rfl, ?_⟩
      rw [w.and_mask a, w.not_and_mask, UInt64.toNat_ofNat']
      have ha := w.toNat_low a
      rw [ha]
      cases w <;> simp only [WordSize.bits, onNumbers] <;> push_cast <;> omega

/-! ### The operation on signed numbers -/

/-- A result that is right as a number is right with a sign as well. -/
theorem signed_of_modEq {n : UInt64} {i j : ℤ} (hn : (n.toNat : ℤ) = i % 2 ^ w.bits)
    (hij : i ≡ j [ZMOD 2 ^ w.bits]) : w.signed n = Int.bmod j (2 ^ w.bits) := by
  have hpow : ((2 ^ w.bits : ℕ) : ℤ) = 2 ^ w.bits := by
    push_cast
    rfl
  rw [w.signed_eq_bmod, hn, hij, ← hpow, Int.emod_bmod]

theorem signed_modEq (w : WordSize) (n : UInt64) :
    ((n.toNat % 2 ^ w.bits : ℕ) : ℤ) ≡ w.signed n [ZMOD 2 ^ w.bits] := by
  unfold WordSize.signed
  dsimp only
  split
  · exact Int.ModEq.refl _
  · exact Int.modEq_iff_dvd.mpr ⟨-1, by ring⟩

/-- Sums, differences and products do not depend on whether words are read with a sign. -/
theorem apply_signed (w : WordSize) (a b : UInt64) :
    ∃ s d p, add.apply w a b = .ok s ∧ sub.apply w a b = .ok d ∧ mul.apply w a b = .ok p ∧
      w.signed s = Int.bmod (w.signed a + w.signed b) (2 ^ w.bits) ∧
      w.signed d = Int.bmod (w.signed a - w.signed b) (2 ^ w.bits) ∧
      w.signed p = Int.bmod (w.signed a * w.signed b) (2 ^ w.bits) := by
  have ha := signed_modEq w a
  have hb := signed_modEq w b
  obtain ⟨s, hs, hsum⟩ := apply_eq_ok add w a b (by simp)
  obtain ⟨d, hd, hdifference⟩ := apply_eq_ok sub w a b (by simp)
  obtain ⟨p, hp, hproduct⟩ := apply_eq_ok mul w a b (by simp)
  exact ⟨s, d, p, hs, hd, hp, signed_of_modEq hsum (ha.add hb),
    signed_of_modEq hdifference (ha.sub hb), signed_of_modEq hproduct (ha.mul hb)⟩

/-! ### The theorem -/

theorem lt_of_apply {op : WordOp} {n : UInt64} (h : op.apply w a b = .ok n) :
    n.toNat < 2 ^ w.bits := by
  rw [← low_of_apply h, w.toNat_low]
  exact Nat.mod_lt _ (Nat.two_pow_pos _)

/--
**An operation on words is one of integers.**  It fails exactly if it divides by zero, and else its
result fits the size and is that of the operation on what is left of the words, which is all it
depends on; the complement depends on its first word alone.  Read with a sign, a sum, a difference
or a product is that of the words with a sign, as far as the size goes.
-/
theorem apply_eq_arithmetic (op : WordOp) (w : WordSize) (a b : UInt64) :
    let a' := a.toNat % 2 ^ w.bits
    let b' := b.toNat % 2 ^ w.bits
    (if op = div ∧ b' = 0 then op.apply w a b = .error .divisionByZero
      else ∃ n, op.apply w a b = .ok n ∧ n.toNat < 2 ^ w.bits ∧
        (n.toNat : ℤ) = op.onNumbers w.bits a' b') ∧
    (∀ c d : UInt64, c.toNat % 2 ^ w.bits = a' → d.toNat % 2 ^ w.bits = b' →
      op.apply w c d = op.apply w a b) ∧
    (∀ c, not.apply w a c = not.apply w a b) ∧
    ∃ s d p, add.apply w a b = .ok s ∧ sub.apply w a b = .ok d ∧ mul.apply w a b = .ok p ∧
      w.signed s = Int.bmod (w.signed a + w.signed b) (2 ^ w.bits) ∧
      w.signed d = Int.bmod (w.signed a - w.signed b) (2 ^ w.bits) ∧
      w.signed p = Int.bmod (w.signed a * w.signed b) (2 ^ w.bits) := by
  intro a' b'
  refine ⟨?_, ?_, fun c => rfl, apply_signed w a b⟩
  · by_cases h : op = div ∧ b' = 0
    · obtain ⟨rfl, hzero⟩ := h
      rw [if_pos ⟨rfl, hzero⟩]
      have hb : b &&& w.mask = 0 := by
        rw [← UInt64.toNat_inj, w.toNat_and_mask]
        exact hzero
      rw [apply]
      exact if_pos hb
    · rw [if_neg h]
      obtain ⟨n, hn, hvalue⟩ := apply_eq_ok op w a b h
      exact ⟨n, hn, lt_of_apply hn, hvalue⟩
  · intro c d hc hd
    have hlow : w.low c = w.low a ∧ w.low d = w.low b := by
      simp only [WordSize.low, hc, hd]
      exact ⟨rfl, rfl⟩
    rw [← apply_low, hlow.1, hlow.2, apply_low]

/-- A shift by the whole size leaves nothing, and the smallest number with a sign is its own
negative. -/
example : (shl.apply .bits64 1 64, mul.apply .bits8 128 255) = (.ok 0, .ok 128) := by decide

end WordOp

end Reckoner
