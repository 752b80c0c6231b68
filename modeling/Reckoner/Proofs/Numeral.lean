/-
Numerals and the numbers they denote.

Reading digits is a left fold and writing a number peels digits off its end, so the two
meet in the digits of a number with the least significant first, for which the library has
the theory.  A numeral without leading zeros is the one numeral of its number, and it has
`k` digits exactly if the number lies in the `k`-th decade of its base.
-/
import Mathlib
import Reckoner.Numeral

namespace Reckoner.Numeral

variable {base n : Nat}

/-! ### The value of digits -/

theorem value_append (base : Nat) (xs ys : List Nat) :
    value base (xs ++ ys) = value base xs * base ^ ys.length + value base ys := by
  have hconcat : ∀ (zs : List Nat) (z : Nat),
      value base (zs ++ [z]) = value base zs * base + z := by
    intro zs z
    simp [value]
  induction ys using List.reverseRecOn with
  | nil => simp [value]
  | append_singleton ys y ih =>
      rw [← List.append_assoc, hconcat, hconcat, ih, List.length_append, List.length_singleton,
        pow_succ]
      ring

theorem value_singleton (base d : Nat) : value base [d] = d := by
  simp [value]

/-- Zeros in front do not count. -/
theorem value_replicate_append (base k : Nat) (ds : List Nat) :
    value base (List.replicate k 0 ++ ds) = value base ds := by
  have hzero : value base (List.replicate k 0) = 0 := by
    induction k with
    | zero => rfl
    | succ k ih => rw [List.replicate_succ', value_append, ih, value_singleton, Nat.zero_mul]
  rw [value_append, hzero, Nat.zero_mul, Nat.zero_add]

theorem value_eq_ofDigits (base : Nat) (ds : List Nat) :
    value base ds = Nat.ofDigits base ds.reverse := by
  induction ds using List.reverseRecOn with
  | nil => rfl
  | append_singleton ds d ih =>
      rw [value_append, value_singleton, List.reverse_append, List.reverse_singleton,
        List.singleton_append, Nat.ofDigits_cons, ih]
      simp only [List.length_singleton, pow_one]
      ring

/-! ### The digits of a number -/

theorem prepend_eq (hbase : 1 < base) :
    ∀ (steps n : Nat) (written : List Nat), n ≤ steps →
      prepend base steps n written = (Nat.digits base n).reverse ++ written := by
  intro steps
  induction steps with
  | zero =>
      intro n written hn
      obtain rfl : n = 0 := Nat.le_zero.mp hn
      simp [prepend]
  | succ steps ih =>
      intro n written hn
      rw [prepend]
      by_cases h0 : n = 0
      · simp [h0]
      · have hlt : n / base < n := Nat.div_lt_self (Nat.pos_of_ne_zero h0) hbase
        rw [if_neg h0, ih _ _ (by omega), Nat.digits_def' hbase (Nat.pos_of_ne_zero h0)]
        simp

theorem digits_zero (base : Nat) : digits base 0 = [0] := by
  simp [digits]

theorem digits_of_pos (hbase : 1 < base) (hn : 0 < n) :
    digits base n = (Nat.digits base n).reverse := by
  rw [digits, if_neg (Nat.ne_of_gt hn), prepend_eq hbase n n [] (Nat.le_refl n), List.append_nil]

theorem digits_of_lt (hbase : 1 < base) (h : n < base) : digits base n = [n] := by
  by_cases h0 : n = 0
  · rw [h0, digits_zero]
  · rw [digits_of_pos hbase (Nat.pos_of_ne_zero h0), Nat.digits_of_lt base n h0 h]
    rfl

/-- One more digit at the end. -/
theorem digits_mul_add (hbase : 1 < base) (hn : 0 < n) {d : Nat} (hd : d < base) :
    digits base (n * base + d) = digits base n ++ [d] := by
  have hpos : 0 < n * base + d := by positivity
  rw [digits_of_pos hbase hpos, digits_of_pos hbase hn, Nat.add_comm, Nat.mul_comm,
    Nat.digits_add base hbase d n hd (Or.inr (Nat.ne_of_gt hn))]
  simp

theorem digits_ne_nil (hbase : 1 < base) (n : Nat) : digits base n ≠ [] := by
  by_cases h0 : n = 0
  · simp [h0, digits_zero]
  · rw [digits_of_pos hbase (Nat.pos_of_ne_zero h0)]
    simpa using Nat.digits_ne_nil_iff_ne_zero.mpr h0

theorem lt_of_mem_digits (hbase : 1 < base) {d : Nat} (h : d ∈ digits base n) : d < base := by
  by_cases h0 : n = 0
  · rw [h0, digits_zero, List.mem_singleton] at h
    omega
  · rw [digits_of_pos hbase (Nat.pos_of_ne_zero h0), List.mem_reverse] at h
    exact Nat.digits_lt_base hbase h

@[simp] theorem value_digits (hbase : 1 < base) (n : Nat) : value base (digits base n) = n := by
  by_cases h0 : n = 0
  · rw [h0, digits_zero, value_singleton]
  · rw [digits_of_pos hbase (Nat.pos_of_ne_zero h0), value_eq_ofDigits, List.reverse_reverse,
      Nat.ofDigits_digits]

/-- Only zero starts with a zero. -/
theorem head_digits_ne_zero (hbase : 1 < base) (hn : 0 < n) :
    (digits base n).head? ≠ some 0 := by
  intro h
  rw [digits_of_pos hbase hn, List.head?_reverse] at h
  have hne : Nat.digits base n ≠ [] := Nat.digits_ne_nil_iff_ne_zero.mpr (Nat.ne_of_gt hn)
  rw [List.getLast?_eq_some_getLast hne] at h
  exact Nat.getLast_digit_ne_zero base (Nat.ne_of_gt hn) (Option.some.inj h)

/-- A number has as many digits as its decade says. -/
theorem length_digits (hbase : 1 < base) (hn : 0 < n) :
    base ^ ((digits base n).length - 1) ≤ n ∧ n < base ^ (digits base n).length := by
  rw [digits_of_pos hbase hn, List.length_reverse]
  have hne : Nat.digits base n ≠ [] := Nat.digits_ne_nil_iff_ne_zero.mpr (Nat.ne_of_gt hn)
  have hlen : 0 < (Nat.digits base n).length := List.length_pos_iff.mpr hne
  refine ⟨?_, Nat.lt_base_pow_length_digits hbase⟩
  have := Nat.base_pow_length_digits_le base n hbase (Nat.ne_of_gt hn)
  obtain ⟨k, hk⟩ := Nat.exists_eq_add_of_lt hlen
  rw [hk] at this ⊢
  rw [show 0 + k + 1 - 1 = k by omega]
  rw [show 0 + k + 1 = k + 1 by omega, pow_succ] at this
  exact Nat.le_of_mul_le_mul_left (by linarith) (by omega : 0 < base)

/-- The number of digits is settled by a decade. -/
theorem length_digits_eq (hbase : 1 < base) {k : Nat} (hlo : base ^ k ≤ n)
    (hhi : n < base ^ (k + 1)) : (digits base n).length = k + 1 := by
  have hn : 0 < n := Nat.lt_of_lt_of_le (Nat.pow_pos (by omega)) hlo
  obtain ⟨h1, h2⟩ := length_digits hbase hn
  have h3 : (digits base n).length - 1 < k + 1 :=
    (Nat.pow_lt_pow_iff_right hbase).mp (Nat.lt_of_le_of_lt h1 hhi)
  have h4 : k < (digits base n).length :=
    (Nat.pow_lt_pow_iff_right hbase).mp (Nat.lt_of_le_of_lt hlo h2)
  omega

/-- A number has more digits than its first decades. -/
theorem lt_length_digits_iff (hbase : 1 < base) {k : Nat} (hk : 0 < k) :
    k < (digits base n).length ↔ base ^ k ≤ n := by
  have hpos : 0 < base := by omega
  rcases Nat.eq_zero_or_pos n with rfl | hn
  · have : 0 < base ^ k := Nat.pow_pos hpos
    rw [digits_zero, List.length_singleton]
    omega
  · obtain ⟨h1, h2⟩ := length_digits hbase hn
    constructor
    · intro h
      exact Nat.le_trans (Nat.pow_le_pow_right hpos (by omega)) h1
    · intro h
      exact (Nat.pow_lt_pow_iff_right hbase).mp (Nat.lt_of_le_of_lt h h2)

/-! ### The last digits of a number -/

/-- The last digits of a number, as many as asked for. -/
def lastDigits (base : Nat) : Nat → Nat → List Nat
  | 0, _ => []
  | k + 1, n => lastDigits base k (n / base) ++ [n % base]

@[simp] theorem length_lastDigits (base k n : Nat) : (lastDigits base k n).length = k := by
  induction k generalizing n with
  | zero => rfl
  | succ k ih => rw [lastDigits, List.length_append, ih, List.length_singleton]

theorem lt_of_mem_lastDigits (hbase : 1 < base) {k d : Nat} (h : d ∈ lastDigits base k n) :
    d < base := by
  induction k generalizing n with
  | zero => cases h
  | succ k ih =>
      rcases List.mem_append.mp h with h | h
      · exact ih h
      · rw [List.mem_singleton.mp h]
        exact Nat.mod_lt n (by omega)

theorem value_lastDigits (base k n : Nat) : value base (lastDigits base k n) = n % base ^ k := by
  induction k generalizing n with
  | zero => simp [lastDigits, value, Nat.mod_one]
  | succ k ih =>
      rw [lastDigits, value_append, value_singleton, ih, List.length_singleton, pow_one,
        pow_succ', Nat.mod_mul, Nat.mul_comm, Nat.add_comm]

theorem lastDigits_zero (base k : Nat) : lastDigits base k 0 = List.replicate k 0 := by
  induction k with
  | zero => rfl
  | succ k ih =>
      rw [lastDigits, Nat.zero_div, Nat.zero_mod, ih]
      exact List.replicate_succ'.symm

/-- The digits of a number before and after any of its places. -/
theorem digits_eq_append (hbase : 1 < base) {k : Nat} (h : base ^ k ≤ n) :
    digits base n = digits base (n / base ^ k) ++ lastDigits base k n := by
  induction k generalizing n with
  | zero => simp [lastDigits]
  | succ k ih =>
      have hpos : 0 < base := by omega
      have hdiv : base ^ k ≤ n / base := by
        rw [Nat.le_div_iff_mul_le hpos, ← pow_succ]
        exact h
      have hn : 0 < n / base := Nat.lt_of_lt_of_le (Nat.pow_pos hpos) hdiv
      have hlast := digits_mul_add hbase hn (Nat.mod_lt n hpos)
      rw [Nat.div_add_mod'] at hlast
      rw [hlast, ih hdiv, lastDigits, pow_succ', Nat.div_div_eq_div_mul, List.append_assoc]

/-- A number with fewer digits is filled up with zeros. -/
theorem replicate_append_digits (hbase : 1 < base) {k : Nat} (hk : 0 < k) (h : n < base ^ k) :
    List.replicate (k - (digits base n).length) 0 ++ digits base n = lastDigits base k n := by
  have hpos : 0 < base := by omega
  induction k generalizing n with
  | zero => omega
  | succ k ih =>
      by_cases hsmall : n < base
      · rw [digits_of_lt hbase hsmall, lastDigits, Nat.div_eq_of_lt hsmall, Nat.mod_eq_of_lt hsmall,
          lastDigits_zero]
        rfl
      · have hn : 0 < n / base := Nat.div_pos (by omega) hpos
        have hlast := digits_mul_add hbase hn (Nat.mod_lt n hpos)
        rw [Nat.div_add_mod'] at hlast
        have hdiv : n / base < base ^ k := by
          rw [Nat.div_lt_iff_lt_mul hpos, ← pow_succ]
          exact h
        have hk' : 0 < k := by
          rcases Nat.eq_zero_or_pos k with rfl | hk'
          · rw [pow_zero] at hdiv
            omega
          · exact hk'
        rw [hlast, List.length_append, List.length_singleton, Nat.add_sub_add_right,
          ← List.append_assoc, ih hk' hdiv, lastDigits]

/-! ### Digits as characters -/

/-- The digits up to fifteen are read back. -/
theorem digitValue?_digitChar : ∀ d < 16, digitValue? (digitChar d) = some d := by
  decide

theorem isDigit_digitChar {d : Nat} (h : d < 10) : (digitChar d).isDigit = true := by
  revert h d
  decide

theorem toNat_digitChar {d : Nat} (h : d < 10) : (digitChar d).toNat - '0'.toNat = d := by
  revert h d
  decide

/-- A digit is a zero if its character is. -/
theorem digitChar_beq_zero : ∀ d < 16, (digitChar d == '0') = (d == 0) := by
  decide

theorem digitIn?_digitChar (hbase : base ≤ 16) {d : Nat} (hd : d < base) :
    digitIn? base (digitChar d) = some d := by
  rw [digitIn?, digitValue?_digitChar d (by omega)]
  simp [hd]

theorem digitIn?_eq_some {c : Char} {d : Nat} :
    digitIn? base c = some d ↔ digitValue? c = some d ∧ d < base := by
  simp [digitIn?, Option.filter_eq_some_iff]

theorem le_iff_toNat_le {a b : Char} : a ≤ b ↔ a.toNat ≤ b.toNat := by
  rw [Char.le_def, UInt32.le_iff_toNat_le, Char.toNat_val, Char.toNat_val]

/-- The value of a character, by its code point. -/
theorem digitValue?_eq (c : Char) : digitValue? c =
    if 48 ≤ c.toNat ∧ c.toNat ≤ 57 then some (c.toNat - 48)
    else if 65 ≤ c.toNat ∧ c.toNat ≤ 90 then some (c.toNat - 55)
    else if 97 ≤ c.toNat ∧ c.toNat ≤ 122 then some (c.toNat - 87)
    else none := by
  simp only [digitValue?, le_iff_toNat_le]
  have h0 : '0'.toNat = 48 := rfl
  have h9 : '9'.toNat = 57 := rfl
  have hA : 'A'.toNat = 65 := rfl
  have hZ : 'Z'.toNat = 90 := rfl
  have ha : 'a'.toNat = 97 := rfl
  have hz : 'z'.toNat = 122 := rfl
  rw [h0, h9, hA, hZ, ha, hz]
  split_ifs with h1 h2 h3
  · rfl
  · congr 1
    omega
  · congr 1
    omega
  · rfl

theorem isLower_iff {c : Char} : c.isLower = true ↔ 97 ≤ c.toNat ∧ c.toNat ≤ 122 := by
  simp [Char.isLower, UInt32.le_iff_toNat_le, ← Char.toNat_val]

/-- Letter case does not change the value of a character. -/
theorem digitValue?_toUpper (c : Char) : digitValue? c.toUpper = digitValue? c := by
  by_cases h : c.isLower = true
  · have hc := isLower_iff.mp h
    have hvalid : (c.toNat - 32).isValidChar := Or.inl (by omega)
    have hu : c.toUpper.toNat = c.toNat - 32 := by
      rw [Char.toUpper_eq_of_isLower h, Char.toNat_ofNat, if_pos hvalid]
    rw [digitValue?_eq, digitValue?_eq, hu, if_neg (by omega), if_pos (by omega),
      if_neg (by omega), if_neg (by omega), if_pos hc]
    congr 1
  · rw [Char.toUpper_eq_of_not_isLower h]

theorem digitIn?_toUpper (base : Nat) (c : Char) : digitIn? base c.toUpper = digitIn? base c := by
  rw [digitIn?, digitIn?, digitValue?_toUpper]

/-- A digit in upper case is the character of its value. -/
theorem digitChar_of_digitIn? {c : Char} {d : Nat}
    (h : digitIn? base c.toUpper = some d) : digitChar d = c.toUpper := by
  obtain ⟨hvalue, hd⟩ := digitIn?_eq_some.mp h
  have hlower : ¬ (97 ≤ c.toUpper.toNat ∧ c.toUpper.toNat ≤ 122) := by
    rw [← isLower_iff]
    simp
  rw [digitValue?_eq, if_neg hlower] at hvalue
  have h0 : '0'.toNat = 48 := rfl
  have hA : 'A'.toNat = 65 := rfl
  rw [digitChar, h0, hA]
  split_ifs at hvalue with h1 h2
  · obtain rfl := Option.some.inj hvalue
    rw [if_pos (by omega), show 48 + (c.toUpper.toNat - 48) = c.toUpper.toNat by omega,
      Char.ofNat_toNat]
  · obtain rfl := Option.some.inj hvalue
    rw [if_neg (by omega), show 65 + (c.toUpper.toNat - 55 - 10) = c.toUpper.toNat by omega,
      Char.ofNat_toNat]

/-! ### The numeral of a number -/

theorem write_of_lt (hbase : 1 < base) (h : n < base) : write base n = [digitChar n] := by
  rw [write, digits_of_lt hbase h]
  rfl

theorem write_zero (base : Nat) : write base 0 = ['0'] := by
  rw [write, digits_zero]
  rfl

theorem write_mul_add (hbase : 1 < base) (hn : 0 < n) {d : Nat} (hd : d < base) :
    write base (n * base + d) = write base n ++ [digitChar d] := by
  rw [write, digits_mul_add hbase hn hd, List.map_append]
  rfl

theorem length_write (base n : Nat) : (write base n).length = (digits base n).length := by
  rw [write, List.length_map]

/-- A numeral has no leading zero. -/
theorem head_write_ne_zero (hbase : 1 < base) (hbase16 : base ≤ 16) (hn : 0 < n) :
    (write base n).head? ≠ some '0' := by
  intro h
  rw [write, List.head?_map, Option.map_eq_some_iff] at h
  obtain ⟨d, hd, hchar⟩ := h
  have hlt := lt_of_mem_digits hbase (List.mem_of_mem_head? hd)
  have hvalue := digitValue?_digitChar d (by omega)
  rw [hchar] at hvalue
  have : d = 0 := (Option.some.inj hvalue).symm
  exact head_digits_ne_zero hbase hn (this ▸ hd)

/-- Only zero is written as a lone zero. -/
theorem write_eq_zero_iff (hbase : 1 < base) (hbase16 : base ≤ 16) :
    write base n = ['0'] ↔ n = 0 := by
  constructor
  · intro h
    by_contra h0
    exact head_write_ne_zero hbase hbase16 (Nat.pos_of_ne_zero h0) (by rw [h]; rfl)
  · rintro rfl
    exact write_zero base

theorem mapM_digitIn?_map (hbase16 : base ≤ 16) :
    ∀ ds : List Nat, (∀ d ∈ ds, d < base) → (ds.map digitChar).mapM (digitIn? base) = some ds := by
  intro ds
  induction ds with
  | nil => intro _; rfl
  | cons d ds ih =>
      intro h
      have hd := digitIn?_digitChar hbase16 (h d (by simp))
      rw [List.map_cons, List.mapM_cons, hd, ih fun d hd => h d (by simp [hd])]
      rfl

/-- What can be read consists of digits. -/
theorem isSome_of_read? : ∀ {cs : List Char} {n : Nat}, read? base cs = some n →
    ∀ c ∈ cs, (digitIn? base c).isSome = true := by
  intro cs
  induction cs with
  | nil => intro n _ c hc; simp at hc
  | cons c cs ih =>
      intro n h x hx
      rw [read?, List.mapM_cons, Option.map_eq_some_iff] at h
      obtain ⟨ds, hds, -⟩ := h
      simp only [Option.bind_eq_bind, Option.bind_eq_some_iff] at hds
      obtain ⟨d, hd, rest, hrest, -⟩ := hds
      rcases List.mem_cons.mp hx with rfl | hx
      · simp [hd]
      · exact ih (by rw [read?, hrest, Option.map_some]) x hx

/-- Digits can be read. -/
theorem read?_of_isSome : ∀ {cs : List Char}, (∀ c ∈ cs, (digitIn? base c).isSome = true) →
    ∃ n, read? base cs = some n := by
  intro cs
  induction cs with
  | nil => intro _; exact ⟨0, rfl⟩
  | cons c cs ih =>
      intro h
      obtain ⟨d, hd⟩ := Option.isSome_iff_exists.mp (h c (by simp))
      obtain ⟨n, hn⟩ := ih fun x hx => h x (by simp [hx])
      rw [read?, Option.map_eq_some_iff] at hn
      obtain ⟨ds, hds, -⟩ := hn
      exact ⟨value base (d :: ds), by rw [read?, List.mapM_cons, hd, hds]; rfl⟩

/-- What is written is read back. -/
theorem read?_write (hbase : 1 < base) (hbase16 : base ≤ 16) (n : Nat) :
    read? base (write base n) = some n := by
  rw [read?, write, mapM_digitIn?_map hbase16 _ fun d hd => lt_of_mem_digits hbase hd,
    Option.map_some, value_digits hbase]

end Reckoner.Numeral
