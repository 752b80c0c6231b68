/-
Plain and scientific numerals.

A numeral in plain notation has digits before its point without a zero in front, and
digits after it without a zero at the end; if there are none after it, it has no point
either.  The scientific one has a single digit before the point, that is no zero, and an
exponent of two digits or more.  Both carry these conditions with them, so a text with such
a numeral has no superfluous character, and what has to be said about it is only what it
denotes.
-/
import Reckoner.Amount
import Reckoner.Proofs.Numeral

namespace Reckoner

open Numeral

/-! ### Numerals -/

/-- A numeral in plain notation. -/
structure PlainNumeral where
  /-- The digits before the point. -/
  whole : List Nat
  /-- The digits after it. -/
  fraction : List Nat
  whole_lt : ∀ d ∈ whole, d < 10
  fraction_lt : ∀ d ∈ fraction, d < 10
  /-- There are digits before the point, and a zero in front is alone. -/
  leading : whole = [0] ∨ whole ≠ [] ∧ whole.head? ≠ some 0
  trailing : fraction.getLast? ≠ some 0

namespace PlainNumeral

/-- The characters of a numeral; a point needs digits after it. -/
def chars (t : PlainNumeral) : List Char :=
  t.whole.map digitChar ++ if t.fraction = [] then [] else '.' :: t.fraction.map digitChar

/-- The number that a numeral denotes. -/
def number (t : PlainNumeral) : ℚ :=
  Numeral.value 10 t.whole + Numeral.value 10 t.fraction / 10 ^ t.fraction.length

end PlainNumeral

/-- A numeral in scientific notation. -/
structure ScientificNumeral where
  mantissa : PlainNumeral
  /-- Whether the exponent has a minus sign. -/
  negative : Bool
  /-- The digits of the exponent. -/
  power : List Nat
  /-- There is one digit before the point, and it is not zero. -/
  single : ∃ d, d ≠ 0 ∧ mantissa.whole = [d]
  power_lt : ∀ d ∈ power, d < 10
  two_le_length : 2 ≤ power.length
  /-- A zero is in front only to make up two digits. -/
  power_leading : power.length = 2 ∨ power.head? ≠ some 0

namespace ScientificNumeral

/-- The characters of a numeral; the exponent always has a sign. -/
def chars (t : ScientificNumeral) : List Char :=
  t.mantissa.chars ++ 'e' :: (if t.negative then '-' else '+') :: t.power.map digitChar

/-- The exponent of a numeral. -/
def exponent (t : ScientificNumeral) : ℤ :=
  if t.negative then -(Numeral.value 10 t.power : ℤ) else Numeral.value 10 t.power

/-- The number that a numeral denotes. -/
def number (t : ScientificNumeral) : ℚ := t.mantissa.number * 10 ^ t.exponent

end ScientificNumeral

/-! ### Zeros at the end -/

theorem rdropWhile_append_cons {α : Type} {p : α → Bool} (xs : List α) {x : α} (hx : p x = false)
    (ys : List α) : (xs ++ x :: ys).rdropWhile p = xs ++ x :: ys.rdropWhile p := by
  induction ys using List.reverseRecOn with
  | nil => rw [List.rdropWhile_concat_neg _ _ _ (by simp [hx]), List.rdropWhile_nil]
  | append_singleton ys y ih =>
      rw [← List.cons_append, ← List.append_assoc]
      by_cases hy : p y = true
      · rw [List.rdropWhile_concat_pos _ _ _ hy, List.rdropWhile_concat_pos _ _ _ hy, ih]
      · rw [List.rdropWhile_concat_neg _ _ _ hy, List.rdropWhile_concat_neg _ _ _ hy]
        simp

/-- A digit is no point. -/
theorem digitChar_ne_point {d : Nat} (h : d < 10) : (digitChar d == '.') = false := by
  revert h d
  decide

/-- Digits without the zeros at their end. -/
def dropLastZeros (ds : List Nat) : List Nat := ds.rdropWhile (· == 0)

theorem getLast?_dropLastZeros (ds : List Nat) : (dropLastZeros ds).getLast? ≠ some 0 := by
  induction ds using List.reverseRecOn with
  | nil => simp [dropLastZeros]
  | append_singleton ds d ih =>
      rw [dropLastZeros, List.rdropWhile_concat]
      by_cases hd : (d == 0) = true
      · rw [if_pos hd]
        exact ih
      · rw [if_neg hd, List.getLast?_concat]
        simpa using hd

theorem mem_of_mem_dropLastZeros {ds : List Nat} {d : Nat} (h : d ∈ dropLastZeros ds) : d ∈ ds :=
  List.IsPrefix.subset (List.rdropWhile_prefix _ _) h

/-- Zeros at the end of a fraction do not count. -/
theorem value_dropLastZeros (ds : List Nat) :
    (Numeral.value 10 (dropLastZeros ds) / 10 ^ (dropLastZeros ds).length : ℚ) =
      Numeral.value 10 ds / 10 ^ ds.length := by
  induction ds using List.reverseRecOn with
  | nil => rfl
  | append_singleton ds d ih =>
      rw [dropLastZeros]
      by_cases hd : d = 0
      · rw [List.rdropWhile_concat_pos _ _ _ (by simp [hd])]
        rw [dropLastZeros] at ih
        rw [ih, hd, value_append, value_singleton, List.length_append, List.length_singleton]
        push_cast
        field_simp
        ring
      · rw [List.rdropWhile_concat_neg _ _ _ (by simp [hd])]

theorem rdropWhile_map_digitChar : ∀ {ds : List Nat}, (∀ d ∈ ds, d < 10) →
    (ds.map digitChar).rdropWhile (· == '0') = (dropLastZeros ds).map digitChar := by
  intro ds
  induction ds using List.reverseRecOn with
  | nil => intro _; rfl
  | append_singleton ds d ih =>
      intro h
      have hd := digitChar_beq_zero d (Nat.lt_trans (h d (by simp)) (by omega))
      rw [List.map_append, List.map_singleton, List.rdropWhile_concat, dropLastZeros,
        List.rdropWhile_concat, hd]
      by_cases h0 : (d == 0) = true
      · rw [if_pos h0, if_pos h0]
        exact ih fun x hx => h x (by simp [hx])
      · rw [if_neg h0, if_neg h0, List.map_append, List.map_singleton]

/-! ### The plain numeral of a fraction -/

namespace PlainNumeral

/-- The numeral of `n / 10 ^ places`. -/
def ofDigits (n places : Nat) : PlainNumeral where
  whole := digits 10 (n / 10 ^ places)
  fraction := dropLastZeros (lastDigits 10 places n)
  whole_lt := fun _ hd => lt_of_mem_digits (by omega) hd
  fraction_lt := fun _ hd => lt_of_mem_lastDigits (by omega) (mem_of_mem_dropLastZeros hd)
  leading := by
    rcases Nat.eq_zero_or_pos (n / 10 ^ places) with h | h
    · rw [h]
      exact Or.inl (digits_zero 10)
    · exact Or.inr ⟨digits_ne_nil (by omega) _, head_digits_ne_zero (by omega) h⟩
  trailing := getLast?_dropLastZeros _

@[simp] theorem whole_ofDigits (n places : Nat) :
    (ofDigits n places).whole = digits 10 (n / 10 ^ places) := rfl

theorem number_ofDigits (n places : Nat) : (ofDigits n places).number = n / 10 ^ places := by
  have hdivide : (n : ℚ) = 10 ^ places * (n / 10 ^ places : ℕ) + (n % 10 ^ places : ℕ) := by
    exact_mod_cast (Nat.div_add_mod n (10 ^ places)).symm
  rw [number, ofDigits, value_dropLastZeros, value_digits (by omega), value_lastDigits,
    length_lastDigits, eq_div_iff (by positivity), add_mul, div_mul_cancel₀ _ (by positivity)]
  linarith

end PlainNumeral

/-- A decimal that is no integer has its point before its last places. -/
theorem Decimal.plain_eq (n : Nat) {places : Nat} (h : 0 < places) :
    Decimal.plain false ⟨n, -places⟩ =
      (Numeral.digits 10 (n / 10 ^ places)).map digitChar ++
        '.' :: (lastDigits 10 places n).map digitChar := by
  have hexponent : ¬ (0 : ℤ) ≤ -(places : ℤ) := by omega
  have hplaces : (-(-(places : ℤ))).toNat = places := by omega
  unfold Decimal.plain
  simp only [if_neg hexponent, hplaces, Decimal.digitChars, length_write]
  by_cases hlong : places < (Numeral.digits 10 n).length
  · rw [if_pos hlong]
    have happend := digits_eq_append (by omega) ((lt_length_digits_iff (by omega) h).mp hlong)
    have hlength : (Numeral.digits 10 n).length - places =
        ((Numeral.digits 10 (n / 10 ^ places)).map digitChar).length := by
      rw [happend, List.length_append, length_lastDigits, List.length_map]
      omega
    rw [hlength, write, happend, List.map_append, List.take_left, List.drop_left]
  · rw [if_neg hlong]
    have hsmall : n < 10 ^ places := by
      rw [lt_length_digits_iff (by omega) h] at hlong
      omega
    rw [Nat.div_eq_of_lt hsmall, digits_zero, ← replicate_append_digits (by omega) h hsmall,
      List.map_append, List.map_replicate]
    rfl

/-- A point is removed if nothing comes after it. -/
theorem rdropWhile_point {whole fraction : List Nat} (hwhole : ∀ d ∈ whole, d < 10)
    (hfraction : ∀ d ∈ fraction, d < 10) :
    (whole.map digitChar ++ '.' :: fraction.map digitChar).rdropWhile (· == '.') =
      whole.map digitChar ++ if fraction = [] then [] else '.' :: fraction.map digitChar := by
  rcases List.eq_nil_or_concat' fraction with rfl | ⟨init, last, rfl⟩
  · rw [if_pos rfl, List.map_nil, List.append_nil, List.rdropWhile_concat_pos _ _ _ (by decide),
      List.rdropWhile_eq_self_iff]
    intro hne
    obtain ⟨d, hd, hchar⟩ := List.mem_map.mp (List.getLast_mem hne)
    rw [← hchar, digitChar_ne_point (hwhole d hd)]
    decide
  · rw [if_neg (by simp), List.map_append, List.map_singleton, ← List.cons_append,
      ← List.append_assoc, List.rdropWhile_concat_neg]
    rw [digitChar_ne_point (hfraction last (by simp))]
    decide

/-- Removing zeros leaves the numeral of the same number. -/
theorem Amount.stripZeros_plain (n places : Nat) :
    stripZeros (Decimal.plain false ⟨n, -places⟩) = (PlainNumeral.ofDigits n places).chars := by
  rcases Nat.eq_zero_or_pos places with rfl | hplaces
  · have hplain : Decimal.plain false ⟨n, -((0 : ℕ) : ℤ)⟩ =
        (Numeral.digits 10 n).map digitChar := by
      simp [Decimal.plain, Decimal.digitChars, write]
    have hpoint : '.' ∉ (Numeral.digits 10 n).map digitChar := by
      intro hmem
      obtain ⟨d, hd, hchar⟩ := List.mem_map.mp hmem
      have := digitChar_ne_point (lt_of_mem_digits (by omega) hd)
      rw [hchar] at this
      exact absurd this (by decide)
    rw [hplain, stripZeros, if_neg hpoint, PlainNumeral.chars, PlainNumeral.ofDigits]
    simp [lastDigits, dropLastZeros]
  · rw [Decimal.plain_eq n hplaces, stripZeros, if_pos (by simp)]
    show ((List.rdropWhile _ _)).rdropWhile _ = _
    rw [rdropWhile_append_cons _ (by decide),
      rdropWhile_map_digitChar fun d hd => lt_of_mem_lastDigits (by omega) hd]
    exact rdropWhile_point (PlainNumeral.ofDigits n places).whole_lt
      (PlainNumeral.ofDigits n places).fraction_lt

/-! ### The scientific numeral of digits and an exponent -/

/-- The digits of an exponent, at least two. -/
def powerDigits (n : Nat) : List Nat :=
  List.replicate (2 - (Numeral.digits 10 n).length) 0 ++ Numeral.digits 10 n

theorem lt_of_mem_powerDigits {n d : Nat} (h : d ∈ powerDigits n) : d < 10 := by
  rcases List.mem_append.mp h with h | h
  · rw [List.eq_of_mem_replicate h]
    decide
  · exact lt_of_mem_digits (by omega) h

theorem length_powerDigits (n : Nat) :
    (powerDigits n).length = max 2 (Numeral.digits 10 n).length := by
  rw [powerDigits, List.length_append, List.length_replicate]
  omega

theorem head_powerDigits (n : Nat) :
    (powerDigits n).length = 2 ∨ (powerDigits n).head? ≠ some 0 := by
  by_cases hlong : 2 < (Numeral.digits 10 n).length
  · have hn : 0 < n := by
      rcases Nat.eq_zero_or_pos n with rfl | hn
      · rw [digits_zero, List.length_singleton] at hlong
        omega
      · exact hn
    refine Or.inr ?_
    rw [powerDigits, Nat.sub_eq_zero_of_le (Nat.le_of_lt hlong)]
    exact head_digits_ne_zero (by omega) hn
  · rw [length_powerDigits]
    omega

namespace ScientificNumeral

/-- The numeral of `n / 10 ^ places * 10 ^ e`, where `n` has one digit more than there are
places. -/
def ofDigits (n places : Nat) (hlo : 10 ^ places ≤ n) (hhi : n < 10 ^ (places + 1)) (e : ℤ) :
    ScientificNumeral where
  mantissa := PlainNumeral.ofDigits n places
  negative := decide (e < 0)
  power := powerDigits e.natAbs
  single := by
    have hpos : 0 < 10 ^ places := Nat.pow_pos (by omega)
    refine ⟨n / 10 ^ places, Nat.ne_of_gt (Nat.div_pos hlo hpos), ?_⟩
    rw [PlainNumeral.whole_ofDigits, digits_of_lt (by omega)]
    rwa [Nat.div_lt_iff_lt_mul hpos, Nat.mul_comm, ← pow_succ]
  power_lt := fun _ hd => lt_of_mem_powerDigits hd
  two_le_length := by
    rw [length_powerDigits]
    exact Nat.le_max_left _ _
  power_leading := head_powerDigits _

variable {n places : Nat} (hlo : 10 ^ places ≤ n) (hhi : n < 10 ^ (places + 1)) (e : ℤ)

theorem exponent_ofDigits : (ofDigits n places hlo hhi e).exponent = e := by
  have hvalue : Numeral.value 10 (powerDigits e.natAbs) = e.natAbs := by
    rw [powerDigits, value_replicate_append, value_digits (by omega)]
  show (if decide (e < 0) = true then -((Numeral.value 10 (powerDigits e.natAbs) : ℕ) : ℤ)
    else (Numeral.value 10 (powerDigits e.natAbs) : ℕ)) = e
  rw [hvalue]
  by_cases hneg : e < 0
  · rw [if_pos (by simpa using hneg)]
    omega
  · rw [if_neg (by simpa using hneg)]
    omega

theorem number_ofDigits : (ofDigits n places hlo hhi e).number = n / 10 ^ places * 10 ^ e := by
  rw [number, exponent_ofDigits]
  exact congrArg (· * _) (PlainNumeral.number_ofDigits n places)

/-- Six significant digits with an exponent are such a numeral. -/
theorem chars_ofDigits :
    (ofDigits n places hlo hhi e).chars =
      Amount.stripZeros (Decimal.plain false ⟨n, -places⟩) ++
        'e' :: Decimal.exponentChars true 2 e := by
  have hpower : Decimal.exponentChars true 2 e =
      (if decide (e < 0) then '-' else '+') :: (powerDigits e.natAbs).map digitChar := by
    rw [Decimal.exponentChars, powerDigits, List.map_append, List.map_replicate, length_write]
    by_cases hneg : e < 0
    · simp [hneg, write, digitChar]
    · simp [hneg, write, digitChar]
  rw [Amount.stripZeros_plain, hpower]
  rfl

end ScientificNumeral

end Reckoner
