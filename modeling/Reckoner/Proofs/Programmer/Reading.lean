/-
Words as they are written and read.

A text is read as the integer that its sign and digits denote, wrapped around at 64 bits, and
what it may look like is said here without the reader: blanks, an optional sign, digits in
either letter case, blanks.  A word is written as the one numeral of its number that is in
capitals and has no superfluous zero.  Reading takes a written word back, and writing takes
a text back as far as its letter case and its first zeros allow.
-/
import Reckoner.Proofs.Programmer.Word

namespace Reckoner

namespace Numeral

variable {base n : ℕ} {cs : List Char} {ds : List ℕ}

/-! ### Digits in either letter case -/

/-- A character is a digit of a base: the digit's own character, or that in lower case. -/
def IsDigit (base : ℕ) (c : Char) (d : ℕ) : Prop :=
  d < base ∧ (c = digitChar d ∨ c = (digitChar d).toLower)

theorem digitValue?_toLower_digitChar : ∀ d < 16, digitValue? (digitChar d).toLower = some d := by
  decide

theorem toUpper_digitChar : ∀ d < 16, (digitChar d).toUpper = digitChar d := by
  decide

/-- A character is in upper case, or else it is the lower case of its upper case. -/
theorem eq_toUpper_or (c : Char) : c = c.toUpper ∨ c = c.toUpper.toLower := by
  by_cases h : c.isLower = true
  · right
    rw [Char.toLower_toUpper_eq_toLower,
      Char.toLower_eq_of_not_isUpper (Char.not_isUpper_of_isLower h)]
  · exact .inl (Char.toUpper_eq_of_not_isLower h).symm

theorem digitIn?_eq_some_iff_isDigit (hbase : base ≤ 16) {c : Char} {d : ℕ} :
    digitIn? base c = some d ↔ IsDigit base c d := by
  constructor
  · intro h
    have hupper := digitChar_of_digitIn? ((digitIn?_toUpper base c).trans h)
    refine ⟨(digitIn?_eq_some.mp h).2, ?_⟩
    rw [hupper]
    exact eq_toUpper_or c
  · rintro ⟨hd, rfl | rfl⟩
    · exact digitIn?_digitChar hbase hd
    · exact digitIn?_eq_some.mpr ⟨digitValue?_toLower_digitChar d (by omega), hd⟩

theorem IsDigit.toUpper_eq (hbase : base ≤ 16) {c : Char} {d : ℕ} (h : IsDigit base c d) :
    c.toUpper = digitChar d := by
  obtain ⟨hd, rfl | rfl⟩ := h
  · exact toUpper_digitChar d (by omega)
  · rw [Char.toUpper_toLower_eq_toUpper]
    exact toUpper_digitChar d (by omega)

theorem mapM_digitIn?_eq_some (hbase : base ≤ 16) :
    cs.mapM (digitIn? base) = some ds ↔ List.Forall₂ (IsDigit base) cs ds := by
  induction cs generalizing ds with
  | nil => simp [eq_comm]
  | cons c cs ih =>
      simp only [List.mapM_cons, Option.bind_eq_bind, Option.bind_eq_some_iff, Option.pure_def,
        Option.some.injEq, digitIn?_eq_some_iff_isDigit hbase, ih, List.forall₂_cons_left_iff]
      constructor
      · rintro ⟨d, hd, ds', hds, rfl⟩
        exact ⟨d, ds', hd, hds, rfl⟩
      · rintro ⟨d, ds', hd, hds, rfl⟩
        exact ⟨d, hd, ds', hds, rfl⟩

/-- Reading accepts digits and nothing else, and finds the number that they denote. -/
theorem read?_eq_some (hbase : base ≤ 16) :
    read? base cs = some n ↔
      ∃ ds, List.Forall₂ (IsDigit base) cs ds ∧ Nat.ofDigits base ds.reverse = n := by
  simp only [read?, Option.map_eq_some_iff, mapM_digitIn?_eq_some hbase, value_eq_ofDigits]

/-! ### Numerals without superfluous zeros -/

/-- A text is the canonical numeral of a number: its digits are in upper case, and a zero in front
is alone. -/
def IsCanonical (base : ℕ) (cs : List Char) (n : ℕ) : Prop :=
  ∃ ds : List ℕ, cs = ds.map digitChar ∧ (∀ d ∈ ds, d < base) ∧
    (ds = [0] ∨ ds ≠ [] ∧ ds.head? ≠ some 0) ∧ Nat.ofDigits base ds.reverse = n

theorem isCanonical_write (hbase : 1 < base) (n : ℕ) : IsCanonical base (write base n) n := by
  refine ⟨digits base n, rfl, fun d hd => lt_of_mem_digits hbase hd, ?_, ?_⟩
  · rcases Nat.eq_zero_or_pos n with rfl | hn
    · exact .inl (digits_zero base)
    · exact .inr ⟨digits_ne_nil hbase n, head_digits_ne_zero hbase hn⟩
  · rw [← value_eq_ofDigits, value_digits hbase]

/-- A text without the zeros at its start, of which one stays if there is nothing else. -/
def withoutLeadingZeros (cs : List Char) : List Char :=
  match cs.dropWhile (· == '0') with
  | [] => ['0']
  | rest => rest

/-- Zeros in front are the only digits that a number has lost when it is written. -/
theorem digits_value (hbase : 1 < base) (hds : ∀ d ∈ ds, d < base) :
    digits base (value base ds) =
      if ds.dropWhile (· == 0) = [] then [0] else ds.dropWhile (· == 0) := by
  have hzeros : ds = List.replicate (ds.takeWhile (· == 0)).length 0 ++ ds.dropWhile (· == 0) := by
    have htake : ds.takeWhile (· == 0) = List.replicate (ds.takeWhile (· == 0)).length 0 := by
      refine List.eq_replicate_of_mem fun d hd => ?_
      simpa using List.mem_takeWhile_imp hd
    rw [← htake, List.takeWhile_append_dropWhile]
  have hvalue : value base ds = value base (ds.dropWhile (· == 0)) := by
    conv_lhs => rw [hzeros, value_replicate_append]
  have hmem : ∀ d ∈ ds.dropWhile (· == 0), d < base :=
    fun d hd => hds d ((List.dropWhile_sublist _).subset hd)
  have hhead : ∀ h : ds.dropWhile (· == 0) ≠ [], (ds.dropWhile (· == 0)).head h ≠ 0 := by
    intro h h0
    have := List.head_dropWhile_not (· == 0) h
    rw [h0] at this
    cases this
  rw [hvalue]
  generalize ds.dropWhile (· == 0) = rest at hmem hhead ⊢
  split
  · rename_i hnil
    rw [hnil]
    exact digits_zero base
  · rename_i hne
    have hdigits : Nat.digits base (Nat.ofDigits base rest.reverse) = rest.reverse := by
      refine Nat.digits_ofDigits base hbase _ (by simpa using hmem) fun h => ?_
      rw [List.getLast_reverse]
      exact hhead hne
    have hpos : 0 < value base rest := by
      rw [value_eq_ofDigits]
      refine Nat.pos_of_ne_zero fun h0 => ?_
      rw [h0, Nat.digits_zero] at hdigits
      exact hne (by simpa using hdigits.symm)
    rw [digits_of_pos hbase hpos, value_eq_ofDigits, hdigits, List.reverse_reverse]

theorem dropWhile_map_digitChar (hbase16 : base ≤ 16) (hds : ∀ d ∈ ds, d < base) :
    (ds.map digitChar).dropWhile (· == '0') = (ds.dropWhile (· == 0)).map digitChar := by
  induction ds with
  | nil => rfl
  | cons d ds ih =>
      have hd := hds d (by simp)
      rw [List.map_cons, List.dropWhile_cons, List.dropWhile_cons, digitChar_beq_zero d (by omega)]
      by_cases h0 : (d == 0) = true
      · rw [if_pos h0, if_pos h0]
        exact ih fun x hx => hds x (by simp [hx])
      · rw [if_neg h0, if_neg h0, List.map_cons]

theorem map_toUpper_eq (hbase16 : base ≤ 16) (h : List.Forall₂ (IsDigit base) cs ds) :
    cs.map Char.toUpper = ds.map digitChar ∧ ∀ d ∈ ds, d < base := by
  induction h with
  | nil => exact ⟨rfl, by simp⟩
  | cons hd _ ih =>
      obtain ⟨hmap, hlt⟩ := ih
      refine ⟨by rw [List.map_cons, List.map_cons, hmap, hd.toUpper_eq hbase16], ?_⟩
      intro d hmem
      rcases List.mem_cons.mp hmem with rfl | hmem
      · exact hd.1
      · exact hlt d hmem

/-- Digits that are read and written come back in upper case and without superfluous zeros. -/
theorem write_ofDigits (hbase : 1 < base) (hbase16 : base ≤ 16)
    (h : List.Forall₂ (IsDigit base) cs ds) :
    write base (Nat.ofDigits base ds.reverse) = withoutLeadingZeros (cs.map Char.toUpper) := by
  obtain ⟨hmap, hlt⟩ := map_toUpper_eq hbase16 h
  rw [write, ← value_eq_ofDigits, digits_value hbase hlt, withoutLeadingZeros, hmap,
    dropWhile_map_digitChar hbase16 hlt]
  cases ds.dropWhile (· == 0) <;> rfl

end Numeral

namespace Radix

open Numeral

/-! ### Texts of integers -/

/-- The integers that a text without blanks at its ends denotes. -/
inductive Denotes (r : Radix) : List Char → ℤ → Prop
  | nothing : Denotes r [] 0
  | unsigned {cs : List Char} {ds : List ℕ} (hcs : cs ≠ [])
      (h : List.Forall₂ (IsDigit r.base) cs ds) : Denotes r cs (Nat.ofDigits r.base ds.reverse : ℕ)
  | plus {cs : List Char} {ds : List ℕ} (hcs : cs ≠ [])
      (h : List.Forall₂ (IsDigit r.base) cs ds) :
      Denotes r ('+' :: cs) (Nat.ofDigits r.base ds.reverse : ℕ)
  | minus {cs : List Char} {ds : List ℕ} (hcs : cs ≠ [])
      (h : List.Forall₂ (IsDigit r.base) cs ds) :
      Denotes r ('-' :: cs) (-(Nat.ofDigits r.base ds.reverse : ℕ))

/-- A text denotes an integer if it does so between blanks. -/
def TextDenotes (r : Radix) (text : String) (n : ℤ) : Prop :=
  ∃ before core after, text.toList = before ++ core ++ after ∧
    (∀ c ∈ before, Text.isBlank c = true) ∧ (∀ c ∈ after, Text.isBlank c = true) ∧ r.Denotes core n

variable {r : Radix} {cs : List Char} {text : String} {v : UInt64} {n : ℤ}

theorem isBlank_of_isDigit {c : Char} {d : ℕ} (h : IsDigit r.base c d) :
    Text.isBlank c = false ∧ c ≠ '-' ∧ c ≠ '+' := by
  have haccepts : r.accepts c = true := by
    rw [accepts, (digitIn?_eq_some_iff_isDigit r.base_le).mpr h]
    rfl
  exact accepts_ne haccepts

/-- Nothing in a text of an integer is blank. -/
theorem Denotes.not_blank (h : r.Denotes cs n) : ∀ c ∈ cs, Text.isBlank c = false := by
  have hdigits : ∀ {cs : List Char} {ds : List ℕ}, List.Forall₂ (IsDigit r.base) cs ds →
      ∀ c ∈ cs, Text.isBlank c = false := by
    intro cs ds h
    induction h with
    | nil => simp
    | cons hd _ ih => simpa using ⟨(isBlank_of_isDigit hd).1, ih⟩
  cases h with
  | nothing => simp
  | unsigned _ h => exact hdigits h
  | plus _ h => simpa using ⟨by decide, hdigits h⟩
  | minus _ h => simpa using ⟨by decide, hdigits h⟩

/-- Trimming finds the text of an integer between blanks. -/
theorem textDenotes_iff : r.TextDenotes text n ↔ r.Denotes (Text.trimChars text.toList) n := by
  constructor
  · rintro ⟨before, core, after, htext, hbefore, hafter, h⟩
    rw [htext, Text.trimChars_append hbefore hafter
      (fun c hc => h.not_blank c (List.mem_of_mem_head? hc))
      (fun c hc => h.not_blank c (List.mem_of_getLast? hc))]
    exact h
  · intro h
    obtain ⟨before, after, htext, hbefore, hafter⟩ := Text.exists_blanks text.toList
    exact ⟨before, _, after, htext, hbefore, hafter, h⟩

/-! ### Reading -/

theorem readDigits?_eq_some : r.readDigits? cs = some v ↔
    ∃ ds, List.Forall₂ (IsDigit r.base) cs ds ∧ UInt64.ofNat (Nat.ofDigits r.base ds.reverse) = v := by
  rw [readDigits?_eq, Option.map_eq_some_iff]
  constructor
  · rintro ⟨n, hn, rfl⟩
    obtain ⟨ds, hds, rfl⟩ := (read?_eq_some r.base_le).mp hn
    exact ⟨ds, hds, rfl⟩
  · rintro ⟨ds, hds, rfl⟩
    exact ⟨_, (read?_eq_some r.base_le).mpr ⟨ds, hds, rfl⟩, rfl⟩

/-- The word of digits is their number, wrapped around. -/
theorem toNat_ofDigits (k : ℕ) : ((UInt64.ofNat k).toNat : ℤ) = (k : ℤ) % 2 ^ 64 := by
  rw [UInt64.toNat_ofNat']
  push_cast
  rfl

theorem toNat_neg_ofDigits (k : ℕ) : ((-UInt64.ofNat k).toNat : ℤ) = -(k : ℤ) % 2 ^ 64 := by
  rw [UInt64.toNat_neg, UInt64.toNat_ofNat']
  simp only [UInt64.size]
  omega

/-- The text of an integer is read as that integer, wrapped around. -/
theorem read_of_denotes (h : r.Denotes (Text.trimChars text.toList) n) :
    ∃ v, r.read text = .ok v ∧ (v.toNat : ℤ) = n % 2 ^ 64 := by
  unfold read
  generalize Text.trimChars text.toList = core at h
  cases h with
  | nothing => exact ⟨0, rfl, rfl⟩
  | @unsigned _ ds hcs h =>
      have hread := readDigits?_eq_some.mpr ⟨ds, h, rfl⟩
      refine ⟨_, ?_, toNat_ofDigits _⟩
      obtain ⟨c, cs, rfl⟩ := List.exists_cons_of_ne_nil hcs
      obtain ⟨d, ds', hd, -, rfl⟩ := List.forall₂_cons_left_iff.mp h
      obtain ⟨-, hminus, hplus⟩ := isBlank_of_isDigit hd
      split
      · rename_i heq
        cases heq
      · rename_i heq
        exact absurd (List.cons.inj heq).1 hminus
      · rename_i heq
        exact absurd (List.cons.inj heq).1 hplus
      · simp only [hread]
  | @plus cs ds hcs h =>
      obtain ⟨c, cs, rfl⟩ := List.exists_cons_of_ne_nil hcs
      simp only [readDigits?_eq_some.mpr ⟨ds, h, rfl⟩]
      exact ⟨_, rfl, toNat_ofDigits _⟩
  | @minus cs ds hcs h =>
      obtain ⟨c, cs, rfl⟩ := List.exists_cons_of_ne_nil hcs
      simp only [readDigits?_eq_some.mpr ⟨ds, h, rfl⟩]
      exact ⟨_, rfl, toNat_neg_ofDigits _⟩

/-- What is read is the text of an integer. -/
theorem denotes_of_read (h : r.read text = .ok v) :
    ∃ n, r.Denotes (Text.trimChars text.toList) n := by
  unfold read at h
  generalize Text.trimChars text.toList = core at h ⊢
  dsimp only at h
  split at h
  · rename_i w hw
    split at hw
    · exact ⟨0, .nothing⟩
    · obtain ⟨u, hu, -⟩ := Option.map_eq_some_iff.mp hw
      obtain ⟨ds, hds, -⟩ := readDigits?_eq_some.mp hu
      exact ⟨_, .minus (by simp) hds⟩
    · obtain ⟨ds, hds, -⟩ := readDigits?_eq_some.mp hw
      exact ⟨_, .plus (by simp) hds⟩
    · rename_i hnil _ _
      obtain ⟨ds, hds, -⟩ := readDigits?_eq_some.mp hw
      exact ⟨_, .unsigned hnil hds⟩
  · cases h

/-- Reading accepts the texts of integers and no others. -/
theorem read_eq_ok : r.read text = .ok v ↔
    ∃ n, r.TextDenotes text n ∧ (v.toNat : ℤ) = n % 2 ^ 64 := by
  simp only [textDenotes_iff]
  constructor
  · intro h
    obtain ⟨n, hn⟩ := denotes_of_read h
    obtain ⟨w, hw, hvalue⟩ := read_of_denotes hn
    rw [h] at hw
    cases hw
    exact ⟨n, hn, hvalue⟩
  · rintro ⟨n, hn, hvalue⟩
    obtain ⟨w, hw, hvalue'⟩ := read_of_denotes hn
    have heq : w = v := by
      rw [← UInt64.toNat_inj]
      omega
    rw [hw, heq]

theorem error_of_read {e : WordError} (h : r.read text = .error e) :
    e = .invalidDigits r text := by
  unfold read at h
  dsimp only at h
  split at h <;> cases h
  rfl

/-! ### The theorem -/

/-- Digits without a sign whose number fits a word are written back. -/
theorem map_write_read {ds : List ℕ} (h : List.Forall₂ (IsDigit r.base) cs ds)
    (hfits : Nat.ofDigits r.base ds.reverse < 2 ^ 64) :
    (r.read (String.ofList cs)).map r.write =
      .ok (String.ofList (withoutLeadingZeros (cs.map Char.toUpper))) := by
  have hread := read_ofList ((read?_eq_some r.base_le).mpr ⟨ds, h, rfl⟩)
  rw [hread]
  show Except.ok (String.ofList (Numeral.write r.base (UInt64.ofNat _).toNat)) = _
  rw [UInt64.toNat_ofNat', Nat.mod_eq_of_lt hfits, write_ofDigits r.one_lt_base r.base_le h]

/--
**Reading and writing words.**  A text is read exactly if it denotes an integer, and then as this
integer wrapped around, however many digits it has; any other text is refused as it stands.  A word
is written as the canonical numeral of its number and read back as itself; and digits of a number
that fits a word come back in upper case, without the zeros in front.
-/
theorem read_and_write (r : Radix) :
    (∀ text v, r.read text = .ok v ↔ ∃ n, r.TextDenotes text n ∧ (v.toNat : ℤ) = n % 2 ^ 64) ∧
    (∀ text e, r.read text = .error e → e = .invalidDigits r text) ∧
    (∀ v, r.read (r.write v) = .ok v ∧
      ∃ cs, r.write v = String.ofList cs ∧ IsCanonical r.base cs v.toNat) ∧
    (∀ cs ds, List.Forall₂ (IsDigit r.base) cs ds →
      Nat.ofDigits r.base ds.reverse < 2 ^ 64 →
      (r.read (String.ofList cs)).map r.write =
        .ok (String.ofList (withoutLeadingZeros (cs.map Char.toUpper)))) := by
  refine ⟨fun text v => read_eq_ok, fun text e => error_of_read, ?_, fun cs ds => map_write_read⟩
  intro v
  have hread := read_ofList (Numeral.read?_write r.one_lt_base r.base_le v.toNat)
  rw [UInt64.ofNat_toNat] at hread
  exact ⟨hread, _, rfl, isCanonical_write r.one_lt_base _⟩

/-- A minus sign wraps around, and a number that is too large for a word does. -/
example : (hex.read " -1", dec.read "+18446744073709551617") =
    (.ok 0xFFFFFFFFFFFFFFFF, .ok 1) := by decide +kernel

end Radix

end Reckoner
