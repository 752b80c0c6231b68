/-
Numerals are read back.

The numerals in which amounts are shown, plain and scientific ones with a sign in front, have one
shape: digits, a point if digits follow it, and an exponent if there is one.  Each part is read up
to where the next one starts, so the reader finds exactly these parts, and what it takes for their
value is the double nearest to the number they denote.  What an amount shows is in the range of the
format, so that what is read is finite.
-/
import Reckoner.Decimal.Reading
import Reckoner.Proofs.Amount
import Reckoner.Proofs.Double.Arithmetic

namespace Reckoner

open Numeral

/-! ### Where a part of a text ends -/

section Spans

variable {p : Char → Bool} {cs rest : List Char}

theorem takeWhile_append_rest (hcs : ∀ c ∈ cs, p c = true)
    (hrest : ∀ c, rest.head? = some c → p c = false) : (cs ++ rest).takeWhile p = cs := by
  rw [List.takeWhile_append_of_pos hcs]
  cases rest with
  | nil => simp
  | cons c rest => simp [hrest c rfl]

theorem dropWhile_append_rest (hcs : ∀ c ∈ cs, p c = true)
    (hrest : ∀ c, rest.head? = some c → p c = false) : (cs ++ rest).dropWhile p = rest := by
  rw [List.dropWhile_append_of_pos hcs]
  cases rest with
  | nil => rfl
  | cons c rest => simp [hrest c rfl]

end Spans

/-! ### The number of a numeral -/

namespace DecimalNumeral

/-- The number that a numeral denotes. -/
def number (n : DecimalNumeral) : ℚ :=
  if n.negative then -(natOf (n.whole ++ n.fraction) * 10 ^ (n.exponent - n.fraction.length))
  else natOf (n.whole ++ n.fraction) * 10 ^ (n.exponent - n.fraction.length)

/-- The value of a numeral is the double nearest to what it denotes. -/
theorem rounds_toDouble (n : DecimalNumeral) : Double.Rounds n.number n.toDouble :=
  Double.rounds_ofDecimal _ _ _

end DecimalNumeral

/-! ### Numerals with a sign and an exponent -/

/-- A numeral in one of the notations in which amounts are shown. -/
structure SignedNumeral where
  negative : Bool
  whole : List Nat
  fraction : List Nat
  /-- The digits of the exponent and whether it has a minus sign, if there is one. -/
  power : Option (Bool × List Nat)
  whole_ne_nil : whole ≠ []
  whole_lt : ∀ d ∈ whole, d < 10
  fraction_lt : ∀ d ∈ fraction, d < 10
  power_ne_nil : ∀ b ds, power = some (b, ds) → ds ≠ []
  power_lt : ∀ b ds, power = some (b, ds) → ∀ d ∈ ds, d < 10

namespace SignedNumeral

variable {t : SignedNumeral} {rest : List Char}

def signPart (t : SignedNumeral) : List Char := if t.negative then ['-'] else []

def pointPart (t : SignedNumeral) : List Char :=
  if t.fraction = [] then [] else '.' :: t.fraction.map digitChar

def exponentPart (t : SignedNumeral) : List Char :=
  match t.power with
  | none => []
  | some (negative, ds) => 'e' :: (if negative then '-' else '+') :: ds.map digitChar

def chars (t : SignedNumeral) : List Char :=
  t.signPart ++ (t.whole.map digitChar ++ t.pointPart ++ t.exponentPart)

def exponent (t : SignedNumeral) : ℤ :=
  match t.power with
  | none => 0
  | some (negative, ds) => if negative then -(Numeral.value 10 ds : ℤ) else Numeral.value 10 ds

/-- The number that a numeral denotes, without its sign. -/
def size (t : SignedNumeral) : ℚ :=
  (Numeral.value 10 t.whole + Numeral.value 10 t.fraction / 10 ^ t.fraction.length) *
    10 ^ t.exponent

/-- The number that a numeral denotes. -/
def number (t : SignedNumeral) : ℚ := if t.negative then -t.size else t.size

/-! ### The two notations -/

def ofPlain (negative : Bool) (t : PlainNumeral) : SignedNumeral where
  negative := negative
  whole := t.whole
  fraction := t.fraction
  power := none
  whole_ne_nil := by
    rcases t.leading with h | h
    · simp [h]
    · exact h.1
  whole_lt := t.whole_lt
  fraction_lt := t.fraction_lt
  power_ne_nil := nofun
  power_lt := nofun

def ofScientific (negative : Bool) (t : ScientificNumeral) : SignedNumeral where
  negative := negative
  whole := t.mantissa.whole
  fraction := t.mantissa.fraction
  power := some (t.negative, t.power)
  whole_ne_nil := (ofPlain negative t.mantissa).whole_ne_nil
  whole_lt := t.mantissa.whole_lt
  fraction_lt := t.mantissa.fraction_lt
  power_ne_nil := by
    rintro b ds ⟨⟩ hnil
    have := t.two_le_length
    rw [hnil] at this
    cases this
  power_lt := by
    rintro b ds ⟨⟩
    exact t.power_lt

theorem number_eq {r : ℚ} (hnegative : t.negative = decide (r < 0)) (hsize : t.size = |r|) :
    t.number = r := by
  rw [number, hnegative, hsize]
  by_cases hr : r < 0
  · simp [hr, abs_of_neg hr]
  · simp [hr, abs_of_nonneg (not_lt.mp hr)]

theorem signPart_eq {r : ℚ} (hnegative : t.negative = decide (r < 0)) :
    t.signPart = signChars r := by
  rw [signPart, signChars, hnegative]
  simp

theorem exists_of_isPlain {text : String} {r : ℚ} (h : IsPlain text r) :
    ∃ t : SignedNumeral, text = String.ofList t.chars ∧ t.number = r := by
  obtain ⟨t, hnumber, rfl⟩ := h
  refine ⟨ofPlain (decide (r < 0)) t, ?_, number_eq rfl ?_⟩
  · rw [chars, signPart_eq rfl]
    by_cases hfraction : t.fraction = []
    all_goals simp [ofPlain, pointPart, exponentPart, PlainNumeral.chars, hfraction]
  · rw [← hnumber]
    simp [size, ofPlain, exponent, PlainNumeral.number]

theorem exists_of_isScientific {text : String} {r : ℚ} {k : ℤ} (h : IsScientific text r k) :
    ∃ t : SignedNumeral, text = String.ofList t.chars ∧ t.number = r := by
  obtain ⟨t, hnumber, -, rfl⟩ := h
  refine ⟨ofScientific (decide (r < 0)) t, ?_, number_eq rfl ?_⟩
  · rw [chars, signPart_eq rfl]
    by_cases hfraction : t.mantissa.fraction = []
    all_goals simp [ofScientific, pointPart, exponentPart, ScientificNumeral.chars,
      PlainNumeral.chars, hfraction]
  · rw [← hnumber]
    simp [size, ofScientific, exponent, ScientificNumeral.number, ScientificNumeral.exponent,
      PlainNumeral.number]

/-! ### Reading -/

theorem isDigit_of_mem_map {ds : List Nat} (h : ∀ d ∈ ds, d < 10) :
    ∀ c ∈ ds.map digitChar, c.isDigit = true := by
  intro c hc
  obtain ⟨d, hd, rfl⟩ := List.mem_map.mp hc
  exact isDigit_digitChar (h d hd)

theorem natOf_map {ds : List Nat} (h : ∀ d ∈ ds, d < 10) :
    DecimalNumeral.natOf (ds.map digitChar) = Numeral.value 10 ds := by
  have hdigits : (ds.map digitChar).map (fun c => c.toNat - '0'.toNat) = ds := by
    rw [List.map_map]
    exact (List.map_congr_left fun d hd => toNat_digitChar (h d hd)).trans (List.map_id ds)
  rw [DecimalNumeral.natOf, hdigits]

/-- The parts of a numeral as the reader has them. -/
def parts (t : SignedNumeral) : DecimalNumeral :=
  ⟨t.negative, t.whole.map digitChar, t.fraction.map digitChar, t.exponent⟩

theorem exists_whole_eq_cons (t : SignedNumeral) :
    ∃ c cs, t.whole.map digitChar = c :: cs ∧ c.isDigit = true := by
  obtain ⟨d, ds, hwhole⟩ := List.exists_cons_of_ne_nil t.whole_ne_nil
  refine ⟨digitChar d, ds.map digitChar, by rw [hwhole]; rfl, ?_⟩
  exact isDigit_digitChar (t.whole_lt d (by simp [hwhole]))

theorem ne_sign_of_isDigit {c : Char} (h : c.isDigit = true) : c ≠ '+' ∧ c ≠ '-' := by
  constructor
  all_goals
    rintro rfl
    cases h

theorem readSign_append (t : SignedNumeral) (rest : List Char) :
    DecimalNumeral.readSign (t.signPart ++ (t.whole.map digitChar ++ rest)) =
      (t.negative, t.whole.map digitChar ++ rest) := by
  obtain ⟨c, cs, hwhole, hdigit⟩ := t.exists_whole_eq_cons
  obtain ⟨hplus, hminus⟩ := ne_sign_of_isDigit hdigit
  rw [hwhole, signPart]
  cases t.negative <;> simp [DecimalNumeral.readSign, hplus, hminus]

theorem readDigits?_append (t : SignedNumeral)
    (hrest : ∀ c, rest.head? = some c → c.isDigit = false ∧ c ≠ '.') :
    DecimalNumeral.readDigits? (t.whole.map digitChar ++ (t.pointPart ++ rest)) =
      some (t.whole.map digitChar, t.fraction.map digitChar, rest) := by
  have hwhole := isDigit_of_mem_map t.whole_lt
  have hfraction := isDigit_of_mem_map t.fraction_lt
  have hdigit : ∀ c, rest.head? = some c → c.isDigit = false := fun c hc => (hrest c hc).1
  unfold DecimalNumeral.readDigits?
  by_cases hnone : t.fraction = []
  · have hpoint : t.pointPart = [] := if_pos hnone
    rw [hpoint, List.nil_append, takeWhile_append_rest hwhole hdigit,
      dropWhile_append_rest hwhole hdigit]
    split
    · exact absurd rfl (hrest '.' rfl).2
    · simp [t.whole_ne_nil, hnone]
  · have hpoint : t.pointPart = '.' :: t.fraction.map digitChar := if_neg hnone
    have hhead : ∀ c, ('.' :: (t.fraction.map digitChar ++ rest)).head? = some c →
        c.isDigit = false := by
      rintro c ⟨⟩
      rfl
    rw [hpoint, List.cons_append, takeWhile_append_rest hwhole hhead,
      dropWhile_append_rest hwhole hhead]
    simp [takeWhile_append_rest hfraction hdigit, dropWhile_append_rest hfraction hdigit,
      t.whole_ne_nil]

/-- The exponent ends the text. -/
theorem readExponent?_exponentPart (t : SignedNumeral) :
    DecimalNumeral.readExponent? t.exponentPart = t.power.map fun _ => (t.exponent, []) := by
  rw [exponentPart, exponent]
  cases hpower : t.power with
  | none => rfl
  | some p =>
      obtain ⟨negative, ds⟩ := p
      have hds := isDigit_of_mem_map (t.power_lt negative ds hpower)
      have hne := t.power_ne_nil negative ds hpower
      have htake : (ds.map digitChar).takeWhile Char.isDigit = ds.map digitChar := by
        rw [List.takeWhile_eq_self_iff]
        exact hds
      have hdrop : (ds.map digitChar).dropWhile Char.isDigit = [] := by
        rw [List.dropWhile_eq_nil_iff]
        exact hds
      have hvalue := natOf_map (t.power_lt negative ds hpower)
      cases negative <;>
        simp [DecimalNumeral.readExponent?, DecimalNumeral.readSign, htake, hdrop, hne, hvalue]

/-- A numeral is read into its parts. -/
theorem read?_chars (t : SignedNumeral) : DecimalNumeral.read? t.chars = some t.parts := by
  have hend : ∀ c, t.exponentPart.head? = some c → c.isDigit = false ∧ c ≠ '.' := by
    intro c hc
    unfold exponentPart at hc
    split at hc
    · cases hc
    · cases hc
      decide
  have hprefix : DecimalNumeral.readPrefix? t.chars = some (t.parts, []) := by
    rw [DecimalNumeral.readPrefix?, chars, List.append_assoc, t.readSign_append]
    dsimp only
    rw [t.readDigits?_append hend]
    simp only [Option.bind_eq_bind, Option.bind_some, t.readExponent?_exponentPart]
    cases hpower : t.power with
    | none => simp [parts, exponent, exponentPart, hpower]
    | some p => simp [parts]
  rw [DecimalNumeral.read?, hprefix]

/-- Numerals with the same characters have the same parts. -/
theorem parts_eq_of_chars_eq {t t' : SignedNumeral} (h : t.chars = t'.chars) :
    t.parts = t'.parts := by
  have hread := t.read?_chars
  rw [h, t'.read?_chars] at hread
  exact (Option.some.inj hread).symm

/-- The parts denote what the numeral denotes. -/
theorem number_parts (t : SignedNumeral) : t.parts.number = t.number := by
  have hsize : t.size = (Numeral.value 10 (t.whole ++ t.fraction) : ℚ) *
      10 ^ (t.exponent - t.fraction.length) := by
    rw [size, value_append, zpow_sub₀ (by norm_num), zpow_natCast]
    push_cast
    field_simp
  have hnat : DecimalNumeral.natOf (t.whole.map digitChar ++ t.fraction.map digitChar) =
      Numeral.value 10 (t.whole ++ t.fraction) := by
    rw [← List.map_append]
    refine natOf_map fun d hd => ?_
    rcases List.mem_append.mp hd with h | h
    · exact t.whole_lt d h
    · exact t.fraction_lt d h
  rw [DecimalNumeral.number, parts, hnat, List.length_map, number, hsize]

/-- The value of what is read is the double nearest to what is denoted. -/
theorem rounds_parts (t : SignedNumeral) : Double.Rounds t.number t.parts.toDouble := by
  rw [← t.number_parts]
  exact t.parts.rounds_toDouble

end SignedNumeral

/-! ### What is shown -/

/-- The limit of the format between two numbers of six digits. -/
theorem limit_between :
    (359538 * 10 ^ 303 : ℚ) < 2 * Double.limit ∧ 2 * Double.limit < 359539 * 10 ^ 303 := by
  have hlo : 359538 * 10 ^ 303 < 18014398509481983 * 2 ^ 971 := by decide +kernel
  have hhi : 18014398509481983 * 2 ^ 971 < 359539 * 10 ^ 303 := by decide +kernel
  have hlimit : 2 * Double.limit = (18014398509481983 * 2 ^ 971 : ℕ) := by
    rw [Double.limit, Nat.cast_mul, Nat.cast_pow, Nat.cast_ofNat, Nat.cast_ofNat]
    generalize (2 : ℚ) ^ 971 = top
    norm_num
    ring
  rw [hlimit]
  exact ⟨by exact_mod_cast hlo, by exact_mod_cast hhi⟩

/-- Rounding to six digits does not leave the range: the largest magnitude is rounded down. -/
theorem IsRounded.lt_limit {x r : ℚ} (hx : 0 < x) (hlimit : x < Double.limit)
    (h : IsRounded 6 x r) : r < Double.limit := by
  obtain ⟨e, n, he, hn, rfl⟩ := h
  rw [abs_of_pos hx] at he
  obtain ⟨hlo, hhi⟩ := limit_between
  have hplace : ((6 : ℕ) : ℤ) - 1 = 5 := rfl
  rw [hplace] at hn ⊢
  have hpos : (0 : ℚ) < 10 ^ 303 := by positivity
  by_cases hdecade : e ≤ 307
  · -- The next decade starts below the limit.
    have hscale := he.scale (5 - e)
    rw [add_sub_cancel] at hscale
    have hn6 : (n : ℚ) ≤ 10 ^ 6 := by
      exact_mod_cast (InDecade.isNearest_bounds (c := 5) hscale hn).2
    have hpower : (10 : ℚ) ^ (e - 5) ≤ 10 ^ 302 := by
      rw [← zpow_natCast]
      exact zpow_le_zpow_right₀ (by norm_num) (by omega)
    have hr : (n : ℚ) * 10 ^ (e - 5) ≤ 10 ^ 6 * 10 ^ 302 :=
      mul_le_mul hn6 hpower (by positivity) (by norm_num)
    rw [pow_succ] at hlo hhi hpos
    generalize (10 : ℚ) ^ 302 = top at hlo hr hpos
    linarith
  · have hlast : e = 308 := by
      have hlt : (10 : ℚ) ^ e < 10 ^ (309 : ℤ) := by
        refine lt_of_le_of_lt he.lower (lt_trans hlimit ?_)
        have hpower : (10 : ℚ) ^ (309 : ℤ) = 10 ^ 6 * 10 ^ 303 := by
          rw [← pow_add]
          exact zpow_natCast 10 309
        rw [hpower]
        generalize (10 : ℚ) ^ 303 = top at hhi hpos ⊢
        linarith only [hhi, hpos]
      have := (zpow_lt_zpow_iff_right₀ (by norm_num : (1 : ℚ) < 10)).mp hlt
      omega
    subst hlast
    have hdown : (10 : ℚ) ^ ((5 : ℤ) - 308) = (10 ^ 303)⁻¹ := by
      rw [← zpow_natCast, ← zpow_neg]
      rfl
    have hup : (10 : ℚ) ^ ((308 : ℤ) - 5) = 10 ^ 303 := zpow_natCast 10 303
    rw [hdown] at hn
    rw [hup]
    generalize (10 : ℚ) ^ 303 = top at hlo hhi hpos hn ⊢
    have hxtop : x * top⁻¹ < 359539 / 2 := by
      rw [← div_eq_mul_inv, div_lt_iff₀ hpos]
      linarith
    have hnear := abs_le.mp hn.near
    have hn' : (n : ℚ) < 179770 := by linarith [hnear.1]
    have hn'' : (n : ℚ) ≤ 179769 := by
      exact_mod_cast Int.lt_add_one_iff.mp (by exact_mod_cast hn')
    have := mul_le_mul_of_nonneg_right hn'' (le_of_lt hpos)
    linarith

theorem IsRounded.nonneg {x r : ℚ} {count : ℕ} (hx : 0 < x) (h : IsRounded count x r) : 0 ≤ r := by
  obtain ⟨e, n, -, hn, rfl⟩ := h
  have hn0 : 0 ≤ n := hn.le_of_le (by positivity)
  have : (0 : ℚ) ≤ n := by exact_mod_cast hn0
  positivity

theorem IsRounded.abs_lt_limit {x r : ℚ} (hx : x ≠ 0) (hlimit : |x| < Double.limit)
    (h : IsRounded 6 x r) : |r| < Double.limit := by
  rcases lt_or_gt_of_ne hx with hneg | hpos
  · rw [abs_of_neg hneg] at hlimit
    have hpos := neg_pos.mpr hneg
    rw [← abs_neg, abs_of_nonneg (h.neg.nonneg hpos)]
    exact h.neg.lt_limit hpos hlimit
  · rw [abs_of_pos hpos] at hlimit
    rw [abs_of_nonneg (h.nonneg hpos)]
    exact h.lt_limit hpos hlimit

namespace Amount

/-- A text shows a number in one of the two notations. -/
def Shows (text : String) (r : ℚ) : Prop := IsPlain text r ∨ ∃ k, IsScientific text r k

theorem Shows.exists_signedNumeral {text : String} {r : ℚ} (h : Shows text r) :
    ∃ t : SignedNumeral, text = String.ofList t.chars ∧ t.number = r := by
  rcases h with h | ⟨k, h⟩
  · exact SignedNumeral.exists_of_isPlain h
  · exact SignedNumeral.exists_of_isScientific h

/-- Whatever number a text shows, what is read is the double nearest to it. -/
theorem Shows.rounds_of_text {text : String} {r : ℚ} (h : Shows text r) {t : SignedNumeral}
    (ht : text = String.ofList t.chars) : Double.Rounds r t.parts.toDouble := by
  obtain ⟨t', ht', rfl⟩ := h.exists_signedNumeral
  have hchars : t'.chars = t.chars := String.ofList_inj.mp (ht'.symm.trans ht)
  rw [← SignedNumeral.parts_eq_of_chars_eq hchars]
  exact t'.rounds_parts

/-- A text shows one number only. -/
theorem Shows.unique {text : String} {r s : ℚ} (h : Shows text r) (h' : Shows text s) : r = s := by
  obtain ⟨t, ht, rfl⟩ := h.exists_signedNumeral
  obtain ⟨t', ht', rfl⟩ := h'.exists_signedNumeral
  have hchars : t.chars = t'.chars := String.ofList_inj.mp (ht.symm.trans ht')
  rw [← t.number_parts, SignedNumeral.parts_eq_of_chars_eq hchars, t'.number_parts]

theorem isPlain_zero : IsPlain "0" 0 := by
  refine ⟨PlainNumeral.ofDigits 0 0, ?_, rfl⟩
  rw [PlainNumeral.number_ofDigits]
  simp

/-- The text of a number shows a number of the range. -/
theorem exists_shows {v : Double} (hv : v.isFinite = true) :
    ∃ r, Shows (text v) r ∧ |r| < Double.limit := by
  have hsmall : (10 : ℚ) ^ 6 < Double.limit :=
    lt_trans (by norm_num) (Double.two_pow_lt_limit (by norm_num : 20 ≤ 1023))
  cases v with
  | finite negative m =>
      have habs := Double.abs_number_finite negative m
      by_cases hm : m.significand = 0
      · have htext : text (.finite negative m) = "0" := if_pos hm
        rw [htext]
        refine ⟨0, .inl isPlain_zero, ?_⟩
        rw [abs_zero]
        exact lt_trans (by norm_num) hsmall
      · by_cases h : isEveryday m = true
        · obtain ⟨n, -, hn, hplain⟩ := text_everyday negative hm h
          refine ⟨_, .inl hplain, lt_of_le_of_lt ?_ hsmall⟩
          have hhi := ((isEveryday_iff m).mp h).2
          rw [number_million, ← habs, abs_lt] at hhi
          have hle := hn.ge_of_ge (k := 10 ^ 12) (by push_cast; linarith [hhi.2])
          have hge := hn.le_of_le (k := -10 ^ 12) (by push_cast; linarith [hhi.1])
          rw [abs_div, abs_of_pos (by norm_num : (0 : ℚ) < 10 ^ 6), div_le_iff₀ (by norm_num),
            abs_le]
          constructor
          · exact_mod_cast (by omega : -(10 ^ 6 * 10 ^ 6) ≤ n)
          · exact_mod_cast (by omega : n ≤ 10 ^ 6 * 10 ^ 6)
        · obtain ⟨r, k, -, hrounded, -, hnotation⟩ := text_general negative hm h
          refine ⟨r, ?_, ?_⟩
          · split at hnotation
            · exact .inr ⟨k, hnotation⟩
            · exact .inl hnotation
          · refine hrounded.abs_lt_limit ?_ ?_
            · rw [← abs_pos, habs]
              exact Magnitude.number_pos hm
            · rw [habs]
              exact Double.number_lt_limit m
  | _ => cases hv

end Amount

end Reckoner
