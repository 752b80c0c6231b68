/-
Every value can be skipped.

A reader that only skips a value lets every value of the grammar pass, however deep it is nested and
whatever its texts and numbers stand for.  A value that is neither array nor object also is the same
value wherever it stands: what follows has no influence, as long as it does not go on with a number.
So strict readers agree on such a value before any text, also where they refuse it.
-/
import Reckoner.Proofs.Json.Grammar
import Reckoner.Proofs.Json.Reading

namespace Reckoner

open DecimalNumeral (IsExponent)

/-! ### Numbers -/

namespace JsonNumeral

variable {cs rest ds fraction exponent : List Char} {e : ℤ}

theorem readDigits?_of_isDigits (h : IsDigits ds)
    (hrest : ∀ c, rest.head? = some c → c.isDigit = false) :
    readDigits? (ds ++ rest) = some (ds, rest) := by
  rw [readDigits?, takeWhile_append_rest h.2 hrest, dropWhile_append_rest h.2 hrest]
  simp [h.1]

theorem readFraction?_of_isFraction (h : IsFraction fraction)
    (hrest : ∀ c, rest.head? = some c → c.isDigit = false ∧ c ≠ '.') :
    ∃ found, readFraction? (fraction ++ rest) = some (found, rest) := by
  cases h with
  | nothing =>
      refine ⟨none, ?_⟩
      cases rest with
      | nil => rfl
      | cons c rest => exact readFraction?_of_ne (hrest c rfl).2 rest
  | @digits ds hds =>
      refine ⟨some ds, ?_⟩
      rw [List.cons_append, readFraction?, readDigits?_of_isDigits hds fun c hc => (hrest c hc).1]
      rfl

theorem readExponent?_of_isExponent (h : IsExponent exponent e) :
    ∃ found, readExponent? exponent = some (found, []) := by
  cases h with
  | nothing => exact ⟨none, rfl⟩
  | @power letter sign ds negative hletter hsign hne hdigits =>
      have hhead : ∀ c, ds.head? = some c → c ≠ '+' ∧ c ≠ '-' := by
        intro c hc
        exact SignedNumeral.ne_sign_of_isDigit (hdigits c (List.mem_of_head? hc))
      have hds : readDigits? ds = some (ds, []) := by
        have hnil : ∀ c, ([] : List Char).head? = some c → c.isDigit = false := by simp
        have hread := readDigits?_of_isDigits ⟨hne, hdigits⟩ hnil
        rwa [List.append_nil] at hread
      rw [readExponent?, if_pos hletter, DecimalNumeral.readSign_of_isSign hsign hhead]
      dsimp only
      rw [hds]
      exact ⟨_, rfl⟩

/-- What comes after the digits before the point does not go on with them. -/
theorem head_of_isFraction (h : IsFraction fraction) (hexponent : IsExponent exponent e) :
    ∀ c, (fraction ++ exponent).head? = some c → c.isDigit = false := by
  intro c hc
  cases h with
  | nothing => exact (DecimalNumeral.head_of_isExponent hexponent c hc).1
  | digits _ =>
      cases hc
      decide

theorem exists_readUnsigned?_of_isUnsigned (negative : Bool) (h : IsUnsigned cs) :
    ∃ n, readUnsigned? negative cs = some (n, []) := by
  obtain @⟨whole, fraction, exponent, e, hdigits, hzero, hfraction, hexponent⟩ := h
  have hwhole := readDigits?_of_isDigits hdigits (head_of_isFraction hfraction hexponent)
  obtain ⟨found, hfound⟩ :=
    readFraction?_of_isFraction hfraction (DecimalNumeral.head_of_isExponent hexponent)
  obtain ⟨power, hpower⟩ := readExponent?_of_isExponent hexponent
  have hlone : ¬(whole.head? = some '0' ∧ whole.length ≠ 1) := by
    rintro ⟨hhead, hlength⟩
    rw [hzero hhead] at hlength
    exact hlength rfl
  refine ⟨⟨negative, whole, found, power⟩, ?_⟩
  rw [readUnsigned?, List.append_assoc, hwhole]
  dsimp only [Option.bind_eq_bind, Option.bind_some]
  rw [if_neg hlone, hfound]
  dsimp only [Option.bind_some]
  rw [hpower]
  rfl

theorem head_of_isUnsigned (h : IsUnsigned cs) : ∃ c rest, cs = c :: rest ∧ c.isDigit = true := by
  obtain @⟨whole, fraction, exponent, e, hdigits, -, -, -⟩ := h
  obtain ⟨c, ds, rfl⟩ := List.exists_cons_of_ne_nil hdigits.1
  exact ⟨c, _, rfl, hdigits.2 c List.mem_cons_self⟩

/-- Every number of the grammar is read. -/
theorem exists_read?_of_isNumber (h : IsNumber cs) : ∃ n, read? cs = some (n, []) := by
  cases h with
  | positive h =>
      obtain ⟨c, rest, rfl, hc⟩ := head_of_isUnsigned h
      have hminus : c ≠ '-' := (SignedNumeral.ne_sign_of_isDigit hc).2
      rw [read?.eq_2 _ (by simpa using hminus)]
      exact exists_readUnsigned?_of_isUnsigned false h
  | negative h => exact exists_readUnsigned?_of_isUnsigned true h

end JsonNumeral

namespace Json

open JsonNumeral (IsNumber EndsBefore endsBefore_mark)

/-- What a reader finds in a text, or that it refuses it, is the same whatever follows. -/
def Settles {α : Type} (reader : List Char → Option (α × List Char)) (part : List Char)
    (found : Option α) : Prop :=
  ∀ tail, EndsBefore tail → reader (part ++ tail) = found.map (·, tail)

/-- A reader settles what it makes of a text; one that is not strict accepts it. -/
def Judges {α : Type} (reader : Bool → List Char → Option (α × List Char)) (part : List Char) :
    Prop :=
  ∀ strict, ∃ found, Settles (reader strict) part found ∧ (strict = false → found.isSome = true)

variable {cs rest tail : List Char}

theorem endsBefore_nil : EndsBefore [] := by simp [EndsBefore]

/-- What a reader makes of a text on its own it makes of it wherever the text stands. -/
theorem Judges.append {α : Type} {reader : Bool → List Char → Option (α × List Char)}
    {part : List Char} (h : Judges reader part) (strict : Bool) (htail : EndsBefore tail) :
    reader strict (part ++ tail) = (reader strict part).map fun r => (r.1, tail) := by
  obtain ⟨found, hfound, -⟩ := h strict
  have halone := hfound [] endsBefore_nil
  rw [List.append_nil] at halone
  rw [hfound tail htail, halone]
  cases found <;> rfl

theorem judges_readNumber? (h : IsNumber cs) : Judges readNumber? cs := by
  intro strict
  obtain ⟨n, hn⟩ := JsonNumeral.exists_read?_of_isNumber h
  have hread : ∀ tail, EndsBefore tail → readNumber? strict (cs ++ tail) =
      (n.value?.or (if strict then none else some (.float .nan))).map (·, tail) := by
    intro tail htail
    rw [readNumber?, JsonNumeral.read?_append htail hn]
    dsimp only [Option.bind_eq_bind, Option.bind_some, List.nil_append]
    cases n.value? with
    | some v => rfl
    | none => cases strict <;> rfl
  refine ⟨_, hread, ?_⟩
  rintro rfl
  cases n.value? <;> rfl

/-! ### Texts -/

/-- The second half of a surrogate pair is there or not, whatever follows the text. -/
theorem readLowSurrogate?_of_isQuoted (n : ℕ) (h : IsQuoted cs) :
    (∀ tail, readLowSurrogate? n (cs ++ tail) = none) ∨
      ∃ c rest, IsQuoted rest ∧ rest.length < cs.length ∧
        ∀ tail, readLowSurrogate? n (cs ++ tail) = some (c, rest ++ tail) := by
  cases h with
  | close => exact .inl fun tail => rfl
  | @plain c cs hc h =>
      refine .inl fun tail => readLowSurrogate?.eq_2 n _ fun a b c' d rest heq => ?_
      exact hc.2.1 (List.cons.inj heq).1
  | @letter c cs hc h =>
      refine .inl fun tail => readLowSurrogate?.eq_2 n _ fun a b c' d rest heq => ?_
      have hu : c = 'u' := (List.cons.inj (List.cons.inj heq).2).1
      rw [hu] at hc
      simp at hc
  | @number a b c d rest hdigits h =>
      obtain ⟨low, hlow⟩ := Numeral.read?_of_isSome hdigits
      by_cases hpair : (isHighSurrogate n && isLowSurrogate low) = true
      · refine .inr ⟨pairChar n low, rest, h, by simp; omega, fun tail => ?_⟩
        simp only [List.cons_append, readLowSurrogate?, readHex4?, hlow, Option.bind_eq_bind,
          Option.bind_some, if_pos hpair]
      · refine .inl fun tail => ?_
        simp only [List.cons_append, readLowSurrogate?, readHex4?, hlow, Option.bind_eq_bind,
          Option.bind_some, if_neg hpair]

theorem exists_unescape?_of_mem {c : Char} (h : c ∈ ['"', '\\', '/', 'b', 'f', 'n', 'r', 't']) :
    ∃ found, unescape? c = some found := by
  simp only [List.mem_cons, List.not_mem_nil, or_false] at h
  rcases h with rfl | rfl | rfl | rfl | rfl | rfl | rfl | rfl <;> exact ⟨_, rfl⟩

/-- An escape stands for a character, or for none if it is strict, whatever follows the text. -/
theorem readEscape?_of_isQuoted (strict : Bool) (h : IsQuoted ('\\' :: cs)) :
    (strict = true ∧ ∀ tail, readEscape? strict (cs ++ tail) = none) ∨
      ∃ c rest, IsQuoted rest ∧ rest.length < cs.length ∧
        ∀ tail, readEscape? strict (cs ++ tail) = some (c, rest ++ tail) := by
  cases h with
  | plain hc h => exact absurd rfl hc.2.1
  | @letter c rest hc h =>
      obtain ⟨found, hfound⟩ := exists_unescape?_of_mem hc
      refine .inr ⟨found, rest, h, Nat.lt_succ_self _, fun tail => ?_⟩
      have hu : c ≠ 'u' := by
        rintro rfl
        simp at hc
      rw [List.cons_append, readEscape?.eq_3 strict c _ (by simp [hu]), hfound]
      rfl
  | @number a b c d rest hdigits h =>
      obtain ⟨n, hn⟩ := Numeral.read?_of_isSome hdigits
      have hlength : rest.length < ('u' :: a :: b :: c :: d :: rest).length := by
        simp only [List.length_cons]
        omega
      have hopen : ∀ tail, readEscape? strict ('u' :: a :: b :: c :: d :: rest ++ tail) =
          if isHighSurrogate n || isLowSurrogate n then
            if strict then readLowSurrogate? n (rest ++ tail) else some (replacement, rest ++ tail)
          else some (Char.ofNat n, rest ++ tail) := by
        intro tail
        simp only [List.cons_append, readEscape?, readHex4?, hn, Option.bind_eq_bind,
          Option.bind_some]
      by_cases hhalf : (isHighSurrogate n || isLowSurrogate n) = true
      · simp only [if_pos hhalf] at hopen
        cases strict with
        | false => exact .inr ⟨replacement, rest, h, hlength, hopen⟩
        | true =>
            rcases readLowSurrogate?_of_isQuoted n h with hnone | ⟨c, rest', h', hlt, hsome⟩
            · exact .inl ⟨rfl, fun tail => (hopen tail).trans (hnone tail)⟩
            · exact .inr ⟨c, rest', h', hlt.trans hlength, fun tail => (hopen tail).trans (hsome tail)⟩
      · simp only [if_neg hhalf] at hopen
        exact .inr ⟨Char.ofNat n, rest, h, hlength, hopen⟩

/-- A quoted text, up to its last quote, is read as some characters or refused, whatever follows. -/
def Quotes (strict : Bool) (part : List Char) (found : Option (List Char)) : Prop :=
  ∀ tail steps, part.length ≤ steps →
    readQuoted? strict steps (part ++ tail) = found.map (·, tail)

/-- A quoted text goes on after a character or an escape. -/
theorem Quotes.cons {strict : Bool} {first c : Char} {part : List Char} {found : Option (List Char)}
    (hlength : rest.length ≤ part.length)
    (hstep : ∀ tail steps, readQuoted? strict (steps + 1) (first :: (part ++ tail)) =
      (readQuoted? strict steps (rest ++ tail)).map fun r => (c :: r.1, r.2))
    (h : Quotes strict rest found) : Quotes strict (first :: part) (found.map (c :: ·)) := by
  intro tail steps hsteps
  obtain ⟨steps, rfl⟩ := Nat.exists_eq_add_of_le' (Nat.le_trans (Nat.succ_pos _) hsteps)
  rw [List.cons_append, hstep, h tail steps (hlength.trans (Nat.le_of_succ_le_succ hsteps))]
  cases found <;> rfl

theorem readQuoted?_plain {c : Char} (hc : c ≠ '"' ∧ c ≠ '\\' ∧ 32 ≤ c.toNat) (strict : Bool)
    (steps : ℕ) (cs : List Char) : readQuoted? strict (steps + 1) (c :: cs) =
      (readQuoted? strict steps cs).map fun r => (c :: r.1, r.2) := by
  rw [readQuoted?, if_neg hc.1, if_neg hc.2.1, if_neg (Nat.not_lt.mpr hc.2.2)]
  cases readQuoted? strict steps cs <;> rfl

theorem readQuoted?_escaped {strict : Bool} {c : Char}
    (h : readEscape? strict cs = some (c, rest)) (steps : ℕ) :
    readQuoted? strict (steps + 1) ('\\' :: cs) =
      (readQuoted? strict steps rest).map fun r => (c :: r.1, r.2) := by
  rw [readQuoted?, if_neg (by decide), if_pos rfl, h]
  dsimp only [Option.bind_eq_bind, Option.bind_some]
  cases readQuoted? strict steps rest <;> rfl

/-- A quoted text is read, or refused if the reader is strict, whatever follows its last quote. -/
theorem exists_quotes (strict : Bool) : ∀ (n : ℕ) {cs : List Char}, cs.length ≤ n → IsQuoted cs →
    ∃ found, Quotes strict cs found ∧ (strict = false → found.isSome = true) := by
  -- An escape takes several characters, so the induction is on a bound for the length.
  intro n
  induction n with
  | zero =>
      intro cs hlength h
      cases List.length_eq_zero_iff.mp (Nat.le_zero.mp hlength)
      cases h
  | succ n ih =>
      intro cs hlength h
      have hescape : ∀ {cs : List Char}, cs.length ≤ n → IsQuoted ('\\' :: cs) → ∃ found,
          Quotes strict ('\\' :: cs) found ∧ (strict = false → found.isSome = true) := by
        intro cs hlength h
        rcases readEscape?_of_isQuoted strict h with ⟨rfl, hnone⟩ | ⟨c, rest, hrest, hlt, hsome⟩
        · refine ⟨none, fun tail steps hsteps => ?_, fun hfalse => by cases hfalse⟩
          obtain ⟨steps, rfl⟩ := Nat.exists_eq_add_of_le' (Nat.le_trans (Nat.succ_pos _) hsteps)
          rw [List.cons_append, readQuoted?, if_neg (by decide), if_pos rfl, hnone]
          rfl
        · obtain ⟨found, hfound, haccepts⟩ := ih (by omega) hrest
          refine ⟨_, hfound.cons hlt.le fun tail steps => readQuoted?_escaped (hsome tail) steps, ?_⟩
          simpa using haccepts
      cases h with
      | close =>
          refine ⟨some [], fun tail steps hsteps => ?_, fun _ => rfl⟩
          obtain ⟨steps, rfl⟩ := Nat.exists_eq_add_of_le' hsteps
          rfl
      | @plain c cs hc h =>
          obtain ⟨found, hfound, haccepts⟩ := ih (Nat.le_of_succ_le_succ hlength) h
          refine ⟨_, hfound.cons le_rfl fun tail steps => readQuoted?_plain hc strict steps _, ?_⟩
          simpa using haccepts
      | letter hc h => exact hescape (Nat.le_of_succ_le_succ hlength) (.letter hc h)
      | number hdigits h => exact hescape (Nat.le_of_succ_le_succ hlength) (.number hdigits h)

theorem head_of_isText (h : IsText cs) : ∃ part, cs = '"' :: part := by
  obtain @⟨part, -⟩ := h
  exact ⟨part, rfl⟩

theorem judges_readText? (h : IsText cs) : Judges readText? cs := by
  intro strict
  obtain @⟨part, hpart⟩ := h
  obtain ⟨found, hfound, haccepts⟩ := exists_quotes strict part.length le_rfl hpart
  refine ⟨found.map String.ofList, fun tail _ => ?_, by simpa using haccepts⟩
  rw [List.cons_append, readText?, hfound tail _ (by simp)]
  cases found <;> rfl

/-! ### Values that are neither array nor object -/

/-- A value that is neither array nor object. -/
inductive IsScalar : List Char → Prop
  | null : IsScalar "null".toList
  | true : IsScalar "true".toList
  | false : IsScalar "false".toList
  | number {cs : List Char} (h : IsNumber cs) : IsScalar cs
  | text {cs : List Char} (h : IsText cs) : IsScalar cs

/-- A value is an array or an object, or else it is a scalar. -/
theorem IsValue.isScalar_or (h : IsValue cs) :
    IsScalar cs ∨ ∃ c part, cs = c :: part ∧ (c = '[' ∨ c = '\x7b') := by
  cases h with
  | null => exact .inl .null
  | true => exact .inl .true
  | false => exact .inl .false
  | number h => exact .inl (.number h)
  | text h => exact .inl (.text h)
  | emptyArray _ => exact .inr ⟨_, _, rfl, .inl rfl⟩
  | array _ => exact .inr ⟨_, _, rfl, .inl rfl⟩
  | emptyObject _ => exact .inr ⟨_, _, rfl, .inr rfl⟩
  | object _ => exact .inr ⟨_, _, rfl, .inr rfl⟩

/-- A number starts with its sign or with a digit. -/
theorem head_of_isNumber (h : IsNumber cs) :
    ∃ c part, cs = c :: part ∧ (c = '-' ∨ c.isDigit = true) := by
  obtain ⟨n, hn⟩ := JsonNumeral.exists_read?_of_isNumber h
  exact JsonNumeral.exists_cons_of_read? hn

theorem judges_readScalar? (h : IsScalar cs) : Judges readScalar? cs := by
  intro strict
  cases h with
  | null => exact ⟨some .null, fun _ _ => rfl, fun _ => rfl⟩
  | true => exact ⟨some (.bool true), fun _ _ => rfl, fun _ => rfl⟩
  | false => exact ⟨some (.bool false), fun _ _ => rfl, fun _ => rfl⟩
  | number h =>
      obtain ⟨found, hfound, haccepts⟩ := judges_readNumber? h strict
      obtain ⟨c, part, rfl, hc⟩ := head_of_isNumber h
      refine ⟨found.map .number, fun tail htail => ?_, by simpa using haccepts⟩
      have hread := hfound tail htail
      rw [List.cons_append] at hread ⊢
      rw [readScalar?_number strict hc, hread]
      cases found <;> rfl
  | text h =>
      obtain ⟨found, hfound, haccepts⟩ := judges_readText? h strict
      obtain @⟨part, hpart⟩ := h
      refine ⟨found.map .text, fun tail htail => ?_, by simpa using haccepts⟩
      have hread := hfound tail htail
      rw [List.cons_append] at hread ⊢
      show (readText? strict ('"' :: (part ++ tail))).map _ = _
      rw [hread]
      cases found <;> rfl

/-! ### Where values start -/

/-- A character that is not blank and closes neither array nor object. -/
def IsStart (c : Char) : Prop :=
  (c ≠ ' ' ∧ c ≠ '\n' ∧ c ≠ '\t' ∧ c ≠ '\r') ∧ c ≠ ']' ∧ c ≠ '\x7d'

instance : DecidablePred IsStart := fun _ => inferInstanceAs (Decidable (_ ∧ _))

theorem head_of_isScalar (h : IsScalar cs) :
    ∃ c part, cs = c :: part ∧ IsStart c ∧ c ≠ '[' ∧ c ≠ '\x7b' := by
  cases h with
  | null => exact ⟨_, _, rfl, by decide, by decide⟩
  | true => exact ⟨_, _, rfl, by decide, by decide⟩
  | false => exact ⟨_, _, rfl, by decide, by decide⟩
  | number h =>
      obtain ⟨c, part, rfl, hc⟩ := head_of_isNumber h
      have hne := fun d => ne_of_sign_or_digit (d := d) hc
      exact ⟨c, part, rfl, ⟨⟨hne _ (by decide), hne _ (by decide), hne _ (by decide),
        hne _ (by decide)⟩, hne _ (by decide), hne _ (by decide)⟩, hne _ (by decide),
        hne _ (by decide)⟩
  | text h =>
      obtain @⟨part, hpart⟩ := h
      exact ⟨_, _, rfl, by decide, by decide⟩

theorem head_of_isValue (h : IsValue cs) : ∃ c part, cs = c :: part ∧ IsStart c := by
  rcases h.isScalar_or with h | ⟨c, part, rfl, hc⟩
  · obtain ⟨c, part, rfl, hc, -⟩ := head_of_isScalar h
    exact ⟨c, part, rfl, hc⟩
  · refine ⟨c, part, rfl, ?_⟩
    rcases hc with rfl | rfl <;> decide

/-- Blanks more or less before a text make no difference after they are skipped. -/
theorem skipBlanks_append {blanks : List Char} (h : AreBlanks blanks) (cs : List Char) :
    skipBlanks (blanks ++ cs) = skipBlanks cs := by
  induction blanks with
  | nil => rfl
  | cons b blanks ih =>
      have hb := h b List.mem_cons_self
      rw [List.cons_append, skipBlanks, List.dropWhile_cons_of_pos (by simpa [or_assoc] using hb)]
      exact ih fun x hx => h x (List.mem_cons_of_mem b hx)

theorem skipBlanks_append_cons {blanks : List Char} (h : AreBlanks blanks) {c : Char}
    (hc : c ≠ ' ' ∧ c ≠ '\n' ∧ c ≠ '\t' ∧ c ≠ '\r') (cs : List Char) :
    skipBlanks (blanks ++ c :: cs) = c :: cs := by
  rw [skipBlanks_append h, skipBlanks_of_ne hc]

/-- Blanks, and what comes after them, do not go on with a number. -/
theorem endsBefore_append {blanks : List Char} (h : AreBlanks blanks) (htail : EndsBefore tail) :
    EndsBefore (blanks ++ tail) := by
  cases blanks with
  | nil => exact htail
  | cons b blanks =>
      intro c hc
      cases hc
      rcases h b List.mem_cons_self with rfl | rfl | rfl | rfl <;> decide

/-! ### Arrays and objects -/

/-- A reader lets values of a certain form pass, whatever they stand for. -/
def Passes (value : Reader) (P : List Char → Prop) : Prop :=
  ∀ part, P part → IsValue part ∧
    ∀ tail, EndsBefore tail → ∃ x, value (part ++ tail) = some (x, tail)

variable {value : Reader} {P : List Char → Prop} {before item after : List Char}

/-- A value passes between blanks. -/
theorem Passes.between (h : Passes value P) (hbefore : AreBlanks before) (hitem : P item)
    (hafter : AreBlanks after) (htail : EndsBefore tail) :
    ∃ x, value (skipBlanks (before ++ item ++ after ++ tail)) = some (x, after ++ tail) := by
  obtain ⟨hvalue, hread⟩ := h item hitem
  obtain ⟨x, hx⟩ := hread (after ++ tail) (endsBefore_append hafter htail)
  obtain ⟨c, part, rfl, hc⟩ := head_of_isValue hvalue
  refine ⟨x, ?_⟩
  rw [List.append_assoc, List.append_assoc, List.cons_append, skipBlanks_append_cons hbefore hc.1]
  exact hx

theorem exists_readElements?_of_isList (hvalue : Passes value P) (h : IsList P ']' cs) :
    ∀ {steps : ℕ} (tail : List Char), cs.length ≤ steps →
      ∃ xs, readElements? value steps (cs ++ tail) = some (xs, tail) := by
  induction h with
  | @last before item after hbefore hitem hafter =>
      intro steps tail hsteps
      obtain _ | steps := steps
      · simp at hsteps
      have hends := endsBefore_mark (c := ']') (by decide) tail
      obtain ⟨x, hx⟩ := hvalue.between hbefore hitem hafter hends
      refine ⟨[x], ?_⟩
      rw [List.append_assoc, List.singleton_append, readElements?, hx]
      dsimp only [Option.bind_eq_bind, Option.bind_some]
      rw [skipBlanks_append_cons hafter (by decide)]
      rfl
  | @more before item after rest hbefore hitem hafter h ih =>
      intro steps tail hsteps
      obtain _ | steps := steps
      · simp at hsteps
      have hends := endsBefore_mark (c := ',') (by decide) (rest ++ tail)
      obtain ⟨x, hx⟩ := hvalue.between hbefore hitem hafter hends
      have hlength : rest.length ≤ steps := by
        simp only [List.length_append, List.length_cons] at hsteps
        omega
      obtain ⟨xs, hxs⟩ := ih tail hlength
      refine ⟨x :: xs, ?_⟩
      rw [List.append_assoc, List.cons_append, readElements?, hx]
      dsimp only [Option.bind_eq_bind, Option.bind_some]
      rw [skipBlanks_append_cons hafter (by decide)]
      show (readElements? value steps (rest ++ tail)).bind _ = _
      rw [hxs]
      rfl

/-- A name passes between blanks, with the colon after it. -/
theorem exists_readName?_of_isText {name : List Char} (hbefore : AreBlanks before)
    (hname : IsText name) (hafter : AreBlanks after) (rest : List Char) :
    ∃ s, readName? false (before ++ name ++ after ++ ':' :: rest) = some (s, rest) := by
  obtain ⟨found, hfound, haccepts⟩ := judges_readText? hname false
  obtain ⟨s, rfl⟩ := Option.isSome_iff_exists.mp (haccepts rfl)
  have hread := hfound (after ++ ':' :: rest)
    (endsBefore_append hafter (endsBefore_mark (by decide) rest))
  obtain @⟨part, hpart⟩ := hname
  refine ⟨s, ?_⟩
  rw [List.cons_append] at hread
  rw [readName?, List.append_assoc, List.append_assoc, List.cons_append,
    skipBlanks_append_cons hbefore (by decide), hread]
  dsimp only [Option.map_some, Option.bind_eq_bind, Option.bind_some]
  rw [skipBlanks_append_cons hafter (by decide)]
  rfl

/-- A member passes between blanks. -/
theorem Passes.member (hvalue : Passes value P) (hbefore : AreBlanks before)
    (hitem : IsMember P item) (hafter : AreBlanks after) (htail : EndsBefore tail) :
    ∃ s rest x, readName? false (before ++ item ++ after ++ tail) = some (s, rest) ∧
      value (skipBlanks rest) = some (x, after ++ tail) := by
  obtain @⟨name, between, between', part, hname, hbetween, hbetween', hpart⟩ := hitem
  obtain ⟨x, hx⟩ := hvalue.between hbetween' hpart hafter htail
  obtain ⟨s, hs⟩ := exists_readName?_of_isText hbefore hname hbetween
    (between' ++ part ++ after ++ tail)
  refine ⟨s, _, x, ?_, hx⟩
  rw [← hs]
  simp only [List.append_assoc, List.cons_append]

theorem exists_readMembers?_of_isList (hvalue : Passes value P)
    (h : IsList (IsMember P) '\x7d' cs) :
    ∀ {steps : ℕ} (tail : List Char), cs.length ≤ steps →
      ∃ ms, readMembers? false value steps (cs ++ tail) = some (ms, tail) := by
  induction h with
  | @last before item after hbefore hitem hafter =>
      intro steps tail hsteps
      obtain _ | steps := steps
      · simp at hsteps
      have hends := endsBefore_mark (c := '\x7d') (by decide) tail
      obtain ⟨s, rest, x, hs, hx⟩ := hvalue.member hbefore hitem hafter hends
      refine ⟨[(s, x)], ?_⟩
      rw [List.append_assoc, List.singleton_append, readMembers?, hs]
      dsimp only [Option.bind_eq_bind, Option.bind_some]
      rw [hx]
      dsimp only [Option.bind_some]
      rw [skipBlanks_append_cons hafter (by decide)]
      rfl
  | @more before item after rest hbefore hitem hafter h ih =>
      intro steps tail hsteps
      obtain _ | steps := steps
      · simp at hsteps
      have hends := endsBefore_mark (c := ',') (by decide) (rest ++ tail)
      obtain ⟨s, afterName, x, hs, hx⟩ := hvalue.member hbefore hitem hafter hends
      have hlength : rest.length ≤ steps := by
        simp only [List.length_append, List.length_cons] at hsteps
        omega
      obtain ⟨ms, hms⟩ := ih tail hlength
      refine ⟨(s, x) :: ms, ?_⟩
      rw [List.append_assoc, List.cons_append, readMembers?, hs]
      dsimp only [Option.bind_eq_bind, Option.bind_some]
      rw [hx]
      dsimp only [Option.bind_some]
      rw [skipBlanks_append_cons hafter (by decide)]
      show (readMembers? false value steps (rest ++ tail)).bind _ = _
      rw [hms]
      rfl

/-! ### Every value -/

theorem IsList.mono {Q : List Char → Prop} {close : Char} (h : IsList P close cs)
    (hPQ : ∀ {item}, P item → item.length < cs.length → Q item) : IsList Q close cs := by
  induction h with
  | last hbefore hitem hafter => exact .last hbefore (hPQ hitem (by simp; omega)) hafter
  | more hbefore hitem hafter h ih =>
      refine .more hbefore (hPQ hitem (by simp; omega)) hafter (ih fun hitem' hlt => hPQ hitem' ?_)
      simp
      omega

theorem IsMember.mono {Q : List Char → Prop} (h : IsMember P item)
    (hPQ : ∀ {part}, P part → part.length < item.length → Q part) : IsMember Q item := by
  obtain ⟨hname, hbefore, hafter, hvalue⟩ := h
  exact .named hname hbefore hafter (hPQ hvalue (by simp; omega))

/-- A list that is not empty does not start with the bracket that closes it. -/
theorem exists_skipBlanks_of_isList {close : Char} (h : IsList P close cs)
    (hP : ∀ {item}, P item → ∃ c part, item = c :: part ∧ IsStart c) (tail : List Char) :
    ∃ c rest, skipBlanks (cs ++ tail) = c :: rest ∧ IsStart c := by
  cases h with
  | @last before item after hbefore hitem hafter =>
      obtain ⟨c, part, rfl, hc⟩ := hP hitem
      simp only [List.append_assoc, List.cons_append]
      exact ⟨c, _, skipBlanks_append_cons hbefore hc.1 _, hc⟩
  | @more before item after rest hbefore hitem hafter h =>
      obtain ⟨c, part, rfl, hc⟩ := hP hitem
      simp only [List.append_assoc, List.cons_append]
      exact ⟨c, _, skipBlanks_append_cons hbefore hc.1 _, hc⟩

theorem head_of_isMember (h : IsMember P item) : ∃ c part, item = c :: part ∧ IsStart c := by
  obtain ⟨hname, hbefore, hafter, hvalue⟩ := h
  obtain @⟨part, hpart⟩ := hname
  exact ⟨_, _, rfl, by decide⟩

theorem exists_readValue?_of_isScalar (steps depth : ℕ) (h : IsScalar cs)
    (htail : EndsBefore tail) : ∃ x, readValue? false steps depth (cs ++ tail) = some (x, tail) := by
  obtain ⟨found, hfound, haccepts⟩ := judges_readScalar? h false
  obtain ⟨x, rfl⟩ := Option.isSome_iff_exists.mp (haccepts rfl)
  obtain ⟨c, part, rfl, -, hc⟩ := head_of_isScalar h
  exact ⟨x, (readValue?_of_ne false steps depth hc _).trans (hfound tail htail)⟩

/-- An array that does not end at once has elements. -/
theorem readValue?_bracket (strict : Bool) (steps depth : ℕ) {c : Char}
    (h : skipBlanks cs = c :: rest) (hc : c ≠ ']') :
    readValue? strict steps (depth + 1) ('[' :: cs) =
      (readElements? (readValue? strict steps depth) steps cs).map fun r => (.array r.1, r.2) := by
  rw [readValue?, h]
  split
  · rename_i heq
    exact absurd (List.cons.inj heq).1 hc
  · rfl

/-- An object that does not end at once has members. -/
theorem readValue?_brace (strict : Bool) (steps depth : ℕ) {c : Char}
    (h : skipBlanks cs = c :: rest) (hc : c ≠ '\x7d') :
    readValue? strict steps (depth + 1) ('\x7b' :: cs) =
      (readMembers? strict (readValue? strict steps depth) steps cs).map fun r =>
        (.object r.1, r.2) := by
  rw [readValue?, h]
  split
  · rename_i heq
    exact absurd (List.cons.inj heq).1 hc
  · rfl

/-- A value that is no longer than a bound. -/
def IsShort (n : ℕ) (part : List Char) : Prop := IsValue part ∧ part.length ≤ n

variable {steps depth : ℕ}

/-- An array passes one level further out than its elements do. -/
theorem exists_readValue?_of_array (hpasses : Passes (readValue? false steps depth) (IsShort depth))
    (hsteps : depth ≤ steps) (h : IsList IsValue ']' cs) (hcs : cs.length ≤ depth)
    (tail : List Char) :
    ∃ x, readValue? false steps (depth + 1) ('[' :: cs ++ tail) = some (x, tail) := by
  have hshort : IsList (IsShort depth) ']' cs :=
    h.mono fun hitem hlt => ⟨hitem, hlt.le.trans hcs⟩
  obtain ⟨xs, hxs⟩ := exists_readElements?_of_isList hpasses hshort tail (hcs.trans hsteps)
  obtain ⟨c, rest, hstart, hc⟩ := exists_skipBlanks_of_isList h head_of_isValue tail
  refine ⟨.array xs, ?_⟩
  rw [List.cons_append, readValue?_bracket false steps depth hstart hc.2.1, hxs]
  rfl

/-- An object passes one level further out than the values of its members do. -/
theorem exists_readValue?_of_object
    (hpasses : Passes (readValue? false steps depth) (IsShort depth)) (hsteps : depth ≤ steps)
    (h : IsList (IsMember IsValue) '\x7d' cs) (hcs : cs.length ≤ depth) (tail : List Char) :
    ∃ x, readValue? false steps (depth + 1) ('\x7b' :: cs ++ tail) = some (x, tail) := by
  have hshort : IsList (IsMember (IsShort depth)) '\x7d' cs :=
    h.mono fun hitem hlt => hitem.mono fun hvalue hlt' => ⟨hvalue, (hlt'.trans hlt).le.trans hcs⟩
  obtain ⟨ms, hms⟩ := exists_readMembers?_of_isList hpasses hshort tail (hcs.trans hsteps)
  obtain ⟨c, rest, hstart, hc⟩ := exists_skipBlanks_of_isList h head_of_isMember tail
  refine ⟨.object ms, ?_⟩
  rw [List.cons_append, readValue?_brace false steps depth hstart hc.2.2, hms]
  rfl

/-- Values pass a reader that need not be strict, if it may go as deep as they are long. -/
theorem passes_readValue? (steps : ℕ) :
    ∀ depth ≤ steps, Passes (readValue? false steps depth) (IsShort depth) := by
  intro depth
  induction depth with
  | zero =>
      rintro - part ⟨h, hlength⟩
      obtain ⟨c, cs, rfl, -⟩ := head_of_isValue h
      cases hlength
  | succ depth ih =>
      rintro hdepth part ⟨h, hlength⟩
      have hsteps := Nat.le_of_succ_le hdepth
      have hpasses := ih hsteps
      refine ⟨h, fun tail htail => ?_⟩
      cases h with
      | null => exact exists_readValue?_of_isScalar steps _ .null htail
      | true => exact exists_readValue?_of_isScalar steps _ .true htail
      | false => exact exists_readValue?_of_isScalar steps _ .false htail
      | number h => exact exists_readValue?_of_isScalar steps _ (.number h) htail
      | text h => exact exists_readValue?_of_isScalar steps _ (.text h) htail
      | @emptyArray blanks h =>
          refine ⟨.array [], ?_⟩
          rw [List.cons_append, List.append_assoc, List.singleton_append, readValue?,
            skipBlanks_append_cons h (by decide)]
          rfl
      | array h =>
          have hcs := Nat.le_of_succ_le_succ hlength
          exact exists_readValue?_of_array hpasses hsteps h hcs tail
      | @emptyObject blanks h =>
          refine ⟨.object [], ?_⟩
          rw [List.cons_append, List.append_assoc, List.singleton_append, readValue?,
            skipBlanks_append_cons h (by decide)]
          rfl
      | object h =>
          have hcs := Nat.le_of_succ_le_succ hlength
          exact exists_readValue?_of_object hpasses hsteps h hcs tail

/-- **Every value of the grammar is skipped.** -/
theorem skipValue?_of_isValue {blanks : List Char} (hblanks : AreBlanks blanks) (h : IsValue cs)
    (htail : EndsBefore tail) : skipValue? (blanks ++ (cs ++ tail)) = some tail := by
  have hpasses := passes_readValue? (blanks ++ (cs ++ tail)).length _ le_rfl
  obtain ⟨-, hread⟩ := hpasses cs ⟨h, by simp; omega⟩
  obtain ⟨x, hx⟩ := hread tail htail
  obtain ⟨c, part, rfl, hc⟩ := head_of_isValue h
  rw [skipValue?, readFirst?]
  rw [List.cons_append] at hx ⊢
  rw [skipBlanks_append_cons hblanks hc.1, hx]
  rfl

end Json

end Reckoner
