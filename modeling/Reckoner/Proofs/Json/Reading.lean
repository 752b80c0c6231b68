/-
What is printed as JSON is read back.

A quoted text ends at its first quote that is not escaped, and a number at the first character
that cannot go on with it; so both are read from the front of any text they stand in.  A flat
object with a line for each member is then read line by line, with its members in their order.
Nothing is said here of the value of a number: whether the reader finds the number that was
printed is left to whoever prints it.
-/
import Reckoner.Json.Printer
import Reckoner.Json.Reader

namespace Reckoner

namespace Json

/-! ### Texts -/

/-- A control character is read from its number. -/
theorem readEscape?_hex4 (strict : Bool) (rest : List Char) {n : Nat} (hn : n < 32) :
    readEscape? strict ('u' :: (hex4 n ++ rest)) = some (Char.ofNat n, rest) := by
  have hread : ∀ n < 32, Numeral.read? 16 (hex4 n) = some n := by
    decide
  have hhalves : (isHighSurrogate n || isLowSurrogate n) = false := by
    simp only [isHighSurrogate, isLowSurrogate, Bool.or_eq_false_iff, Bool.and_eq_false_iff,
      decide_eq_false_iff_not]
    omega
  have hopen : readEscape? strict ('u' :: (hex4 n ++ rest)) =
      (Numeral.read? 16 (hex4 n)).bind fun m =>
        if isHighSurrogate m || isLowSurrogate m then
          if strict then readLowSurrogate? m rest else some (replacement, rest)
        else some (Char.ofNat m, rest) := rfl
  rw [hopen, hread n hn, Option.bind_some, hhalves]
  rfl

variable {c : Char} {steps : Nat} {cs rest tail : List Char}

/-- A letter after a backslash is read as the character for which it stands. -/
theorem readQuoted?_letter (strict : Bool) {letter : Char} (hletter : letter ≠ 'u')
    (hc : unescape? letter = some c) (h : readQuoted? strict steps tail = some (cs, rest)) :
    readQuoted? strict (steps + 1) ('\\' :: letter :: tail) = some (c :: cs, rest) := by
  have hescape : readEscape? strict (letter :: tail) = some (c, tail) := by
    rw [readEscape?.eq_3 strict letter tail (by simp [hletter]), hc]
    rfl
  rw [readQuoted?, if_neg (by decide), if_pos rfl, hescape]
  simp [h]

/-- One character is read from its escape. -/
theorem readQuoted?_escape_append (strict : Bool) (c : Char)
    (h : readQuoted? strict steps tail = some (cs, rest)) :
    readQuoted? strict (steps + 1) (escape c ++ tail) = some (c :: cs, rest) := by
  unfold escape
  by_cases hquote : c = '"'
  · subst hquote
    exact readQuoted?_letter strict (by decide) rfl h
  by_cases hbackslash : c = '\\'
  · subst hbackslash
    exact readQuoted?_letter strict (by decide) rfl h
  by_cases hn : c = '\n'
  · subst hn
    exact readQuoted?_letter strict (by decide) rfl h
  by_cases hr : c = '\r'
  · subst hr
    exact readQuoted?_letter strict (by decide) rfl h
  by_cases ht : c = '\t'
  · subst ht
    exact readQuoted?_letter strict (by decide) rfl h
  rw [if_neg hquote, if_neg hbackslash, if_neg hn, if_neg hr, if_neg ht]
  by_cases h8 : c.toNat = 8
  · have hc : Char.ofNat 8 = c := by rw [← h8, Char.ofNat_toNat]
    rw [if_pos h8]
    exact readQuoted?_letter strict (by decide) (congrArg some hc) h
  by_cases h12 : c.toNat = 12
  · have hc : Char.ofNat 12 = c := by rw [← h12, Char.ofNat_toNat]
    rw [if_neg h8, if_pos h12]
    exact readQuoted?_letter strict (by decide) (congrArg some hc) h
  rw [if_neg h8, if_neg h12]
  by_cases hcontrol : c.toNat < 32
  · rw [if_pos hcontrol, List.cons_append, readQuoted?, if_neg (by decide), if_pos rfl,
      List.cons_append, readEscape?_hex4 strict tail hcontrol, Char.ofNat_toNat]
    simp [h]
  · rw [if_neg hcontrol, List.singleton_append, readQuoted?, if_neg hquote, if_neg hbackslash,
      if_neg hcontrol, h]
    rfl

/-- Escaping leaves no character without one. -/
theorem escape_ne_nil (c : Char) : escape c ≠ [] := by
  unfold escape
  repeat' split
  all_goals simp

/-- A text is read from its escapes, up to the quote after them. -/
theorem readQuoted?_escape (strict : Bool) (rest : List Char) : ∀ (cs : List Char) {steps : Nat},
    cs.length < steps →
      readQuoted? strict steps (cs.flatMap escape ++ '"' :: rest) = some (cs, rest) := by
  intro cs
  induction cs with
  | nil =>
      intro steps hsteps
      obtain ⟨steps, rfl⟩ := Nat.exists_eq_add_of_le' hsteps
      simp [readQuoted?]
  | cons c cs ih =>
      intro steps hsteps
      obtain ⟨steps, rfl⟩ := Nat.exists_eq_add_of_le' (Nat.le_trans (Nat.succ_pos _) hsteps)
      rw [List.flatMap_cons, List.append_assoc]
      exact readQuoted?_escape_append strict c (ih (Nat.lt_of_succ_lt_succ hsteps))

theorem length_le_length_flatMap_escape (cs : List Char) :
    cs.length ≤ (cs.flatMap escape).length := by
  induction cs with
  | nil => exact Nat.le_refl _
  | cons c cs ih =>
      have := List.length_pos_iff.mpr (escape_ne_nil c)
      rw [List.flatMap_cons, List.length_append, List.length_cons]
      omega

/-- A quoted text is read back, whatever follows it. -/
theorem readText?_quote (strict : Bool) (s : String) (rest : List Char) :
    readText? strict ((quote s).toList ++ rest) = some (s, rest) := by
  have hlength := length_le_length_flatMap_escape s.toList
  rw [quote, String.toList_ofList, List.cons_append, List.cons_append, List.append_assoc,
    List.singleton_append, readText?, readQuoted?_escape strict rest s.toList]
  · show some (String.ofList s.toList, rest) = some (s, rest)
    rw [String.ofList_toList]
  · simp only [List.length_append, List.length_cons]
    omega

end Json

/-! ### Numbers -/

namespace JsonNumeral

/-- A number does not go on with a text. -/
def EndsBefore (tail : List Char) : Prop :=
  ∀ c ∈ tail.head?, c.isDigit = false ∧ c ≠ '.' ∧ c ≠ 'e' ∧ c ≠ 'E'

variable {cs rest tail ds : List Char}

theorem takeWhile_isDigit_append (h : EndsBefore tail) (cs : List Char) :
    (cs ++ tail).takeWhile Char.isDigit = cs.takeWhile Char.isDigit := by
  induction cs with
  | nil =>
      cases tail with
      | nil => rfl
      | cons c tail =>
          rw [List.nil_append, List.takeWhile_cons, (h c rfl).1]
          rfl
  | cons c cs ih =>
      rw [List.cons_append, List.takeWhile_cons, List.takeWhile_cons, ih]

theorem dropWhile_isDigit_append (h : EndsBefore tail) (cs : List Char) :
    (cs ++ tail).dropWhile Char.isDigit = cs.dropWhile Char.isDigit ++ tail := by
  induction cs with
  | nil =>
      cases tail with
      | nil => rfl
      | cons c tail =>
          rw [List.nil_append, List.dropWhile_cons, (h c rfl).1]
          rfl
  | cons c cs ih =>
      rw [List.cons_append, List.dropWhile_cons, List.dropWhile_cons, ih]
      split <;> rfl

theorem readDigits?_append (htail : EndsBefore tail) (h : readDigits? cs = some (ds, rest)) :
    readDigits? (cs ++ tail) = some (ds, rest ++ tail) := by
  simp only [readDigits?] at h ⊢
  rw [takeWhile_isDigit_append htail, dropWhile_isDigit_append htail]
  split at h
  · cases h
  · rename_i hsome
    cases h
    rw [if_neg hsome]

theorem readFraction?_of_ne {c : Char} (hc : c ≠ '.') (cs : List Char) :
    readFraction? (c :: cs) = some (none, c :: cs) := by
  unfold readFraction?
  split
  · rename_i heq
    cases heq
    exact absurd rfl hc
  · rfl

theorem readFraction?_append {fraction : Option (List Char)} (htail : EndsBefore tail)
    (h : readFraction? cs = some (fraction, rest)) :
    readFraction? (cs ++ tail) = some (fraction, rest ++ tail) := by
  cases cs with
  | nil =>
      cases h
      cases tail with
      | nil => rfl
      | cons c tail => exact readFraction?_of_ne (htail c rfl).2.1 tail
  | cons c cs =>
      by_cases hc : c = '.'
      · subst hc
        obtain ⟨⟨ds, rest'⟩, hds, heq⟩ := Option.map_eq_some_iff.mp h
        cases heq
        rw [List.cons_append, readFraction?, readDigits?_append htail hds]
        rfl
      · rw [readFraction?_of_ne hc] at h
        cases h
        exact readFraction?_of_ne hc _

/-- A sign is read from the front of what is not empty. -/
theorem readSign_append (hcs : cs ≠ []) (tail : List Char) :
    DecimalNumeral.readSign (cs ++ tail) =
      ((DecimalNumeral.readSign cs).1, (DecimalNumeral.readSign cs).2 ++ tail) := by
  obtain ⟨c, cs, rfl⟩ := List.exists_cons_of_ne_nil hcs
  by_cases hplus : c = '+'
  · subst hplus
    rfl
  by_cases hminus : c = '-'
  · subst hminus
    rfl
  have hplain : ∀ cs, DecimalNumeral.readSign (c :: cs) = (false, c :: cs) := by
    intro cs
    unfold DecimalNumeral.readSign
    split
    · rename_i heq
      cases heq
      exact absurd rfl hplus
    · rename_i heq
      cases heq
      exact absurd rfl hminus
    · rfl
  rw [List.cons_append, hplain, hplain]
  rfl

theorem readExponent?_append {exponent : Option Int} (htail : EndsBefore tail)
    (h : readExponent? cs = some (exponent, rest)) :
    readExponent? (cs ++ tail) = some (exponent, rest ++ tail) := by
  cases cs with
  | nil =>
      cases h
      cases tail with
      | nil => rfl
      | cons c tail =>
          obtain ⟨-, -, he, hE⟩ := htail c rfl
          rw [List.nil_append, readExponent?, if_neg (by simp [he, hE])]
  | cons c cs =>
      rw [List.cons_append]
      rw [readExponent?] at h ⊢
      by_cases hc : c = 'e' ∨ c = 'E'
      · rw [if_pos hc] at h ⊢
        have hcs : cs ≠ [] := by
          rintro rfl
          cases h
        rw [readSign_append hcs]
        generalize DecimalNumeral.readSign cs = sign at h ⊢
        obtain ⟨negative, digits⟩ := sign
        obtain ⟨⟨ds, rest'⟩, hds, heq⟩ := Option.map_eq_some_iff.mp h
        cases heq
        show (readDigits? (digits ++ tail)).map _ = _
        rw [readDigits?_append htail hds]
        rfl
      · rw [if_neg hc] at h ⊢
        cases h
        rfl

theorem readUnsigned?_append {negative : Bool} {n : JsonNumeral} (htail : EndsBefore tail)
    (h : readUnsigned? negative cs = some (n, rest)) :
    readUnsigned? negative (cs ++ tail) = some (n, rest ++ tail) := by
  unfold readUnsigned? at h ⊢
  obtain ⟨⟨whole, afterWhole⟩, hwhole, h⟩ := Option.bind_eq_some_iff.mp h
  rw [readDigits?_append htail hwhole, Option.bind_eq_bind, Option.bind_some]
  by_cases hzero : whole.head? = some '0' ∧ whole.length ≠ 1
  · dsimp only at h
    rw [if_pos hzero] at h
    cases h
  · dsimp only at h ⊢
    rw [if_neg hzero] at h ⊢
    obtain ⟨⟨fraction, afterFraction⟩, hfraction, h⟩ := Option.bind_eq_some_iff.mp h
    obtain ⟨⟨exponent, afterExponent⟩, hexponent, h⟩ := Option.bind_eq_some_iff.mp h
    cases h
    rw [readFraction?_append htail hfraction, Option.bind_eq_bind, Option.bind_some,
      readExponent?_append htail hexponent]
    rfl

/-- A number is read whatever follows it, if that does not go on with it. -/
theorem read?_append {n : JsonNumeral} (htail : EndsBefore tail) (h : read? cs = some (n, rest)) :
    read? (cs ++ tail) = some (n, rest ++ tail) := by
  cases cs with
  | nil => cases h
  | cons c cs =>
      by_cases hminus : c = '-'
      · subst hminus
        exact readUnsigned?_append htail h
      · rw [read?.eq_2 _ (by simpa using hminus)] at h
        rw [List.cons_append, read?.eq_2 _ (by simpa using hminus)]
        exact readUnsigned?_append htail h

/-- A number starts with its sign or with a digit. -/
theorem exists_cons_of_read? {n : JsonNumeral} (h : read? cs = some (n, rest)) :
    ∃ c cs', cs = c :: cs' ∧ (c = '-' ∨ c.isDigit = true) := by
  cases cs with
  | nil => cases h
  | cons c cs =>
      refine ⟨c, cs, rfl, ?_⟩
      by_cases hminus : c = '-'
      · exact .inl hminus
      · rw [read?.eq_2 _ (by simpa using hminus)] at h
        obtain ⟨_, hwhole, -⟩ := Option.bind_eq_some_iff.mp h
        cases hdigit : c.isDigit with
        | true => exact .inr rfl
        | false =>
            rw [readDigits?, List.takeWhile_cons, hdigit] at hwhole
            cases hwhole

/-- What stands between the parts of arrays and objects does not go on with a number. -/
theorem endsBefore_mark {c : Char} (hc : c ∈ [',', ':', ']', '\x7d', '\n']) (tail : List Char) :
    EndsBefore (c :: tail) := by
  simp only [List.mem_cons, List.not_mem_nil, or_false] at hc
  intro d hd
  cases hd
  rcases hc with rfl | rfl | rfl | rfl | rfl <;> decide

end JsonNumeral

namespace Json

open JsonNumeral (EndsBefore)

/-! ### Values -/

variable {steps depth : Nat} {n : JsonNumber} {value : Reader} {m : String × Json}
  {ms : List (String × Json)}

/-- Whether a reader finds a value where it is printed, after blanks and before a text that does
not go on with a number. -/
def Finds (value : Reader) (x : Json) : Prop :=
  ∀ tail, EndsBefore tail → value (skipBlanks (x.print.toList ++ tail)) = some (x, tail)

theorem finds_text (steps depth : Nat) (s : String) :
    Finds (readValue? true steps depth) (.text s) := by
  intro tail _
  have hscalar : readScalar? true ((quote s).toList ++ tail) = some (.text s, tail) := by
    have hread := readText?_quote true s tail
    rw [quote, String.toList_ofList] at hread ⊢
    show (readText? true _).map _ = _
    rw [hread]
    rfl
  rw [print]
  rw [quote, String.toList_ofList] at hscalar ⊢
  cases depth <;> exact hscalar

theorem finds_bool (steps depth : Nat) (b : Bool) :
    Finds (readValue? true steps depth) (.bool b) := by
  intro tail _
  cases b <;> cases depth <;> rfl

theorem readNumber?_append {cs rest tail : List Char} (htail : EndsBefore tail)
    (h : readNumber? true cs = some (n, rest)) :
    readNumber? true (cs ++ tail) = some (n, rest ++ tail) := by
  obtain ⟨⟨numeral, rest'⟩, hnumeral, h⟩ := Option.bind_eq_some_iff.mp h
  rw [readNumber?, JsonNumeral.read?_append htail hnumeral]
  dsimp only [Option.bind_eq_bind, Option.bind_some] at h ⊢
  cases hvalue : numeral.value? with
  | none =>
      rw [hvalue] at h
      cases h
  | some v =>
      rw [hvalue] at h
      cases h
      rfl

/-- Whether the text of a number is read as the very number that was printed. -/
def ReadsBack (n : JsonNumber) : Prop := readNumber? true n.print.toList = some (n, [])

/-- A sign or a digit is no other character. -/
theorem ne_of_sign_or_digit {c d : Char} (hc : c = '-' ∨ c.isDigit = true)
    (hd : d ≠ '-' ∧ d.isDigit = false) : c ≠ d := by
  rintro rfl
  rcases hc with hc | hc
  · exact hd.1 hc
  · rw [hd.2] at hc
    cases hc

/-- What starts with a sign or a digit is a number, if it is a value at all. -/
theorem readScalar?_number (strict : Bool) {c : Char} (hc : c = '-' ∨ c.isDigit = true)
    (cs : List Char) : readScalar? strict (c :: cs) =
      (readNumber? strict (c :: cs)).map fun r => (.number r.1, r.2) := by
  have hstart : ∀ d : Char, d ≠ '-' ∧ d.isDigit = false → ∀ t, c :: cs = d :: t → False :=
    fun d hd _ heq => ne_of_sign_or_digit hc hd (List.cons.inj heq).1
  rw [readScalar?.eq_5 _ _ (hstart 'n' (by decide)) (hstart 't' (by decide))
    (hstart 'f' (by decide)) (hstart '"' (by decide))]

theorem skipBlanks_of_ne {c : Char} (hc : c ≠ ' ' ∧ c ≠ '\n' ∧ c ≠ '\t' ∧ c ≠ '\r')
    (cs : List Char) : skipBlanks (c :: cs) = c :: cs := by
  rw [skipBlanks, List.dropWhile_cons_of_neg]
  simp [hc]

/-- A value that does not start as an array or object does is neither. -/
theorem readValue?_of_ne (strict : Bool) (steps depth : Nat) {c : Char}
    (hc : c ≠ '[' ∧ c ≠ '\x7b') (cs : List Char) :
    readValue? strict steps depth (c :: cs) = readScalar? strict (c :: cs) := by
  cases depth with
  | zero => rfl
  | succ depth =>
      exact readValue?.eq_4 _ _ _ _ (fun _ heq => hc.1 (List.cons.inj heq).1)
        fun _ heq => hc.2 (List.cons.inj heq).1

/-- A number that is read back on its own is found among other values. -/
theorem finds_number (steps depth : Nat) (h : ReadsBack n) :
    Finds (readValue? true steps depth) (.number n) := by
  intro tail htail
  have hread := readNumber?_append htail h
  obtain ⟨_, hnumeral, -⟩ := Option.bind_eq_some_iff.mp h
  obtain ⟨c, cs, hcs, hc⟩ := JsonNumeral.exists_cons_of_read? hnumeral
  rw [print, hcs, List.cons_append]
  rw [hcs, List.cons_append] at hread
  have hne := fun d => ne_of_sign_or_digit (d := d) hc
  rw [skipBlanks_of_ne ⟨hne ' ' (by decide), hne '\n' (by decide), hne '\t' (by decide),
      hne '\r' (by decide)⟩, readValue?_of_ne true steps depth ⟨hne '[' (by decide),
      hne '\x7b' (by decide)⟩, readScalar?_number true hc, hread]
  rfl

/-! ### Objects -/

/-- The line of a member. -/
def line (m : String × Json) : String := "  " ++ quote m.1 ++ ": " ++ m.2.print

theorem toList_line (m : String × Json) (tail : List Char) :
    (line m).toList ++ tail =
      ' ' :: ' ' :: ((quote m.1).toList ++ ':' :: ' ' :: (m.2.print.toList ++ tail)) := by
  simp [line]

theorem printLines_eq (ms : List (String × Json)) :
    printLines ms = "\x7b\n" ++ ",\n".intercalate (ms.map line) ++ "\n\x7d" := rfl

theorem skipBlanks_space (cs : List Char) : skipBlanks (' ' :: cs) = skipBlanks cs := rfl

theorem skipBlanks_newline (cs : List Char) : skipBlanks ('\n' :: cs) = skipBlanks cs := rfl

/-- A text in quotes has no blank before it. -/
theorem skipBlanks_quote (s : String) (tail : List Char) :
    skipBlanks ((quote s).toList ++ tail) = (quote s).toList ++ tail := by
  rw [quote, String.toList_ofList]
  rfl

/-- The name of a member is read from its line. -/
theorem readName?_line (m : String × Json) (tail : List Char) :
    readName? true ((line m).toList ++ tail) = some (m.1, ' ' :: (m.2.print.toList ++ tail)) := by
  have hblanks : skipBlanks ((line m).toList ++ tail) =
      (quote m.1).toList ++ ':' :: ' ' :: (m.2.print.toList ++ tail) := by
    rw [toList_line, skipBlanks_space, skipBlanks_space, skipBlanks_quote]
  rw [readName?, hblanks, readText?_quote]
  rfl

/-- A member is read from its line; what comes next decides whether it is the last one. -/
theorem readMembers?_line (steps : Nat) (h : Finds value m.2) {tail : List Char}
    (htail : EndsBefore tail) :
    readMembers? true value (steps + 1) ((line m).toList ++ tail) =
      match skipBlanks tail with
      | ',' :: rest => do
        let (ms, rest) ← readMembers? true value steps rest
        return (m :: ms, rest)
      | '\x7d' :: rest => return ([m], rest)
      | _ => none := by
  rw [readMembers?, readName?_line]
  show (value (skipBlanks (' ' :: (m.2.print.toList ++ tail)))).bind _ = _
  rw [skipBlanks_space, h tail htail]
  rfl

theorem readMembers?_last (steps : Nat) (h : Finds value m.2) (rest : List Char) :
    readMembers? true value (steps + 1) ((line m).toList ++ '\n' :: '\x7d' :: rest) =
      some ([m], rest) :=
  readMembers?_line steps h (JsonNumeral.endsBefore_mark (by decide) _)

theorem readMembers?_comma (h : Finds value m.2) {cs rest : List Char}
    (hrest : readMembers? true value steps cs = some (ms, rest)) :
    readMembers? true value (steps + 1) ((line m).toList ++ ',' :: cs) = some (m :: ms, rest) := by
  rw [readMembers?_line steps h (JsonNumeral.endsBefore_mark (by decide) cs)]
  show (readMembers? true value steps cs).bind _ = _
  rw [hrest]
  rfl

/-- Blanks before a member do not matter. -/
theorem readMembers?_newline (value : Reader) (steps : Nat) (cs : List Char) :
    readMembers? true value steps ('\n' :: cs) = readMembers? true value steps cs := by
  cases steps <;> rfl

/-- Members are read from their lines, in their order. -/
theorem readMembers?_lines (rest : List Char) : ∀ (ms : List (String × Json)) {steps : Nat},
    ms ≠ [] → ms.length ≤ steps → (∀ m ∈ ms, Finds value m.2) →
      readMembers? true value steps
        ((",\n".intercalate (ms.map line)).toList ++ '\n' :: '\x7d' :: rest) = some (ms, rest) := by
  intro ms
  induction ms with
  | nil =>
      intro steps hne
      exact absurd rfl hne
  | cons m ms ih =>
      intro steps _ hsteps hfinds
      obtain ⟨steps, rfl⟩ := Nat.exists_eq_add_of_le' (Nat.le_trans (Nat.succ_pos _) hsteps)
      have hm := hfinds m List.mem_cons_self
      cases ms with
      | nil =>
          rw [List.map_singleton, String.intercalate_singleton]
          exact readMembers?_last steps hm rest
      | cons m' ms =>
          have hrest := ih (List.cons_ne_nil m' ms) (Nat.le_of_succ_le_succ hsteps)
            fun x hx => hfinds x (List.mem_cons_of_mem m hx)
          rw [List.map_cons, List.map_cons, String.intercalate_cons_cons, ← List.map_cons]
          rw [String.toList_append, String.toList_append, List.append_assoc, List.append_assoc]
          refine readMembers?_comma hm ?_
          exact (readMembers?_newline value steps _).trans hrest

/-- An object that is not empty is read from its lines. -/
theorem readValue?_lines (hne : ms ≠ []) (hsteps : ms.length ≤ steps)
    (h : ∀ m ∈ ms, Finds (readValue? true steps depth) m.2) (rest : List Char) :
    readValue? true steps (depth + 1) ('\x7b' :: '\n' ::
      ((",\n".intercalate (ms.map line)).toList ++ '\n' :: '\x7d' :: rest)) =
        some (.object ms, rest) := by
  have hmembers := readMembers?_lines rest ms hne hsteps h
  obtain ⟨m, ms, rfl⟩ := List.exists_cons_of_ne_nil hne
  -- The first line is that of a member, so the object is not the empty one.
  have hfirst : ∃ tail, (",\n".intercalate ((m :: ms).map line)).toList ++ '\n' :: '\x7d' :: rest =
      (line m).toList ++ tail := by
    cases ms with
    | nil => exact ⟨_, by rw [List.map_singleton, String.intercalate_singleton]⟩
    | cons m' ms =>
        rw [List.map_cons, List.map_cons, String.intercalate_cons_cons, String.append_assoc,
          String.toList_append, List.append_assoc]
        exact ⟨_, rfl⟩
  obtain ⟨tail, htail⟩ := hfirst
  rw [htail] at hmembers ⊢
  have hblanks : skipBlanks ('\n' :: ((line m).toList ++ tail)) =
      '"' :: (m.1.toList.flatMap escape ++ ['"'] ++ ':' :: ' ' :: (m.2.print.toList ++ tail)) := by
    rw [skipBlanks_newline, toList_line, skipBlanks_space, skipBlanks_space, skipBlanks_quote,
      quote, String.toList_ofList]
    rfl
  rw [readValue?, hblanks]
  show ((readMembers? true _ steps _).map _) = _
  rw [readMembers?_newline, hmembers]
  rfl

theorem length_le_length_lines (ms : List (String × Json)) :
    ms.length ≤ (",\n".intercalate (ms.map line)).toList.length + 1 := by
  induction ms with
  | nil => exact Nat.zero_le _
  | cons m ms ih =>
      cases ms with
      | nil => exact Nat.succ_le_succ (Nat.zero_le _)
      | cons m' ms =>
          rw [List.map_cons, List.map_cons, String.intercalate_cons_cons, ← List.map_cons]
          rw [String.toList_append, String.toList_append, List.length_append, List.length_append]
          rw [List.length_cons]
          have : (",\n" : String).toList.length = 2 := rfl
          omega

/-- An object that is printed line by line is read back, with its members in their order. -/
theorem read?_printLines (hne : ms ≠ [])
    (h : ∀ m ∈ ms, ∀ steps depth, Finds (readValue? true steps depth) m.2) :
    read? (printLines ms) = some (.object ms) := by
  have hchars : (printLines ms).toList =
      '\x7b' :: '\n' :: ((",\n".intercalate (ms.map line)).toList ++ ['\n', '\x7d']) := by
    rw [printLines_eq, String.toList_append, String.toList_append]
    rfl
  have hlength : ms.length ≤ (printLines ms).toList.length := by
    have := length_le_length_lines ms
    rw [hchars]
    simp only [List.length_cons, List.length_append]
    omega
  have hvalue : readValue? true (printLines ms).toList.length (126 + 1) _ = _ :=
    readValue?_lines hne hlength (fun m hm => h m hm _ _) []
  rw [← hchars] at hvalue
  have hblanks : skipBlanks (printLines ms).toList = (printLines ms).toList := by
    rw [hchars]
    rfl
  have hfirst : readFirst? true maxDepth (printLines ms).toList = some (.object ms, []) := by
    rw [readFirst?, hblanks]
    exact hvalue
  rw [read?, hfirst]
  rfl

end Json

end Reckoner
