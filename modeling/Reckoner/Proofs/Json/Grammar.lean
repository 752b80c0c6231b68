/-
The grammar of JSON.

    document := blank* value blank*
    value    := 'null' | 'true' | 'false' | number | text
              | '[' blank* ']' | '[' list of values ']'
              | '{' blank* '}' | '{' list of members '}'
    member   := text blank* ':' blank* value
    list     := item (',' item)*, with blanks around each item
    text     := '"' (character | escape)* '"'
    number   := '-'? digit+ ('.' digit+)? exponent?

What the reader accepts is a document by this grammar, whatever it stands for.  The converse does
not hold: the reader refuses halves of surrogate pairs, numbers that are out of range and values
that are nested too deep.
-/
import Reckoner.Json.Reader
import Reckoner.Proofs.Decimal.Grammar

namespace Reckoner

open DecimalNumeral (IsExponent)

/-- A reader takes parts of a certain form from the front of a text, and returns what follows. -/
def Takes {α : Type} (reader : List Char → Option (α × List Char)) (P : List Char → Prop) : Prop :=
  ∀ {cs a rest}, reader cs = some (a, rest) → ∃ part, cs = part ++ rest ∧ P part

/-- What a reader takes as a whole is of the form. -/
theorem Takes.of_map_snd {α : Type} {reader : List Char → Option (α × List Char)}
    {P : List Char → Prop} (h : Takes reader P) {cs : List Char}
    (hread : (reader cs).map Prod.snd = some []) : P cs := by
  obtain ⟨⟨x, rest⟩, hx, hrest⟩ := Option.map_eq_some_iff.mp hread
  obtain ⟨part, rfl, hpart⟩ := h hx
  obtain rfl : rest = [] := hrest
  rwa [List.append_nil]

/-! ### Numbers -/

namespace JsonNumeral

/-- Digits, at least one. -/
def IsDigits (ds : List Char) : Prop := ds ≠ [] ∧ ∀ c ∈ ds, c.isDigit = true

/-- The text of a fraction, if there is one. -/
inductive IsFraction : List Char → Prop
  | nothing : IsFraction []
  | digits {ds : List Char} (h : IsDigits ds) : IsFraction ('.' :: ds)

/-- The text of a number without a sign.  If it starts with zero, nothing but that zero stands
before the point. -/
inductive IsUnsigned : List Char → Prop
  | mk {whole fraction exponent : List Char} {e : ℤ} (digits : IsDigits whole)
      (lone_zero : whole.head? = some '0' → whole = ['0']) (isFraction : IsFraction fraction)
      (isExponent : IsExponent exponent e) : IsUnsigned (whole ++ fraction ++ exponent)

/-- The text of a number. -/
inductive IsNumber : List Char → Prop
  | positive {cs : List Char} (h : IsUnsigned cs) : IsNumber cs
  | negative {cs : List Char} (h : IsUnsigned cs) : IsNumber ('-' :: cs)

variable {cs rest ds : List Char} {n : JsonNumeral}

theorem isDigits_of_readDigits? (h : readDigits? cs = some (ds, rest)) :
    cs = ds ++ rest ∧ IsDigits ds := by
  unfold readDigits? at h
  dsimp only at h
  split at h
  · cases h
  · rename_i hne
    cases h
    refine ⟨List.takeWhile_append_dropWhile.symm, ?_, ?_⟩
    · simpa using hne
    · intro c hc
      exact List.mem_takeWhile_imp hc

theorem takes_readFraction? : Takes readFraction? IsFraction := by
  intro cs found rest h
  unfold readFraction? at h
  split at h
  · obtain ⟨⟨ds, rest'⟩, hds, heq⟩ := Option.map_eq_some_iff.mp h
    cases heq
    obtain ⟨rfl, hdigits⟩ := isDigits_of_readDigits? hds
    exact ⟨'.' :: ds, rfl, .digits hdigits⟩
  · cases h
    exact ⟨[], rfl, .nothing⟩

theorem takes_readExponent? : Takes readExponent? fun cs => ∃ e, IsExponent cs e := by
  intro cs found rest h
  cases cs with
  | nil =>
      cases h
      exact ⟨[], rfl, 0, .nothing⟩
  | cons c cs =>
      rw [readExponent?] at h
      by_cases hc : c = 'e' ∨ c = 'E'
      · rw [if_pos hc] at h
        obtain ⟨sign, hsign, hcs⟩ := DecimalNumeral.exists_isSign cs
        generalize DecimalNumeral.readSign cs = read at h hsign hcs
        obtain ⟨negative, digits⟩ := read
        obtain ⟨⟨ds, rest'⟩, hds, heq⟩ := Option.map_eq_some_iff.mp h
        cases heq
        obtain ⟨hsplit, hne, hdigits⟩ := isDigits_of_readDigits? hds
        refine ⟨c :: (sign ++ ds), ?_, _, .power hc hsign hne hdigits⟩
        rw [hcs, hsplit]
        simp
      · rw [if_neg hc] at h
        cases h
        exact ⟨[], rfl, 0, .nothing⟩

theorem takes_readUnsigned? (negative : Bool) : Takes (readUnsigned? negative) IsUnsigned := by
  intro cs n rest h
  obtain ⟨⟨whole, afterWhole⟩, hwhole, hrest⟩ := Option.bind_eq_some_iff.mp h
  obtain ⟨hsplit, hdigits⟩ := isDigits_of_readDigits? hwhole
  by_cases hzero : whole.head? = some '0' ∧ whole.length ≠ 1
  · dsimp only at hrest
    rw [if_pos hzero] at hrest
    cases hrest
  · dsimp only at hrest
    rw [if_neg hzero] at hrest
    obtain ⟨⟨found, afterFraction⟩, hfound, hrest⟩ := Option.bind_eq_some_iff.mp hrest
    obtain ⟨⟨power, afterExponent⟩, hpower, hrest⟩ := Option.bind_eq_some_iff.mp hrest
    cases hrest
    obtain ⟨fraction, rfl, hfraction⟩ := takes_readFraction? hfound
    obtain ⟨exponent, rfl, e, hexponent⟩ := takes_readExponent? hpower
    refine ⟨whole ++ fraction ++ exponent, by simp [hsplit], .mk hdigits ?_ hfraction hexponent⟩
    intro hhead
    have hlength : whole.length = 1 := by
      by_contra hne
      exact hzero ⟨hhead, hne⟩
    obtain ⟨c, rfl⟩ := List.length_eq_one_iff.mp hlength
    cases hhead
    rfl

theorem takes_read? : Takes read? IsNumber := by
  intro cs n rest h
  unfold read? at h
  split at h
  · obtain ⟨part, rfl, hpart⟩ := takes_readUnsigned? true h
    exact ⟨'-' :: part, rfl, .negative hpart⟩
  · obtain ⟨part, rfl, hpart⟩ := takes_readUnsigned? false h
    exact ⟨part, rfl, .positive hpart⟩

end JsonNumeral

namespace Json

open JsonNumeral (IsNumber)

/-! ### Texts -/

/-- What stands after the first quote of a text, up to its last one. -/
inductive IsQuoted : List Char → Prop
  | close : IsQuoted ['"']
  | plain {c : Char} {cs : List Char} (hc : c ≠ '"' ∧ c ≠ '\\' ∧ 32 ≤ c.toNat) (h : IsQuoted cs) :
      IsQuoted (c :: cs)
  | letter {c : Char} {cs : List Char} (hc : c ∈ ['"', '\\', '/', 'b', 'f', 'n', 'r', 't'])
      (h : IsQuoted cs) : IsQuoted ('\\' :: c :: cs)
  /-- A character by its number in four hexadecimal digits. -/
  | number {a b c d : Char} {cs : List Char}
      (hdigits : ∀ x ∈ [a, b, c, d], (Numeral.digitIn? 16 x).isSome = true) (h : IsQuoted cs) :
      IsQuoted ('\\' :: 'u' :: a :: b :: c :: d :: cs)

/-- A quoted text. -/
inductive IsText : List Char → Prop
  | quoted {cs : List Char} (h : IsQuoted cs) : IsText ('"' :: cs)

variable {strict : Bool} {c : Char} {cs rest : List Char}

theorem mem_of_unescape? {letter : Char} (h : unescape? letter = some c) :
    letter ∈ ['"', '\\', '/', 'b', 'f', 'n', 'r', 't'] := by
  simp only [List.mem_cons, List.not_mem_nil, or_false]
  unfold unescape? at h
  split at h
  · tauto
  · repeat' split at h
    all_goals tauto

theorem isQuoted_of_readLowSurrogate? {n : ℕ} (h : readLowSurrogate? n cs = some (c, rest)) :
    ∃ part, cs = part ++ rest ∧ ∀ tail, IsQuoted tail → IsQuoted (part ++ tail) := by
  unfold readLowSurrogate? at h
  split at h
  · rename_i a b c' d rest'
    obtain ⟨low, hlow, h⟩ := Option.bind_eq_some_iff.mp h
    split at h
    · obtain ⟨-, rfl⟩ := Prod.mk.inj (Option.some.inj h)
      exact ⟨['\\', 'u', a, b, c', d], rfl, fun tail => .number (Numeral.isSome_of_read? hlow)⟩
    · cases h
  · cases h

/-- After a backslash an escape goes on with what may stand in a quoted text. -/
theorem isQuoted_of_readEscape? (h : readEscape? strict cs = some (c, rest)) :
    ∃ part, cs = part ++ rest ∧ ∀ tail, IsQuoted tail → IsQuoted ('\\' :: (part ++ tail)) := by
  unfold readEscape? at h
  split at h
  · cases h
  · rename_i a b c' d rest'
    obtain ⟨n, hn, h⟩ := Option.bind_eq_some_iff.mp h
    have hdigits := Numeral.isSome_of_read? hn
    split at h
    · split at h
      · obtain ⟨part, rfl, hpart⟩ := isQuoted_of_readLowSurrogate? h
        exact ⟨'u' :: a :: b :: c' :: d :: part, rfl, fun tail ht => .number hdigits (hpart tail ht)⟩
      · cases h
        exact ⟨['u', a, b, c', d], rfl, fun tail => .number hdigits⟩
    · cases h
      exact ⟨['u', a, b, c', d], rfl, fun tail => .number hdigits⟩
  · rename_i letter rest' _
    obtain ⟨found, hfound, heq⟩ := Option.map_eq_some_iff.mp h
    cases heq
    exact ⟨[letter], rfl, fun tail => .letter (mem_of_unescape? hfound)⟩

theorem takes_readQuoted? (strict : Bool) : ∀ steps, Takes (readQuoted? strict steps) IsQuoted := by
  intro steps
  induction steps with
  | zero =>
      intro cs found rest h
      cases cs <;> cases h
  | succ steps ih =>
      intro cs found rest h
      cases cs with
      | nil => cases h
      | cons c cs =>
          rw [readQuoted?] at h
          split at h
          · rename_i hc
            cases h
            exact ⟨['"'], by rw [hc]; rfl, .close⟩
          · rename_i hquote
            split at h
            · rename_i hc
              obtain ⟨⟨c', afterEscape⟩, hescape, h⟩ := Option.bind_eq_some_iff.mp h
              obtain ⟨⟨cs', rest'⟩, hcs, h⟩ := Option.bind_eq_some_iff.mp h
              cases h
              obtain ⟨part, rfl, hpart⟩ := isQuoted_of_readEscape? hescape
              obtain ⟨tail, rfl, htail⟩ := ih hcs
              exact ⟨'\\' :: (part ++ tail), by rw [hc]; simp, hpart tail htail⟩
            · rename_i hbackslash
              split at h
              · cases h
              · rename_i hcontrol
                obtain ⟨⟨cs', rest'⟩, hcs, h⟩ := Option.bind_eq_some_iff.mp h
                cases h
                obtain ⟨tail, rfl, htail⟩ := ih hcs
                exact ⟨c :: tail, rfl, .plain ⟨hquote, hbackslash, Nat.le_of_not_lt hcontrol⟩ htail⟩

theorem takes_readText? (strict : Bool) : Takes (readText? strict) IsText := by
  intro cs found rest h
  unfold readText? at h
  split at h
  · obtain ⟨⟨chars, rest'⟩, hchars, heq⟩ := Option.map_eq_some_iff.mp h
    cases heq
    obtain ⟨part, rfl, hpart⟩ := takes_readQuoted? strict _ hchars
    exact ⟨'"' :: part, rfl, .quoted hpart⟩
  · cases h

/-! ### Values -/

/-- Blanks between the parts of a document. -/
def AreBlanks (cs : List Char) : Prop := ∀ c ∈ cs, c = ' ' ∨ c = '\n' ∨ c = '\t' ∨ c = '\r'

/-- Items with commas between them, up to a closing character. -/
inductive IsList (P : List Char → Prop) (close : Char) : List Char → Prop
  | last {before item after : List Char} (hbefore : AreBlanks before) (hitem : P item)
      (hafter : AreBlanks after) : IsList P close (before ++ item ++ after ++ [close])
  | more {before item after rest : List Char} (hbefore : AreBlanks before) (hitem : P item)
      (hafter : AreBlanks after) (h : IsList P close rest) :
      IsList P close (before ++ item ++ after ++ ',' :: rest)

/-- The member of an object, given what its value may be. -/
inductive IsMember (P : List Char → Prop) : List Char → Prop
  | named {name before after value : List Char} (hname : IsText name) (hbefore : AreBlanks before)
      (hafter : AreBlanks after) (hvalue : P value) :
      IsMember P (name ++ before ++ ':' :: (after ++ value))

/-- A value. -/
inductive IsValue : List Char → Prop
  | null : IsValue "null".toList
  | true : IsValue "true".toList
  | false : IsValue "false".toList
  | number {cs : List Char} (h : IsNumber cs) : IsValue cs
  | text {cs : List Char} (h : IsText cs) : IsValue cs
  | emptyArray {blanks : List Char} (h : AreBlanks blanks) : IsValue ('[' :: (blanks ++ [']']))
  | array {cs : List Char} (h : IsList IsValue ']' cs) : IsValue ('[' :: cs)
  | emptyObject {blanks : List Char} (h : AreBlanks blanks) :
      IsValue ('\x7b' :: (blanks ++ ['\x7d']))
  | object {cs : List Char} (h : IsList (IsMember IsValue) '\x7d' cs) : IsValue ('\x7b' :: cs)

/-- A text is a JSON document. -/
def IsDocument (source : String) : Prop :=
  ∃ before value after, source.toList = before ++ value ++ after ∧
    AreBlanks before ∧ IsValue value ∧ AreBlanks after

theorem exists_blanks (cs : List Char) : ∃ blanks, cs = blanks ++ skipBlanks cs ∧ AreBlanks blanks := by
  refine ⟨cs.takeWhile fun c => c == ' ' || c == '\n' || c == '\t' || c == '\r', ?_, ?_⟩
  · exact List.takeWhile_append_dropWhile.symm
  · intro c hc
    have := List.mem_takeWhile_imp hc
    simpa [or_assoc] using this

theorem eq_append_of_after? {word : String} (h : after? word cs = some rest) :
    cs = word.toList ++ rest := by
  unfold after? at h
  split at h
  · rename_i hprefix
    obtain ⟨tail, rfl⟩ := List.isPrefixOf_iff_prefix.mp hprefix
    rw [← String.length_toList, List.drop_left] at h
    cases h
    rfl
  · cases h

theorem takes_readNumber? (strict : Bool) : Takes (readNumber? strict) IsNumber := by
  intro cs n rest h
  obtain ⟨⟨numeral, rest'⟩, hnumeral, h⟩ := Option.bind_eq_some_iff.mp h
  obtain ⟨part, hsplit, hpart⟩ := JsonNumeral.takes_read? hnumeral
  have hrest : rest' = rest := by
    dsimp only at h
    split at h
    · cases h
      rfl
    · split at h
      · cases h
      · cases h
        rfl
  exact ⟨part, hrest ▸ hsplit, hpart⟩

theorem takes_readScalar? (strict : Bool) : Takes (readScalar? strict) IsValue := by
  intro cs x rest h
  unfold readScalar? at h
  split at h
  · obtain ⟨rest', hrest, heq⟩ := Option.map_eq_some_iff.mp h
    cases heq
    exact ⟨_, eq_append_of_after? hrest, .null⟩
  · obtain ⟨rest', hrest, heq⟩ := Option.map_eq_some_iff.mp h
    cases heq
    exact ⟨_, eq_append_of_after? hrest, .true⟩
  · obtain ⟨rest', hrest, heq⟩ := Option.map_eq_some_iff.mp h
    cases heq
    exact ⟨_, eq_append_of_after? hrest, .false⟩
  · obtain ⟨⟨s, rest'⟩, hs, heq⟩ := Option.map_eq_some_iff.mp h
    cases heq
    obtain ⟨part, hsplit, hpart⟩ := takes_readText? strict hs
    exact ⟨part, hsplit, .text hpart⟩
  · obtain ⟨⟨n, rest'⟩, hn, heq⟩ := Option.map_eq_some_iff.mp h
    cases heq
    obtain ⟨part, hsplit, hpart⟩ := takes_readNumber? strict hn
    exact ⟨part, hsplit, .number hpart⟩

/-- Blanks in front of what a reader takes, and blanks after that. -/
theorem exists_between_blanks {α : Type} {reader : List Char → Option (α × List Char)}
    {P : List Char → Prop} (hreader : Takes reader P) {x : α}
    (h : reader (skipBlanks cs) = some (x, rest)) :
    ∃ before item after, cs = before ++ item ++ after ++ skipBlanks rest ∧
      AreBlanks before ∧ P item ∧ AreBlanks after := by
  obtain ⟨before, hbefore, hblanks⟩ := exists_blanks cs
  obtain ⟨item, hitem, hP⟩ := hreader h
  obtain ⟨after, hafter, hblanks'⟩ := exists_blanks rest
  refine ⟨before, item, after, ?_, hblanks, hP, hblanks'⟩
  rw [List.append_assoc, List.append_assoc, ← hafter, ← hitem, ← hbefore]

variable {value : Reader} {P : List Char → Prop}

theorem takes_readElements? (hvalue : Takes value P) :
    ∀ steps, Takes (readElements? value steps) (IsList P ']') := by
  intro steps
  induction steps with
  | zero =>
      intro cs xs rest h
      cases h
  | succ steps ih =>
      intro cs xs rest h
      rw [readElements?] at h
      obtain ⟨⟨x, afterItem⟩, hx, h⟩ := Option.bind_eq_some_iff.mp h
      obtain ⟨before, item, after, hsplit, hbefore, hitem, hafter⟩ :=
        exists_between_blanks hvalue hx
      dsimp only at h
      split at h
      · rename_i tail hnext
        obtain ⟨⟨ys, rest'⟩, hys, h⟩ := Option.bind_eq_some_iff.mp h
        cases h
        obtain ⟨more, rfl, hmore⟩ := ih hys
        rw [hnext] at hsplit
        exact ⟨before ++ item ++ after ++ ',' :: more, by rw [hsplit]; simp,
          .more hbefore hitem hafter hmore⟩
      · rename_i tail hnext
        cases h
        rw [hnext] at hsplit
        exact ⟨before ++ item ++ after ++ [']'], by rw [hsplit]; simp, .last hbefore hitem hafter⟩
      · cases h

/-- A name with its colon, blanks around the name. -/
theorem exists_of_readName? {name : String} (h : readName? strict cs = some (name, rest)) :
    ∃ before part after, cs = before ++ part ++ after ++ ':' :: rest ∧
      AreBlanks before ∧ IsText part ∧ AreBlanks after := by
  obtain ⟨⟨found, afterName⟩, hfound, h⟩ := Option.bind_eq_some_iff.mp h
  obtain ⟨before, part, after, hsplit, hbefore, hpart, hafter⟩ :=
    exists_between_blanks (takes_readText? strict) hfound
  dsimp only at h
  split at h
  · rename_i tail hnext
    cases h
    rw [hnext] at hsplit
    exact ⟨before, part, after, hsplit, hbefore, hpart, hafter⟩
  · cases h

theorem takes_readMembers? (strict : Bool) (hvalue : Takes value P) :
    ∀ steps, Takes (readMembers? strict value steps) (IsList (IsMember P) '\x7d') := by
  intro steps
  induction steps with
  | zero =>
      intro cs ms rest h
      cases h
  | succ steps ih =>
      intro cs ms rest h
      rw [readMembers?] at h
      obtain ⟨⟨name, afterName⟩, hname, h⟩ := Option.bind_eq_some_iff.mp h
      obtain ⟨⟨x, afterValue⟩, hx, h⟩ := Option.bind_eq_some_iff.mp h
      obtain ⟨before, part, between, hsplit, hbefore, hpart, hbetween⟩ := exists_of_readName? hname
      obtain ⟨between', item, after, hsplit', hbetween', hitem, hafter⟩ :=
        exists_between_blanks hvalue hx
      have hmember : IsMember P (part ++ between ++ ':' :: (between' ++ item)) :=
        .named hpart hbetween hbetween' hitem
      dsimp only at h
      split at h
      · rename_i tail hnext
        obtain ⟨⟨ys, rest'⟩, hys, h⟩ := Option.bind_eq_some_iff.mp h
        cases h
        obtain ⟨more, rfl, hmore⟩ := ih hys
        rw [hnext] at hsplit'
        refine ⟨_, ?_, .more hbefore hmember hafter hmore⟩
        rw [hsplit, hsplit']
        simp
      · rename_i tail hnext
        cases h
        rw [hnext] at hsplit'
        refine ⟨_, ?_, .last hbefore hmember hafter⟩
        rw [hsplit, hsplit']
        simp
      · cases h

/-! ### Documents -/

theorem takes_readValue? (strict : Bool) (steps : ℕ) :
    ∀ depth, Takes (readValue? strict steps depth) IsValue := by
  intro depth
  induction depth with
  | zero => exact takes_readScalar? strict
  | succ depth ih =>
      intro cs x rest h
      rw [readValue?.eq_def] at h
      dsimp only at h
      split at h
      · rename_i tail
        split at h
        · rename_i tail' hnext
          cases h
          obtain ⟨blanks, htail, hblanks⟩ := exists_blanks tail
          rw [hnext] at htail
          exact ⟨'[' :: (blanks ++ [']']), by rw [htail]; simp, .emptyArray hblanks⟩
        · obtain ⟨⟨xs, rest'⟩, hxs, heq⟩ := Option.map_eq_some_iff.mp h
          cases heq
          obtain ⟨part, rfl, hpart⟩ := takes_readElements? ih steps hxs
          exact ⟨'[' :: part, rfl, .array hpart⟩
      · rename_i tail
        split at h
        · rename_i tail' hnext
          cases h
          obtain ⟨blanks, htail, hblanks⟩ := exists_blanks tail
          rw [hnext] at htail
          exact ⟨'\x7b' :: (blanks ++ ['\x7d']), by rw [htail]; simp, .emptyObject hblanks⟩
        · obtain ⟨⟨ms, rest'⟩, hms, heq⟩ := Option.map_eq_some_iff.mp h
          cases heq
          obtain ⟨part, rfl, hpart⟩ := takes_readMembers? strict ih steps hms
          exact ⟨'\x7b' :: part, rfl, .object hpart⟩
      · exact takes_readScalar? strict h

/-- **What is read is a document.** -/
theorem isDocument_of_read? {source : String} {x : Json} (h : read? source = some x) :
    IsDocument source := by
  unfold read? at h
  split at h
  · rename_i y rest hfirst
    split at h
    · rename_i hempty
      obtain ⟨before, part, after, hsplit, hbefore, hpart, hafter⟩ :=
        exists_between_blanks (takes_readValue? true _ maxDepth) hfirst
      rw [List.isEmpty_iff.mp hempty, List.append_nil] at hsplit
      exact ⟨before, part, after, hsplit, hbefore, hpart, hafter⟩
    · cases h
  · cases h

end Json

end Reckoner
