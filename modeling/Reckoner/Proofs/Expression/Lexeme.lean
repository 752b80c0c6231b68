/-
Lexemes, apart from any scanner.

A text is cut where the longest piece ends that has the shape of a lexeme.  The shapes are
words, signs, and runs of digits and points with an exponent; a run is cut off as a whole
and only then looked at, so `1..2` is no number rather than two.  The scanner cuts at the
same places, and takes a piece for the token that it is by itself.

    number := (digit | '.')+ exponent?    with at most one point and at least one digit
    word   := (letter | '_') (letter | digit | '_')*
    symbol := '+' | '-' | '*' | '/' | '^' | '**' | '(' | ')' | ','
-/
import Reckoner.Expression.Token
import Reckoner.Proofs.Decimal.Grammar
import Reckoner.Proofs.Text.Blank

namespace Reckoner.Token

open DecimalNumeral

/-! ### Shapes -/

/-- The texts of operators, parentheses and the comma; powers have two signs. -/
inductive IsSymbol : List Char → Token → Prop
  | plus : IsSymbol ['+'] .plus
  | minus : IsSymbol ['-'] .minus
  | star : IsSymbol ['*'] .star
  | slash : IsSymbol ['/'] .slash
  | caret : IsSymbol ['^'] .caret
  | stars : IsSymbol ['*', '*'] .caret
  | opening : IsSymbol ['('] .opening
  | closing : IsSymbol [')'] .closing
  | comma : IsSymbol [','] .comma

/-- A word starts with a letter or an underscore and may go on with digits. -/
inductive IsWord : List Char → Prop
  | mk {c : Char} {cs : List Char} (starts : startsWord c = true)
      (goesOn : ∀ d ∈ cs, inWord d = true) : IsWord (c :: cs)

/-- Digits and points, however many and in whatever order, and an exponent if there is one. -/
inductive IsRun : List Char → Prop
  | mk {run exponent : List Char} {e : ℤ} (ne_nil : run ≠ []) (chars : ∀ c ∈ run, inNumber c = true)
      (isExponent : IsExponent exponent e) : IsRun (run ++ exponent)

/-- What is cut off in one piece. -/
inductive Shape : List Char → Prop
  | run {cs : List Char} (h : IsRun cs) : Shape cs
  | word {cs : List Char} (h : IsWord cs) : Shape cs
  | symbol {cs : List Char} {t : Token} (h : IsSymbol cs t) : Shape cs

/-- The token that a piece of text is. -/
inductive Lexeme : List Char → Token → Prop
  | number {mantissa whole fraction exponent : List Char} {e : ℤ}
      (isMantissa : IsMantissa mantissa whole fraction) (isExponent : IsExponent exponent e) :
      Lexeme (mantissa ++ exponent) (.number (toDouble ⟨false, whole, fraction, e⟩))
  | word {name : List Char} (h : IsWord name) : Lexeme name (.word (String.ofList name))
  | symbol {cs : List Char} {t : Token} (h : IsSymbol cs t) : Lexeme cs t

/-- No longer piece starts where this one does. -/
structure Longest (piece rest : List Char) : Prop where
  shape : Shape piece
  longest : ∀ piece' rest', piece' ++ rest' = piece ++ rest → Shape piece' →
    piece'.length ≤ piece.length

variable {c : Char} {cs piece rest : List Char} {t : Token}

/-! ### Characters -/

theorem isDigit_iff : c.isDigit = true ↔ 48 ≤ c.toNat ∧ c.toNat ≤ 57 := by
  simp [Char.isDigit, UInt32.le_iff_toNat_le, ← Char.toNat_val]

theorem isAlpha_iff : c.isAlpha = true ↔
    (65 ≤ c.toNat ∧ c.toNat ≤ 90) ∨ (97 ≤ c.toNat ∧ c.toNat ≤ 122) := by
  simp [Char.isAlpha, Char.isUpper, Char.isLower, UInt32.le_iff_toNat_le, ← Char.toNat_val]

theorem inNumber_iff : inNumber c = true ↔ c.isDigit = true ∨ c = '.' := by
  rw [inNumber, Bool.or_eq_true, beq_iff_eq]

/-- What starts a word starts no number. -/
theorem inNumber_of_startsWord (h : startsWord c = true) : inNumber c = false := by
  rw [startsWord, Bool.or_eq_true, beq_iff_eq, isAlpha_iff] at h
  rw [Bool.eq_false_iff]
  intro hnumber
  rcases inNumber_iff.mp hnumber with hdigit | rfl
  · have hrange := isDigit_iff.mp hdigit
    rcases h with h | rfl
    · omega
    · cases hdigit
  · revert h
    decide

theorem isBlank_of_isDigit (h : c.isDigit = true) : Text.isBlank c = false :=
  Text.isBlank_of_isDecimalDigit (Text.isDecimalDigit_of_isDigit h)

theorem isBlank_of_inNumber (h : inNumber c = true) : Text.isBlank c = false := by
  rcases inNumber_iff.mp h with h | rfl
  · exact isBlank_of_isDigit h
  · decide

theorem inWord_of_startsWord (h : startsWord c = true) : inWord c = true := by
  rw [startsWord, Bool.or_eq_true] at h
  rw [inWord, Char.isAlphanum, Bool.or_eq_true, Bool.or_eq_true]
  exact h.imp_left .inl

theorem isBlank_of_inWord (h : inWord c = true) : Text.isBlank c = false := by
  rw [inWord, Char.isAlphanum, Bool.or_eq_true, Bool.or_eq_true, beq_iff_eq, isAlpha_iff,
    isDigit_iff] at h
  rcases h with h | rfl
  · simp only [Text.isBlank, Bool.or_eq_false_iff, Bool.and_eq_false_iff, decide_eq_false_iff_not,
      beq_eq_false_iff_ne]
    omega
  · decide

theorem isBlank_of_isExponent {exponent : List Char} {e : ℤ} (h : IsExponent exponent e) :
    ∀ c ∈ exponent, Text.isBlank c = false := by
  intro c hc
  cases h with
  | nothing => cases hc
  | power letter_eq isSign _ digits =>
      rcases List.mem_cons.mp hc with rfl | hc
      · rcases letter_eq with rfl | rfl <;> decide
      · rcases List.mem_append.mp hc with hc | hc
        · cases isSign with
          | nothing => cases hc
          | plus =>
              rw [List.mem_singleton.mp hc]
              decide
          | minus =>
              rw [List.mem_singleton.mp hc]
              decide
        · exact isBlank_of_isDigit (digits c hc)

theorem inNumber_head_of_isExponent {exponent : List Char} {e : ℤ} (h : IsExponent exponent e) :
    ∀ c, exponent.head? = some c → inNumber c = false := by
  intro c hc
  obtain ⟨hdigit, hpoint⟩ := head_of_isExponent h c hc
  rw [inNumber, hdigit, Bool.false_or, beq_eq_false_iff_ne]
  exact hpoint

/-! ### Shapes by their characters -/

/-- A shape has no blanks. -/
theorem Shape.not_blank (h : Shape piece) : ∀ c ∈ piece, Text.isBlank c = false := by
  intro c hc
  cases h with
  | run h =>
      obtain ⟨-, chars, isExponent⟩ := h
      rcases List.mem_append.mp hc with hc | hc
      · exact isBlank_of_inNumber (chars c hc)
      · exact isBlank_of_isExponent isExponent c hc
  | word h =>
      obtain ⟨starts, goesOn⟩ := h
      rcases List.mem_cons.mp hc with rfl | hc
      · exact isBlank_of_inWord (inWord_of_startsWord starts)
      · exact isBlank_of_inWord (goesOn c hc)
  | symbol h =>
      cases h <;> simp only [List.mem_cons, List.not_mem_nil, or_false, or_self] at hc <;>
        rw [hc] <;> decide

theorem IsRun.exists_cons (h : IsRun piece) : ∃ c cs, piece = c :: cs ∧ inNumber c = true := by
  obtain ⟨ne_nil, chars, -⟩ := h
  obtain ⟨c, run, rfl⟩ := List.exists_cons_of_ne_nil ne_nil
  exact ⟨c, _, rfl, chars c List.mem_cons_self⟩

theorem Shape.ne_nil (h : Shape piece) : piece ≠ [] := by
  cases h with
  | run h =>
      obtain ⟨c, cs, rfl, -⟩ := h.exists_cons
      exact List.cons_ne_nil c cs
  | word h =>
      cases h
      exact List.cons_ne_nil _ _
  | symbol h =>
      cases h <;> exact List.cons_ne_nil _ _

theorem starts_of_isRun (h : IsRun (c :: cs)) : inNumber c = true := by
  obtain ⟨d, ds, heq, hd⟩ := h.exists_cons
  rwa [(List.cons.inj heq).1]

theorem starts_of_isWord (h : IsWord (c :: cs)) : startsWord c = true := by
  cases h with
  | mk starts _ => exact starts

theorem starts_of_isSymbol (h : IsSymbol (c :: cs) t) :
    inNumber c = false ∧ startsWord c = false := by
  cases h <;> decide

/-- The first character tells the three kinds of shapes apart. -/
theorem Shape.isRun (h : Shape (c :: cs)) (hc : inNumber c = true) : IsRun (c :: cs) := by
  cases h with
  | run h => exact h
  | word h =>
      rw [inNumber_of_startsWord (starts_of_isWord h)] at hc
      cases hc
  | symbol h =>
      rw [(starts_of_isSymbol h).1] at hc
      cases hc

theorem Shape.isWord (h : Shape (c :: cs)) (hc : startsWord c = true) : IsWord (c :: cs) := by
  cases h with
  | word h => exact h
  | run h =>
      have hnumber := starts_of_isRun h
      rw [inNumber_of_startsWord hc] at hnumber
      cases hnumber
  | symbol h =>
      rw [(starts_of_isSymbol h).2] at hc
      cases hc

theorem Shape.isSymbol (h : Shape (c :: cs)) (hnumber : inNumber c = false)
    (hword : startsWord c = false) : ∃ t, IsSymbol (c :: cs) t := by
  cases h with
  | symbol h => exact ⟨_, h⟩
  | run h =>
      rw [starts_of_isRun h] at hnumber
      cases hnumber
  | word h =>
      rw [starts_of_isWord h] at hword
      cases hword

theorem isRun_of_isMantissa {mantissa whole fraction exponent : List Char} {e : ℤ}
    (h : IsMantissa mantissa whole fraction) (he : IsExponent exponent e) :
    IsRun (mantissa ++ exponent) :=
  .mk h.ne_nil (fun c hc => inNumber_iff.mpr (isDigit_or_point_of_isMantissa h c hc)) he

theorem Lexeme.shape (h : Lexeme piece t) : Shape piece := by
  cases h with
  | number isMantissa isExponent => exact .run (isRun_of_isMantissa isMantissa isExponent)
  | word h => exact .word h
  | symbol h => exact .symbol h

/-! ### The longest shape -/

/-- There is one longest shape at the start of a text. -/
theorem Longest.unique {piece' rest' : List Char} (h : Longest piece rest)
    (h' : Longest piece' rest') (heq : piece ++ rest = piece' ++ rest') :
    piece = piece' ∧ rest = rest' := by
  refine List.append_inj heq (Nat.le_antisymm ?_ ?_)
  · exact h'.longest _ _ heq h.shape
  · exact h.longest _ _ heq.symm h'.shape

theorem length_le_takeWhile {p : Char → Bool} {cs : List Char} (h : ∀ c ∈ cs, p c = true)
    (rest : List Char) : cs.length ≤ ((cs ++ rest).takeWhile p).length := by
  rw [List.takeWhile_append_of_pos h, List.length_append]
  exact Nat.le_add_right _ _

/-- No longer run starts the text. -/
theorem length_le_spanNumber (h : IsRun piece) (rest : List Char) :
    piece.length ≤ (spanNumber (piece ++ rest)).1.length := by
  obtain ⟨-, chars, isExponent⟩ := h
  rename_i run exponent e
  rw [List.append_assoc, spanNumber]
  dsimp only
  rw [List.length_append, List.length_append]
  -- Without an exponent the digits and points may go on behind the piece.
  by_cases hnone : exponent = []
  · have hrun := length_le_takeWhile chars (exponent ++ rest)
    rw [hnone, List.length_nil]
    rw [hnone] at hrun
    omega
  · have hend : ∀ c, (exponent ++ rest).head? = some c → inNumber c = false := by
      intro c hc
      rw [List.head?_append_of_ne_nil _ hnone] at hc
      exact inNumber_head_of_isExponent isExponent c hc
    rw [takeWhile_append_rest chars hend, dropWhile_append_rest chars hend]
    have hexponent := length_le_spanExponent isExponent rest
    omega

/-- A run is cut off where its digits and points end, or else after the exponent behind them. -/
theorem longest_spanNumber (hc : inNumber c = true) (cs : List Char) :
    (spanNumber (c :: cs)).1 ++ (spanNumber (c :: cs)).2 = c :: cs ∧
      Longest (spanNumber (c :: cs)).1 (spanNumber (c :: cs)).2 := by
  obtain ⟨⟨e, hexponent⟩, hsplit⟩ :=
    exists_isExponent_spanExponent ((c :: cs).dropWhile inNumber)
  have htext : (spanNumber (c :: cs)).1 ++ (spanNumber (c :: cs)).2 = c :: cs := by
    rw [spanNumber]
    dsimp only
    rw [List.append_assoc, hsplit, List.takeWhile_append_dropWhile]
  refine ⟨htext, .run (.mk ?_ ?_ hexponent), ?_⟩
  · simp [hc]
  · exact fun d hd => List.mem_takeWhile_imp hd
  · intro piece' rest' heq hshape
    rw [htext] at heq
    obtain ⟨d, ds, rfl⟩ := List.exists_cons_of_ne_nil hshape.ne_nil
    obtain rfl : d = c := (List.cons.inj heq).1
    rw [← heq]
    exact length_le_spanNumber (hshape.isRun hc) rest'

theorem longest_word (hc : startsWord c = true) (cs : List Char) :
    Longest (c :: cs.takeWhile inWord) (cs.dropWhile inWord) := by
  refine ⟨.word (.mk hc fun d hd => List.mem_takeWhile_imp hd), ?_⟩
  intro piece' rest' heq hshape
  rw [List.cons_append, List.takeWhile_append_dropWhile] at heq
  obtain ⟨d, ds, rfl⟩ := List.exists_cons_of_ne_nil hshape.ne_nil
  obtain ⟨rfl, rfl⟩ := List.cons.inj heq
  obtain ⟨-, goesOn⟩ := hshape.isWord hc
  rw [List.length_cons, List.length_cons]
  exact Nat.succ_le_succ (length_le_takeWhile goesOn rest')

/-- No symbol has two characters but the two stars. -/
theorem tail_of_isSymbol (h : IsSymbol (c :: cs) t) : cs = [] ∨ (c = '*' ∧ cs = ['*']) := by
  cases h <;> simp

/-- A sign is cut off alone, unless two stars stand together. -/
theorem longest_symbol (h : IsSymbol (c :: cs) t)
    (halone : cs = [] → c = '*' → rest.head? ≠ some '*') : Longest (c :: cs) rest := by
  refine ⟨.symbol h, ?_⟩
  intro piece' rest' heq hshape
  obtain ⟨d, ds, rfl⟩ := List.exists_cons_of_ne_nil hshape.ne_nil
  obtain ⟨rfl, htail⟩ := List.cons.inj heq
  obtain ⟨hnumber, hword⟩ := starts_of_isSymbol h
  obtain ⟨t', h'⟩ := hshape.isSymbol hnumber hword
  rw [List.length_cons, List.length_cons]
  refine Nat.succ_le_succ ?_
  rcases tail_of_isSymbol h' with rfl | ⟨rfl, rfl⟩
  · exact Nat.zero_le _
  · cases cs with
    | cons _ _ => exact Nat.succ_le_succ (Nat.zero_le _)
    | nil =>
        have hrest : rest = '*' :: rest' := htail.symm
        exact absurd (by rw [hrest]; rfl) (halone rfl rfl)

/-! ### One step of the scanner -/

theorem ofChar?_eq_some : ofChar? c = some t ↔ IsSymbol [c] t := by
  constructor
  · intro h
    unfold ofChar? at h
    split at h <;> cases h <;> constructor
  · intro h
    cases h <;> rfl

/-- What starts like a number is a number, if it is a lexeme. -/
theorem number_of_lexeme (hc : inNumber c = true) (h : Lexeme (c :: cs) t) :
    ∃ mantissa whole fraction exponent e, c :: cs = mantissa ++ exponent ∧
      IsMantissa mantissa whole fraction ∧ IsExponent exponent e ∧
      t = .number (toDouble ⟨false, whole, fraction, e⟩) := by
  generalize hpiece : c :: cs = piece at h
  cases h with
  | number isMantissa isExponent =>
      exact ⟨_, _, _, _, _, rfl, isMantissa, isExponent, rfl⟩
  | word h =>
      subst hpiece
      rw [inNumber_of_startsWord (starts_of_isWord h)] at hc
      cases hc
  | symbol h =>
      subst hpiece
      rw [(starts_of_isSymbol h).1] at hc
      cases hc

/-- What a run of digits and points is, it is as a numeral. -/
theorem lexeme_iff_read? (hc : inNumber c = true) :
    Lexeme (c :: cs) t ↔ ∃ n, read? (c :: cs) = some n ∧ t = .number n.toDouble := by
  constructor
  · intro h
    obtain ⟨mantissa, whole, fraction, exponent, e, htext, hmantissa, hexponent, rfl⟩ :=
      number_of_lexeme hc h
    exact ⟨_, read?_eq_some.mpr ⟨[], mantissa, exponent, htext, .nothing, hmantissa, hexponent⟩,
      rfl⟩
  · rintro ⟨n, hread, rfl⟩
    obtain ⟨sign, mantissa, exponent, hsplit, hsign, hmantissa, hexponent⟩ :=
      read?_eq_some.mp hread
    obtain ⟨negative, whole, fraction, e⟩ := n
    cases hsign with
    | nothing =>
        rw [hsplit, List.nil_append]
        exact .number hmantissa hexponent
    | plus =>
        obtain rfl := (List.cons.inj hsplit).1
        cases hc
    | minus =>
        obtain rfl := (List.cons.inj hsplit).1
        cases hc

theorem lexeme_of_startsWord (hc : startsWord c = true) (h : Lexeme (c :: cs) t) :
    t = .word (String.ofList (c :: cs)) := by
  generalize hpiece : c :: cs = piece at h
  cases h with
  | word h => rfl
  | number isMantissa isExponent =>
      have hstart := starts_of_isRun (hpiece ▸ isRun_of_isMantissa isMantissa isExponent)
      rw [inNumber_of_startsWord hc] at hstart
      cases hstart
  | symbol h =>
      subst hpiece
      rw [(starts_of_isSymbol h).2] at hc
      cases hc

theorem isSymbol_of_lexeme (hnumber : inNumber c = false) (hword : startsWord c = false)
    (h : Lexeme (c :: cs) t) : IsSymbol (c :: cs) t := by
  generalize hpiece : c :: cs = piece at h
  cases h with
  | symbol h => exact h
  | word h =>
      subst hpiece
      rw [starts_of_isWord h] at hword
      cases hword
  | number isMantissa isExponent =>
      have hstart := starts_of_isRun (hpiece ▸ isRun_of_isMantissa isMantissa isExponent)
      rw [hstart] at hnumber
      cases hnumber

/-- A text starts with a lexeme as its longest piece. -/
def Starts (cs : List Char) (t : Token) (rest : List Char) : Prop :=
  ∃ piece, cs = piece ++ rest ∧ Longest piece rest ∧ Lexeme piece t

/-- With the longest piece known, only that one can be the lexeme. -/
theorem starts_append {longest rest' : List Char} (hlongest : Longest longest rest') :
    Starts (longest ++ rest') t rest ↔ rest = rest' ∧ Lexeme longest t := by
  constructor
  · rintro ⟨piece, htext, h, hlexeme⟩
    obtain ⟨rfl, rfl⟩ := hlongest.unique h htext
    exact ⟨rfl, hlexeme⟩
  · rintro ⟨rfl, hlexeme⟩
    exact ⟨longest, rfl, hlongest, hlexeme⟩

variable {length : ℕ}

theorem next_number (hc : inNumber c = true) :
    next length c cs = .ok (t, rest) ↔ Starts (c :: cs) t rest := by
  obtain ⟨htext, hlongest⟩ := longest_spanNumber hc cs
  rw [next, if_pos hc]
  generalize spanNumber (c :: cs) = split at htext hlongest
  obtain ⟨piece, rest'⟩ := split
  obtain ⟨d, ds, rfl⟩ := List.exists_cons_of_ne_nil hlongest.shape.ne_nil
  obtain rfl : d = c := (List.cons.inj htext).1
  rw [← htext, starts_append hlongest, lexeme_iff_read? hc]
  cases hread : read? (d :: ds) with
  | none => simp [hread]
  | some n => simp [hread, eq_comm, and_comm]

theorem next_word (hnumber : inNumber c = false) (hc : startsWord c = true) :
    next length c cs = .ok (t, rest) ↔ Starts (c :: cs) t rest := by
  have htext : c :: cs = (c :: cs.takeWhile inWord) ++ cs.dropWhile inWord := by
    rw [List.cons_append, List.takeWhile_append_dropWhile]
  have hlongest := longest_word hc cs
  rw [next, if_neg (by simp [hnumber]), if_pos hc, htext, starts_append hlongest]
  constructor
  · intro h
    cases h
    exact ⟨rfl, .word (hlongest.shape.isWord hc)⟩
  · rintro ⟨rfl, h⟩
    rw [lexeme_of_startsWord hc h]

theorem next_stars : next length '*' ('*' :: cs) = .ok (t, rest) ↔
    Starts ('*' :: '*' :: cs) t rest := by
  have hlongest : Longest ['*', '*'] cs := longest_symbol .stars (fun h => by cases h)
  rw [show '*' :: '*' :: cs = ['*', '*'] ++ cs from rfl, starts_append hlongest]
  constructor
  · intro h
    cases h
    exact ⟨rfl, .symbol .stars⟩
  · rintro ⟨rfl, h⟩
    cases isSymbol_of_lexeme rfl rfl h
    rfl

theorem next_symbol (hnumber : inNumber c = false) (hword : startsWord c = false)
    (halone : ¬ (c = '*' ∧ cs.head? = some '*')) :
    next length c cs = .ok (t, rest) ↔ Starts (c :: cs) t rest := by
  rw [next, if_neg (by simp [hnumber]), if_neg (by simp [hword]), if_neg halone]
  cases hchar : ofChar? c with
  | some t' =>
      have hsymbol := ofChar?_eq_some.mp hchar
      have hlongest : Longest [c] cs :=
        longest_symbol hsymbol fun _ hstar hhead => halone ⟨hstar, hhead⟩
      rw [show c :: cs = [c] ++ cs from rfl, starts_append hlongest]
      constructor
      · intro h
        cases h
        exact ⟨rfl, .symbol hsymbol⟩
      · rintro ⟨rfl, h⟩
        have hchar' := ofChar?_eq_some.mpr (isSymbol_of_lexeme hnumber hword h)
        rw [hchar] at hchar'
        rw [Option.some.inj hchar']
  | none =>
      constructor
      · intro h
        cases h
      · rintro ⟨piece, htext, hlongest, hlexeme⟩
        obtain ⟨d, ds, rfl⟩ := List.exists_cons_of_ne_nil hlongest.shape.ne_nil
        obtain ⟨rfl, hrest⟩ := List.cons.inj htext
        have hsymbol := isSymbol_of_lexeme hnumber hword hlexeme
        rcases tail_of_isSymbol hsymbol with rfl | ⟨rfl, rfl⟩
        · rw [ofChar?_eq_some.mpr hsymbol] at hchar
          cases hchar
        · cases hchar

/-- A step of the scanner cuts off the longest piece and takes it for the token that it is. -/
theorem next_eq_ok : next length c cs = .ok (t, rest) ↔ Starts (c :: cs) t rest := by
  cases hnumber : inNumber c with
  | true => exact next_number hnumber
  | false =>
      cases hword : startsWord c with
      | true => exact next_word hnumber hword
      | false =>
          by_cases hstars : c = '*' ∧ cs.head? = some '*'
          · obtain ⟨rfl, hstar⟩ := hstars
            obtain ⟨cs, rfl⟩ := List.head?_eq_some_iff.mp hstar
            exact next_stars
          · exact next_symbol hnumber hword hstars

/-! ### Numbers -/

/-- A run of digits and points is a mantissa if it has a digit, and one point at most. -/
theorem exists_isMantissa_iff {run : List Char} (chars : ∀ c ∈ run, inNumber c = true) :
    (∃ whole fraction, IsMantissa run whole fraction) ↔
      run.count '.' ≤ 1 ∧ ∃ c ∈ run, c.isDigit = true := by
  have hdigits : ∀ ds : List Char, ds.count '.' = 0 → (∀ c ∈ ds, inNumber c = true) →
      ∀ c ∈ ds, c.isDigit = true := by
    intro ds hcount hds c hc
    rcases inNumber_iff.mp (hds c hc) with h | rfl
    · exact h
    · exact absurd hc (List.count_eq_zero.mp hcount)
  have hpoints : ∀ ds : List Char, (∀ c ∈ ds, c.isDigit = true) → ds.count '.' = 0 := by
    intro ds hds
    exact List.count_eq_zero.mpr fun hpoint => absurd (hds _ hpoint) (by decide)
  have hsome : ∀ ds : List Char, ds ≠ [] → (∀ c ∈ ds, c.isDigit = true) →
      ∃ c ∈ ds, c.isDigit = true := by
    intro ds hne hds
    obtain ⟨c, cs, rfl⟩ := List.exists_cons_of_ne_nil hne
    exact ⟨c, List.mem_cons_self, hds c List.mem_cons_self⟩
  constructor
  · rintro ⟨whole, fraction, h⟩
    cases h with
    | whole ne_nil digits =>
        rw [hpoints _ digits]
        exact ⟨Nat.zero_le 1, hsome _ ne_nil digits⟩
    | pointed ne_nil hwhole hfraction =>
        rw [List.count_append, List.count_cons_self, hpoints _ hwhole, hpoints _ hfraction]
        refine ⟨Nat.le_refl 1, ?_⟩
        rcases ne_nil with hne | hne
        · obtain ⟨c, hc, hdigit⟩ := hsome _ hne hwhole
          exact ⟨c, List.mem_append_left _ hc, hdigit⟩
        · obtain ⟨c, hc, hdigit⟩ := hsome _ hne hfraction
          exact ⟨c, List.mem_append_right _ (List.mem_cons_of_mem _ hc), hdigit⟩
  · rintro ⟨hcount, c, hc, hdigit⟩
    by_cases hpoint : '.' ∈ run
    · obtain ⟨ws, fs, rfl⟩ := List.append_of_mem hpoint
      rw [List.count_append, List.count_cons_self] at hcount
      have hws : ∀ c ∈ ws, c.isDigit = true :=
        hdigits ws (by omega) fun c hc => chars c (List.mem_append_left _ hc)
      have hfs : ∀ c ∈ fs, c.isDigit = true :=
        hdigits fs (by omega) fun c hc =>
          chars c (List.mem_append_right _ (List.mem_cons_of_mem _ hc))
      refine ⟨ws, fs, .pointed ?_ hws hfs⟩
      rcases List.mem_append.mp hc with hc | hc
      · exact .inl (List.ne_nil_of_mem hc)
      · rcases List.mem_cons.mp hc with rfl | hc
        · cases hdigit
        · exact .inr (List.ne_nil_of_mem hc)
    · exact ⟨run, [], .whole (List.ne_nil_of_mem hc)
        (hdigits run (List.count_eq_zero.mpr hpoint) chars)⟩

/-- A run with an exponent is a number if the run is a mantissa. -/
theorem exists_lexeme_iff {run exponent : List Char} {e : ℤ}
    (chars : ∀ c ∈ run, inNumber c = true) (hexponent : IsExponent exponent e) (hne : run ≠ []) :
    (∃ t, Lexeme (run ++ exponent) t) ↔ run.count '.' ≤ 1 ∧ ∃ c ∈ run, c.isDigit = true := by
  rw [← exists_isMantissa_iff chars]
  constructor
  · rintro ⟨t, h⟩
    obtain ⟨c, cs, rfl⟩ := List.exists_cons_of_ne_nil hne
    obtain ⟨mantissa, whole, fraction, exponent', e', htext, hmantissa, hexponent', -⟩ :=
      number_of_lexeme (chars c List.mem_cons_self) h
    have hmantissa' : ∀ c ∈ mantissa, inNumber c = true := fun c hc =>
      inNumber_iff.mpr (isDigit_or_point_of_isMantissa hmantissa c hc)
    have hrun : c :: cs = mantissa := by
      rw [← takeWhile_append_rest chars (inNumber_head_of_isExponent hexponent),
        ← takeWhile_append_rest hmantissa' (inNumber_head_of_isExponent hexponent'), ← htext]
      rfl
    exact ⟨whole, fraction, hrun ▸ hmantissa⟩
  · rintro ⟨whole, fraction, h⟩
    exact ⟨_, .number h hexponent⟩

end Reckoner.Token
