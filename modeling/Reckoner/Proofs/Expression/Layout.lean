/-
The layout of a text.

The scanner succeeds on the texts that are lexemes with blanks around them, each lexeme the
longest piece where it starts.  Such a layout is the only one of its text, and the blanks in
it carry nothing: the lexemes stay what they are when blanks are put in between or at the
ends, because no lexeme can grow over a blank.

What is typed is trimmed and rid of glyphs before it is scanned.  By what is said of blanks
the trimming shows nowhere, and a glyph is no more than another way to write its operator.
-/
import Reckoner.Expression.Calculation
import Reckoner.Proofs.Expression.Lexeme
import Reckoner.Proofs.Outcome

namespace Reckoner.Token

open Outcome

/-! ### Layouts -/

/-- Nothing but blanks. -/
def Blank (cs : List Char) : Prop := ∀ c ∈ cs, Text.isBlank c = true

/-- A lexeme in its text, with the blanks before it and the token that it is. -/
@[ext]
structure Piece where
  gap : List Char
  lexeme : List Char
  token : Token

/-- The text of pieces, and of what follows the last one. -/
def textOf : List Piece → List Char → List Char
  | [], last => last
  | p :: ps, last => p.gap ++ (p.lexeme ++ textOf ps last)

/-- Lexemes with blanks around them, each the longest piece where it starts. -/
inductive Layout : List Piece → List Char → Prop
  | done {last : List Char} (blank : Blank last) : Layout [] last
  | piece {p : Piece} {ps : List Piece} {last : List Char} (gap : Blank p.gap)
      (lexeme : Lexeme p.lexeme p.token) (longest : Longest p.lexeme (textOf ps last))
      (rest : Layout ps last) : Layout (p :: ps) last

variable {p : Piece} {ps ps' : List Piece} {c : Char} {cs gap last last' rest rest' : List Char}
  {t : Token} {ts : List Token} {length steps : ℕ}

theorem blank_nil : Blank [] := by
  intro c hc
  cases hc

theorem blank_singleton (hc : Text.isBlank c = true) : Blank [c] := by
  intro d hd
  rwa [List.mem_singleton.mp hd]

theorem Blank.append {cs cs' : List Char} (h : Blank cs) (h' : Blank cs') : Blank (cs ++ cs') := by
  intro c hc
  rcases List.mem_append.mp hc with hc | hc
  · exact h c hc
  · exact h' c hc

theorem textOf_append (ps : List Piece) (last after : List Char) :
    textOf ps (last ++ after) = textOf ps last ++ after := by
  induction ps with
  | nil => rfl
  | cons p ps ih => simp only [textOf, ih, List.append_assoc]

theorem textOf_eq (ps : List Piece) (last : List Char) : textOf ps last = textOf ps [] ++ last := by
  rw [← textOf_append, List.nil_append]

/-- A lexeme starts with a character that is not blank. -/
theorem Longest.exists_cons {piece : List Char} (h : Longest piece rest) :
    ∃ c cs, piece = c :: cs ∧ Text.isBlank c = false := by
  obtain ⟨c, cs, rfl⟩ := List.exists_cons_of_ne_nil h.shape.ne_nil
  exact ⟨c, cs, rfl, h.shape.not_blank c List.mem_cons_self⟩

/-- Blanks before a text go to its first piece. -/
theorem Layout.blank_append (hgap : Blank gap) (h : Layout ps last) :
    ∃ ps' last', Layout ps' last' ∧ textOf ps' last' = gap ++ textOf ps last ∧
      ps'.map Piece.token = ps.map Piece.token := by
  cases h with
  | done blank => exact ⟨[], gap ++ last, .done (hgap.append blank), rfl, rfl⟩
  | @piece p ps last hp lexeme longest rest =>
      refine ⟨⟨gap ++ p.gap, p.lexeme, p.token⟩ :: ps, last, ?_, ?_, rfl⟩
      · exact .piece (hgap.append hp) lexeme longest rest
      · exact List.append_assoc gap p.gap _

/-! ### Scanning -/

/-- The scanner passes over blanks. -/
theorem scan_blank (hgap : Blank gap) (hsteps : gap.length ≤ steps) :
    scan length steps (gap ++ cs) = scan length (steps - gap.length) cs := by
  induction gap generalizing steps with
  | nil => rfl
  | cons c gap ih =>
      obtain ⟨steps, rfl⟩ : ∃ n, steps = n + 1 :=
        Nat.exists_eq_add_one.mpr (Nat.lt_of_lt_of_le (Nat.succ_pos _) hsteps)
      have hc : Text.isBlank c = true := hgap c List.mem_cons_self
      rw [List.cons_append, scan, if_pos hc, List.length_cons, Nat.add_sub_add_right]
      exact ih (fun d hd => hgap d (List.mem_cons_of_mem c hd)) (Nat.le_of_succ_le_succ hsteps)

theorem scan_cons_eq_ok (hc : Text.isBlank c = false) :
    scan length (steps + 1) (c :: cs) = .ok ts ↔
      ∃ t rest ts', Starts (c :: cs) t rest ∧ scan length steps rest = .ok ts' ∧ ts = t :: ts' := by
  rw [scan, if_neg (by simp [hc]), bind_eq_ok]
  constructor
  · rintro ⟨⟨t, rest⟩, hnext, h⟩
    obtain ⟨ts', hscan, h⟩ := bind_eq_ok.mp h
    cases h
    exact ⟨t, rest, ts', next_eq_ok.mp hnext, hscan, rfl⟩
  · rintro ⟨t, rest, ts', hstarts, hscan, rfl⟩
    exact ⟨(t, rest), next_eq_ok.mpr hstarts, bind_eq_ok.mpr ⟨ts', hscan, rfl⟩⟩

/-- A text with a layout is scanned into the tokens of its pieces. -/
theorem Layout.scan_eq_ok (h : Layout ps last) (hsteps : (textOf ps last).length ≤ steps) :
    scan length steps (textOf ps last) = .ok (ps.map Piece.token) := by
  induction h generalizing steps with
  | @done last blank =>
      have hscan : scan length steps (last ++ []) = scan length (steps - last.length) [] :=
        scan_blank blank hsteps
      rw [List.append_nil] at hscan
      rw [textOf, hscan, scan]
      rfl
  | @piece p ps last hgap lexeme longest rest ih =>
      obtain ⟨c, cs, hpiece, hc⟩ := longest.exists_cons
      rw [textOf, List.length_append, List.length_append, hpiece, List.length_cons] at hsteps
      obtain ⟨n, hn⟩ : ∃ n, steps - p.gap.length = n + 1 :=
        Nat.exists_eq_add_one.mpr (by omega)
      rw [textOf, scan_blank hgap (by omega), hn, hpiece, List.cons_append, scan_cons_eq_ok hc]
      refine ⟨p.token, textOf ps last, ps.map Piece.token, ?_, ih (by omega), rfl⟩
      exact ⟨p.lexeme, by rw [hpiece]; rfl, longest, lexeme⟩

/-- A text that is scanned has a layout, with all of its characters in it. -/
theorem exists_layout (hsteps : cs.length ≤ steps) (h : scan length steps cs = .ok ts) :
    ∃ ps last, cs = textOf ps last ∧ Layout ps last ∧ ts = ps.map Piece.token := by
  induction steps generalizing cs ts with
  | zero =>
      obtain rfl := List.length_eq_zero_iff.mp (Nat.le_zero.mp hsteps)
      cases h
      exact ⟨[], [], rfl, .done blank_nil, rfl⟩
  | succ steps ih =>
      cases cs with
      | nil =>
          cases h
          exact ⟨[], [], rfl, .done blank_nil, rfl⟩
      | cons c cs =>
          rw [List.length_cons] at hsteps
          cases hc : Text.isBlank c with
          | true =>
              rw [scan, if_pos hc] at h
              obtain ⟨ps, last, rfl, hlayout, rfl⟩ := ih (by omega) h
              obtain ⟨ps', last', hlayout', htext, htokens⟩ :=
                hlayout.blank_append (blank_singleton hc)
              exact ⟨ps', last', htext.symm, hlayout', htokens.symm⟩
          | false =>
              obtain ⟨t, rest, ts', ⟨piece, htext, hlongest, hlexeme⟩, hscan, rfl⟩ :=
                (scan_cons_eq_ok hc).mp h
              have hlength := congrArg List.length htext
              rw [List.length_cons, List.length_append] at hlength
              have hpiece := List.length_pos_of_ne_nil hlongest.shape.ne_nil
              obtain ⟨ps, last, rfl, hlayout, rfl⟩ := ih (by omega) hscan
              exact ⟨⟨[], piece, t⟩ :: ps, last, htext, .piece blank_nil hlexeme hlongest hlayout,
                rfl⟩

theorem ofText_eq_ok {text : String} : ofText text = .ok ts ↔
    ∃ ps last, text.toList = textOf ps last ∧ Layout ps last ∧ ts = ps.map Piece.token := by
  constructor
  · intro h
    exact exists_layout (Nat.le_refl _) h
  · rintro ⟨ps, last, htext, hlayout, rfl⟩
    rw [ofText, htext]
    exact hlayout.scan_eq_ok (Nat.le_refl _)

/-! ### One layout -/

/-- A piece is one token only. -/
theorem Lexeme.unique {piece : List Char} {t' : Token} (h : Lexeme piece t)
    (h' : Lexeme piece t') (hlongest : Longest piece rest) : t = t' := by
  obtain ⟨c, cs, rfl, -⟩ := hlongest.exists_cons
  have hnext : next 0 c (cs ++ rest) = .ok (t, rest) := next_eq_ok.mpr ⟨_, rfl, hlongest, h⟩
  have hnext' : next 0 c (cs ++ rest) = .ok (t', rest) := next_eq_ok.mpr ⟨_, rfl, hlongest, h'⟩
  rw [hnext] at hnext'
  cases hnext'
  rfl

/-- The blanks before a lexeme end where it starts. -/
theorem gap_unique {piece piece' gap' : List Char} (hgap : Blank gap) (hgap' : Blank gap')
    (hlongest : Longest piece rest) (hlongest' : Longest piece' rest')
    (heq : gap ++ (piece ++ rest) = gap' ++ (piece' ++ rest')) :
    gap = gap' ∧ piece ++ rest = piece' ++ rest' := by
  have hhead : ∀ {piece rest : List Char}, Longest piece rest →
      ∀ c, (piece ++ rest).head? = some c → Text.isBlank c = false := by
    intro piece rest h c hc
    obtain ⟨d, ds, rfl, hd⟩ := h.exists_cons
    rwa [← Option.some.inj hc]
  have hgaps : gap = gap' := by
    rw [← takeWhile_append_rest hgap (hhead hlongest), heq,
      takeWhile_append_rest hgap' (hhead hlongest')]
  subst hgaps
  exact ⟨rfl, List.append_cancel_left heq⟩

/-- A text with a piece in it is not blank. -/
theorem not_blank_textOf (h : Layout (p :: ps) last) : ¬ Blank (textOf (p :: ps) last) := by
  intro hblank
  cases h with
  | piece gap lexeme longest rest =>
      obtain ⟨c, cs, hpiece, hc⟩ := longest.exists_cons
      have hmem : c ∈ textOf (p :: ps) last := by simp [textOf, hpiece]
      rw [hblank c hmem] at hc
      cases hc

/-- A text has one layout at most. -/
theorem Layout.unique (h : Layout ps last) (h' : Layout ps' last')
    (heq : textOf ps last = textOf ps' last') : ps = ps' ∧ last = last' := by
  induction h generalizing ps' last' with
  | done blank =>
      cases ps' with
      | nil => exact ⟨rfl, heq⟩
      | cons p' ps' => exact absurd (heq ▸ blank) (not_blank_textOf h')
  | @piece p ps last hgap hlexeme hlongest hrest ih =>
      cases h' with
      | done blank =>
          exact absurd (heq.symm ▸ blank) (not_blank_textOf (.piece hgap hlexeme hlongest hrest))
      | @piece p' ps' last' hgap' hlexeme' hlongest' hrest' =>
          obtain ⟨hgaps, htexts⟩ := gap_unique hgap hgap' hlongest hlongest' heq
          obtain ⟨hlexemes, hrests⟩ := hlongest.unique hlongest' htexts
          obtain ⟨rfl, rfl⟩ := ih hrest' hrests
          have htokens : p.token = p'.token :=
            hlexeme.unique (hlexemes ▸ hlexeme') hlongest
          rw [Piece.ext hgaps hlexemes htokens]
          exact ⟨rfl, rfl⟩

/-! ### Blanks between lexemes -/

/-- The same lexeme with other blanks before it, and with some where there were some. -/
structure Respaced (p q : Piece) : Prop where
  lexeme_eq : q.lexeme = p.lexeme
  token_eq : q.token = p.token
  blank : Blank q.gap
  apart : q.gap = [] → p.gap = []

theorem eq_nil_of_starts {s : List Char} (hs : ∀ c ∈ s, Text.isBlank c = false)
    (hstarts : s <+: cs) (hcs : ∀ c, cs.head? = some c → Text.isBlank c = true) : s = [] := by
  cases s with
  | nil => rfl
  | cons c s =>
      obtain ⟨r, rfl⟩ := hstarts
      have hc := hcs c rfl
      rw [hs c List.mem_cons_self] at hc
      cases hc

/-- What follows up to the next blank was there before. -/
theorem prefix_of_respaced (hps : List.Forall₂ Respaced ps ps') (hlast : Blank last')
    {s : List Char} (hs : ∀ c ∈ s, Text.isBlank c = false) (hstarts : s <+: textOf ps' last') :
    s <+: textOf ps last := by
  induction hps generalizing s with
  | nil =>
      rw [eq_nil_of_starts hs hstarts fun c hc => hlast c (List.mem_of_mem_head? hc)]
      exact List.nil_prefix
  | @cons p q ps qs hpq _ ih =>
      cases hgap : q.gap with
      | cons b gap =>
          have hb : ∀ c, (textOf (q :: qs) last').head? = some c → Text.isBlank c = true := by
            intro c hc
            rw [textOf, hgap] at hc
            exact hpq.blank c (by rw [hgap, ← Option.some.inj hc]; exact List.mem_cons_self)
          rw [eq_nil_of_starts hs hstarts hb]
          exact List.nil_prefix
      | nil =>
          rw [textOf, hgap, List.nil_append, hpq.lexeme_eq] at hstarts
          rw [textOf, hpq.apart hgap, List.nil_append]
          obtain ⟨r, hr⟩ := hstarts
          rcases List.append_eq_append_iff.mp hr with ⟨more, hlexeme, -⟩ | ⟨more, rfl, hrest⟩
          · rw [hlexeme, List.append_assoc]
            exact List.prefix_append s _
          · refine (List.prefix_append_right_inj p.lexeme).mpr (ih ?_ ⟨r, hrest.symm⟩)
            exact fun c hc => hs c (List.mem_append_right _ hc)

/-- A piece stays the longest one if nothing new follows it up to the next blank. -/
theorem Longest.of_prefixes {piece : List Char} (h : Longest piece rest)
    (hrest : ∀ s, (∀ c ∈ s, Text.isBlank c = false) → s <+: rest' → s <+: rest) :
    Longest piece rest' := by
  refine ⟨h.shape, ?_⟩
  intro piece' r' heq hshape
  rcases List.append_eq_append_iff.mp heq with ⟨more, hpiece, -⟩ | ⟨more, rfl, hrest'⟩
  · rw [hpiece, List.length_append]
    exact Nat.le_add_right _ _
  · have hmore : ∀ c ∈ more, Text.isBlank c = false := fun c hc =>
      hshape.not_blank c (List.mem_append_right _ hc)
    obtain ⟨r, hr⟩ := hrest more hmore ⟨r', hrest'.symm⟩
    exact h.longest _ r (by rw [List.append_assoc, hr]) hshape

/-- Blanks put between the pieces or at the ends make another layout of the same pieces. -/
theorem Layout.respaced (h : Layout ps last) (hps : List.Forall₂ Respaced ps ps')
    (hlast : Blank last') : Layout ps' last' := by
  induction hps with
  | nil => exact .done hlast
  | @cons p q ps qs hpq hps ih =>
      cases h with
      | piece gap lexeme longest rest =>
          refine .piece hpq.blank ?_ ?_ (ih rest)
          · rw [hpq.lexeme_eq, hpq.token_eq]
            exact lexeme
          · rw [hpq.lexeme_eq]
            exact longest.of_prefixes fun s hs => prefix_of_respaced hps hlast hs

theorem map_token_of_respaced (hps : List.Forall₂ Respaced ps ps') :
    ps'.map Piece.token = ps.map Piece.token := by
  induction hps with
  | nil => rfl
  | cons hpq _ ih => rw [List.map_cons, List.map_cons, ih, hpq.token_eq]

/-! ### Trimming -/

theorem Layout.blank_last (h : Layout ps last) : Blank last := by
  induction h with
  | done blank => exact blank
  | piece _ _ _ _ ih => exact ih

/-- What follows the last piece may be any blanks. -/
theorem Layout.with_last (h : Layout ps last) (hlast : Blank last') : Layout ps last' := by
  have hself : List.Forall₂ Respaced ps ps := by
    clear hlast
    induction h with
    | done _ => exact .nil
    | piece gap _ _ _ ih => exact .cons ⟨rfl, rfl, gap, id⟩ ih
  exact h.respaced hself hlast

/-- The last piece does not end in a blank. -/
theorem Layout.not_blank_of_getLast? (h : Layout ps last) :
    ∀ c, (textOf ps []).getLast? = some c → Text.isBlank c = false := by
  induction h with
  | done _ =>
      intro c hc
      cases hc
  | @piece p ps last gap lexeme longest rest ih =>
      intro c hc
      have hlast : p.lexeme.getLast? = some (p.lexeme.getLast longest.shape.ne_nil) :=
        List.getLast?_eq_some_getLast longest.shape.ne_nil
      rw [textOf, List.getLast?_append, List.getLast?_append, hlast] at hc
      cases htail : (textOf ps []).getLast? with
      | none =>
          rw [htail] at hc
          cases hc
          exact longest.shape.not_blank _ (List.getLast_mem _)
      | some d =>
          rw [htail] at hc
          exact ih c (htail.trans hc)

/-- Trimming takes the blanks before the first piece and those after the last one. -/
theorem Layout.trimChars_textOf (h : Layout (p :: ps) last) :
    Layout (⟨[], p.lexeme, p.token⟩ :: ps) [] ∧
      Text.trimChars (textOf (p :: ps) last) = textOf (⟨[], p.lexeme, p.token⟩ :: ps) [] := by
  have htext : textOf (p :: ps) last = p.gap ++ (p.lexeme ++ textOf ps []) ++ last := by
    rw [textOf_eq, textOf]
  have hlast := h.blank_last
  have hends := h.with_last blank_nil
  cases hends with
  | piece gap lexeme longest rest =>
      have htrimmed : Layout (⟨[], p.lexeme, p.token⟩ :: ps) [] :=
        .piece blank_nil lexeme longest rest
      refine ⟨htrimmed, ?_⟩
      rw [htext]
      refine Text.trimChars_append gap hlast ?_ htrimmed.not_blank_of_getLast?
      obtain ⟨c, cs, hpiece, hc⟩ := longest.exists_cons
      rw [hpiece]
      rintro d ⟨⟩
      exact hc

/-- The scanner does not see whether a text is trimmed. -/
theorem ofText_trim {text : String} : ofText (Text.trim text) = .ok ts ↔ ofText text = .ok ts := by
  rw [ofText_eq_ok, ofText_eq_ok, Text.trim, String.toList_ofList]
  constructor
  · rintro ⟨ps, last, htext, hlayout, rfl⟩
    obtain ⟨before, after, hsplit, hbefore, hafter⟩ := Text.exists_blanks text.toList
    have hends := hlayout.with_last (hlayout.blank_last.append hafter)
    obtain ⟨ps', last', hlayout', htext', htokens⟩ := hends.blank_append hbefore
    refine ⟨ps', last', ?_, hlayout', htokens.symm⟩
    rw [hsplit, htext', htext, textOf_append, List.append_assoc]
  · rintro ⟨ps, last, htext, hlayout, rfl⟩
    rw [htext]
    cases ps with
    | cons p ps =>
        obtain ⟨htrimmed, htrim⟩ := hlayout.trimChars_textOf
        exact ⟨_, [], htrim, htrimmed, rfl⟩
    | nil =>
        have htrim : Text.trimChars (last ++ [] ++ []) = [] :=
          Text.trimChars_append hlayout.blank_last blank_nil (by simp) (by simp)
        rw [List.append_nil, List.append_nil] at htrim
        exact ⟨[], [], htrim, .done blank_nil, rfl⟩

theorem parse_trim (text : String) :
    (Expression.parse (Text.trim text)).toOption = (Expression.parse text).toOption := by
  unfold Expression.parse
  cases htext : ofText text with
  | ok tokens => rw [ofText_trim.mpr htext]
  | error e =>
      cases htrim : ofText (Text.trim text) with
      | error e' => rfl
      | ok tokens =>
          rw [ofText_trim.mp htrim] at htext
          cases htext

end Reckoner.Token

namespace Reckoner.Calculation

/-! ### Glyphs -/

/-- What may be typed for a character: itself, or the glyph for an operator. -/
inductive Typed : Char → Char → Prop
  | same (c : Char) : Typed c c
  | times : Typed '*' '×'
  | divided : Typed '/' '÷'
  | minus : Typed '-' '−'

theorem isBlank_operatorOfGlyph (c : Char) : Text.isBlank (operatorOfGlyph c) = Text.isBlank c := by
  unfold operatorOfGlyph
  split
  · rename_i h
    rw [h]
    decide
  · split
    · rename_i h
      rw [h]
      decide
    · split
      · rename_i h
        rw [h]
        decide
      · rfl

/-- It does not matter whether glyphs are replaced before trimming or after it. -/
theorem normalize_eq (text : String) :
    normalize text = Text.trim (String.ofList (text.toList.map operatorOfGlyph)) := by
  rw [normalize, Text.trim, String.toList_ofList, Text.trimChars_map isBlank_operatorOfGlyph]

theorem operatorOfGlyph_of_typed {c c' : Char} (h : Typed c c') :
    operatorOfGlyph c' = operatorOfGlyph c := by
  cases h with
  | same c => rfl
  | times => decide
  | divided => decide
  | minus => decide

theorem normalize_of_typed {text text' : String}
    (h : List.Forall₂ Typed text.toList text'.toList) : normalize text' = normalize text := by
  have hmap : text'.toList.map operatorOfGlyph = text.toList.map operatorOfGlyph := by
    generalize text.toList = cs at h
    generalize text'.toList = cs' at h
    induction h with
    | nil => rfl
    | cons hc _ ih => rw [List.map_cons, List.map_cons, operatorOfGlyph_of_typed hc, ih]
  rw [normalize_eq, normalize_eq, hmap]

theorem normalize_of_no_glyphs {text : String}
    (h : ∀ c ∈ text.toList, c ≠ '×' ∧ c ≠ '÷' ∧ c ≠ '−') : normalize text = Text.trim text := by
  have hmap : text.toList.map operatorOfGlyph = text.toList := by
    have hid : ∀ c ∈ text.toList, operatorOfGlyph c = id c := by
      intro c hc
      obtain ⟨htimes, hdivided, hminus⟩ := h c hc
      rw [operatorOfGlyph, if_neg htimes, if_neg hdivided, if_neg hminus, id]
    rw [List.map_congr_left hid, List.map_id]
  rw [normalize_eq, hmap, String.ofList_toList]

end Reckoner.Calculation

namespace Reckoner.Token

/-! ### The lexemes of a text -/

/--
**What the scanner accepts, and what it makes of it.**  It accepts the texts that have a
layout: lexemes with blanks around them, each the longest piece where it starts, and all
characters of the text in one of them.  A text has one layout, whose tokens are the result.
A run of digits and points, with an exponent or without, is a number if it has a digit, and
one point at most.  Blanks put in between lexemes or at the ends change nothing, so that
trimming is not seen by the parser; and a glyph in place of its operator does not change what
is calculated.
-/
theorem ofText_longest_match (text : String) :
    (∀ ts, ofText text = .ok ts ↔
      ∃ ps last, text.toList = textOf ps last ∧ Layout ps last ∧ ts = ps.map Piece.token) ∧
    (∀ ps last ps' last', Layout ps last → Layout ps' last' → text.toList = textOf ps last →
      text.toList = textOf ps' last' → ps = ps' ∧ last = last') ∧
    (∀ run exponent e, run ≠ [] → (∀ c ∈ run, inNumber c = true) →
      DecimalNumeral.IsExponent exponent e →
      ((∃ t, Lexeme (run ++ exponent) t) ↔
        run.count '.' ≤ 1 ∧ ∃ c ∈ run, c.isDigit = true)) ∧
    (∀ ps last ps' last', Layout ps last → text.toList = textOf ps last →
      List.Forall₂ Respaced ps ps' → Blank last' →
      ofText (String.ofList (textOf ps' last')) = ofText text) ∧
    ((∀ c ∈ text.toList, c ≠ '×' ∧ c ≠ '÷' ∧ c ≠ '−') →
      (Expression.parse (Calculation.normalize text)).toOption = (Expression.parse text).toOption) ∧
    (∀ text', List.Forall₂ Calculation.Typed text.toList text'.toList →
      Calculation.evaluate text' = Calculation.evaluate text) := by
  refine ⟨fun ts => ofText_eq_ok, ?_, ?_, ?_, ?_, ?_⟩
  · intro ps last ps' last' h h' htext htext'
    exact h.unique h' (htext.symm.trans htext')
  · intro run exponent e hne chars hexponent
    exact exists_lexeme_iff chars hexponent hne
  · intro ps last ps' last' h htext hps hlast
    have hrespaced := ofText_eq_ok.mpr
      ⟨ps', last', String.toList_ofList, h.respaced hps hlast, (map_token_of_respaced hps).symm⟩
    rw [hrespaced, ofText_eq_ok.mpr ⟨ps, last, htext, h, rfl⟩]
  · intro h
    rw [Calculation.normalize_of_no_glyphs h, parse_trim]
  · intro text' h
    rw [Calculation.evaluate, Calculation.evaluate, Calculation.normalize_of_typed h]

/-- A product in one piece and widely spaced, and typed with its glyph. -/
theorem ofText_longest_match_product :
    (∀ ps last, Layout ps last → "2*x".toList = textOf ps last →
      last = [] ∧ ps = [⟨[], ['2'], .number (DecimalNumeral.toDouble ⟨false, ['2'], [], 0⟩)⟩,
        ⟨[], ['*'], .star⟩, ⟨[], ['x'], .word "x"⟩]) ∧
    (∃ t, Lexeme ['2', '.', 'e', '1'] t) ∧
    (¬ ∃ t, Lexeme ['2', '.', '.', 'e', '1'] t) ∧
    ofText " 2 * x " = ofText "2*x" ∧
    (Expression.parse (Calculation.normalize "2*x")).toOption = (Expression.parse "2*x").toOption ∧
    Calculation.evaluate "2×x" = Calculation.evaluate "2*x" := by
  obtain ⟨-, hunique, hnumber, hspaced, hparse, hglyph⟩ := ofText_longest_match "2*x"
  have htext : "2*x".toList = ['2', '*', 'x'] := by decide
  have htwo : DecimalNumeral.IsMantissa ['2'] ['2'] [] := .whole (by simp) (by simp)
  have hexponent : DecimalNumeral.IsExponent ['e', '1'] _ :=
    .power (.inl rfl) .nothing (List.cons_ne_nil '1' []) (by simp)
  have hlayout : Layout [⟨[], ['2'], .number (DecimalNumeral.toDouble ⟨false, ['2'], [], 0⟩)⟩,
      ⟨[], ['*'], .star⟩, ⟨[], ['x'], .word "x"⟩] [] := by
    refine .piece blank_nil (.number htwo .nothing) ?_ (.piece blank_nil (.symbol .star) ?_
      (.piece blank_nil (.word (.mk rfl (by simp))) ?_ (.done blank_nil)))
    · have hdigit : inNumber '2' = true := by decide
      exact (longest_spanNumber hdigit ['*', 'x']).2
    · exact longest_symbol .star (by simp [textOf])
    · exact longest_word rfl []
  have hspace : Blank [' '] := blank_singleton rfl
  have hwidely : List.Forall₂ Respaced
      [⟨[], ['2'], .number (DecimalNumeral.toDouble ⟨false, ['2'], [], 0⟩)⟩, ⟨[], ['*'], .star⟩,
        ⟨[], ['x'], .word "x"⟩]
      [⟨[' '], ['2'], .number (DecimalNumeral.toDouble ⟨false, ['2'], [], 0⟩)⟩,
        ⟨[' '], ['*'], .star⟩, ⟨[' '], ['x'], .word "x"⟩] :=
    .cons ⟨rfl, rfl, hspace, fun _ => rfl⟩ (.cons ⟨rfl, rfl, hspace, fun _ => rfl⟩
      (.cons ⟨rfl, rfl, hspace, fun _ => rfl⟩ .nil))
  refine ⟨?_, ?_, ?_, ?_, ?_, ?_⟩
  · intro ps last h heq
    obtain ⟨rfl, rfl⟩ := hunique _ _ _ _ hlayout h htext heq
    exact ⟨rfl, rfl⟩
  · exact (hnumber ['2', '.'] _ _ (by simp) (by simp [inNumber]) hexponent).mpr (by simp)
  · exact fun h => absurd
      ((hnumber ['2', '.', '.'] _ _ (by simp) (by simp [inNumber]) hexponent).mp h) (by simp)
  · refine Eq.trans (congrArg ofText ?_) (hspaced _ _ _ [' '] hlayout htext hwidely hspace)
    rfl
  · exact hparse (by simp)
  · refine hglyph "2×x" ?_
    exact .cons (.same '2') (.cons .times (.cons (.same 'x') .nil))

end Reckoner.Token
