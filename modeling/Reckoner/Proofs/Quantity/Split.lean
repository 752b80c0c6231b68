/-
Where a quantity is cut.

A numeral is recognised in digits of any script, and each of its parts ends where a
character comes with which it cannot go on.  So before a unit that starts with no such
character there is one place to cut, with or without blanks there.  An exponent is the one
part of a numeral that may be given up, since its letter could start a unit.  A number at
the end is cut off at the last blank, as no numeral holds one.  Whichever way a text is
cut, its pieces and the blanks between them make up all of it.
-/
import Reckoner.Quantity
import Reckoner.Proofs.Decimal.Grammar
import Reckoner.Proofs.Text.Blank

namespace Reckoner.Quantity

open DecimalNumeral Text

/-! ### Numerals in digits of any script -/

/-- The text of a mantissa: digits with at most one point among them. -/
inductive IsMantissaText : List Char → Prop
  | whole {ds : List Char} (ne_nil : ds ≠ []) (digits : ∀ c ∈ ds, isDecimalDigit c = true) :
      IsMantissaText ds
  | pointed {ws fs : List Char} (ne_nil : ws ≠ [] ∨ fs ≠ [])
      (whole : ∀ c ∈ ws, isDecimalDigit c = true)
      (fraction : ∀ c ∈ fs, isDecimalDigit c = true) : IsMantissaText (ws ++ '.' :: fs)

/-- The text of an exponent, which has a letter and digits. -/
inductive IsExponentText : List Char → Prop
  | power {letter : Char} {sign ds : List Char} {negative : Bool}
      (letter_eq : letter = 'e' ∨ letter = 'E') (isSign : IsSign sign negative) (ne_nil : ds ≠ [])
      (digits : ∀ c ∈ ds, isDecimalDigit c = true) : IsExponentText (letter :: (sign ++ ds))

variable {cs rest sign mantissa exponent number blanks unit : List Char} {negative : Bool}

theorem isMantissaText_of_isMantissa {whole fraction : List Char}
    (h : IsMantissa mantissa whole fraction) : IsMantissaText mantissa := by
  cases h with
  | whole ne_nil digits =>
      exact .whole ne_nil fun c hc => isDecimalDigit_of_isDigit (digits c hc)
  | pointed ne_nil hwhole hfraction =>
      exact .pointed ne_nil (fun c hc => isDecimalDigit_of_isDigit (hwhole c hc))
        fun c hc => isDecimalDigit_of_isDigit (hfraction c hc)

theorem isExponentText_of_isExponent {e : ℤ} (h : IsExponent exponent e) :
    exponent = [] ∨ IsExponentText exponent := by
  cases h with
  | nothing => exact .inl rfl
  | power letter_eq isSign ne_nil digits =>
      exact .inr (.power letter_eq isSign ne_nil fun c hc => isDecimalDigit_of_isDigit (digits c hc))

theorem IsMantissaText.ne_nil (h : IsMantissaText mantissa) : mantissa ≠ [] := by
  cases h with
  | whole ne_nil _ => exact ne_nil
  | pointed _ _ _ => simp

theorem IsMantissaText.isDecimalDigit_or_point (h : IsMantissaText mantissa) :
    ∀ c ∈ mantissa, isDecimalDigit c = true ∨ c = '.' := by
  intro c hc
  cases h with
  | whole _ digits => exact .inl (digits c hc)
  | pointed _ hwhole hfraction =>
      rcases List.mem_append.mp hc with hc | hc
      · exact .inl (hwhole c hc)
      · rcases List.mem_cons.mp hc with rfl | hc
        · exact .inr rfl
        · exact .inl (hfraction c hc)

/-- No digit is a sign. -/
theorem ne_sign_of_isDecimalDigit {c : Char} (h : isDecimalDigit c = true) : c ≠ '+' ∧ c ≠ '-' := by
  constructor
  all_goals
    rintro rfl
    exact absurd h (by decide)

theorem IsMantissaText.ne_sign (h : IsMantissaText mantissa) :
    ∀ c, (mantissa ++ rest).head? = some c → c ≠ '+' ∧ c ≠ '-' := by
  intro c hc
  rw [List.head?_append_of_ne_nil _ h.ne_nil] at hc
  rcases h.isDecimalDigit_or_point c (List.mem_of_mem_head? hc) with hdigit | rfl
  · exact ne_sign_of_isDecimalDigit hdigit
  · decide

/-- A unit could start with the letter of an exponent. -/
theorem IsExponentText.exists_cons (h : IsExponentText exponent) :
    ∃ c rest, exponent = c :: rest ∧ (c = 'e' ∨ c = 'E') := by
  cases h with
  | power letter_eq _ _ _ => exact ⟨_, _, rfl, letter_eq⟩

theorem not_blank_of_isSign (h : IsSign sign negative) : ∀ c ∈ sign, isBlank c = false := by
  intro c hc
  have hmem := mem_of_isSign h c hc
  simp only [List.mem_cons, List.not_mem_nil, or_false] at hmem
  rcases hmem with rfl | rfl <;> decide

theorem IsExponentText.not_blank (h : IsExponentText exponent) :
    ∀ c ∈ exponent, isBlank c = false := by
  intro c hc
  cases h with
  | power letter_eq isSign _ digits =>
      rcases List.mem_cons.mp hc with rfl | hc
      · rcases letter_eq with rfl | rfl <;> decide
      · rcases List.mem_append.mp hc with hc | hc
        · exact not_blank_of_isSign isSign c hc
        · exact isBlank_of_isDecimalDigit (digits c hc)

/-! ### Cutting off the parts of a numeral -/

theorem spanDigits_append (hcs : ∀ c ∈ cs, isDecimalDigit c = true)
    (hrest : ∀ c, rest.head? = some c → isDecimalDigit c = false) :
    spanDigits (cs ++ rest) = (cs, rest) := by
  rw [spanDigits, List.span_eq_takeWhile_dropWhile, takeWhile_append_rest hcs hrest,
    dropWhile_append_rest hcs hrest]

theorem spanMantissa?_append (h : IsMantissaText mantissa)
    (hrest : ∀ c, rest.head? = some c → isDecimalDigit c = false ∧ c ≠ '.') :
    spanMantissa? (mantissa ++ rest) = some (mantissa, rest) := by
  have hdigit : ∀ c, rest.head? = some c → isDecimalDigit c = false := fun c hc => (hrest c hc).1
  unfold spanMantissa?
  cases h with
  | whole ne_nil digits =>
      rw [spanDigits_append digits hdigit]
      obtain ⟨d, ds, rfl⟩ := List.exists_cons_of_ne_nil ne_nil
      cases rest with
      | nil => rfl
      | cons c rest => simp [(hrest c rfl).2]
  | @pointed ws fs ne_nil hwhole hfraction =>
      have hpoint : ∀ c, ('.' :: (fs ++ rest)).head? = some c → isDecimalDigit c = false := by
        rintro c ⟨⟩
        decide
      rw [List.append_assoc, List.cons_append, spanDigits_append hwhole hpoint]
      cases ws with
      | nil =>
          obtain ⟨f, fs, rfl⟩ := List.exists_cons_of_ne_nil (ne_nil.resolve_left (by simp))
          simp only [spanDigits_append hfraction hdigit, List.nil_append]
      | cons w ws => simp only [spanDigits_append hfraction hdigit]

theorem spanExponent_append (h : IsExponentText exponent)
    (hrest : ∀ c, rest.head? = some c → isDecimalDigit c = false) :
    spanExponent isDecimalDigit (exponent ++ rest) = (exponent, rest) := by
  cases h with
  | @power letter sign ds negative letter_eq isSign ne_nil digits =>
      have hhead : ∀ c, (ds ++ rest).head? = some c → c ≠ '+' ∧ c ≠ '-' := by
        intro c hc
        rw [List.head?_append_of_ne_nil _ ne_nil] at hc
        exact ne_sign_of_isDecimalDigit (digits c (List.mem_of_mem_head? hc))
      rw [List.cons_append, List.append_assoc, spanExponent, spanSign_of_isSign isSign hhead]
      simp only [takeWhile_append_rest digits hrest, dropWhile_append_rest digits hrest]
      rw [if_pos ⟨letter_eq, ne_nil⟩, List.cons_append]

theorem spanExponent_of_no_letter
    (hrest : ∀ c, rest.head? = some c → c ≠ 'e' ∧ c ≠ 'E') :
    spanExponent isDecimalDigit rest = ([], rest) := by
  cases rest with
  | nil => rfl
  | cons c rest =>
      obtain ⟨he, hE⟩ := hrest c rfl
      simp [spanExponent, he, hE]

theorem append_of_spanMantissa? (h : spanMantissa? cs = some (mantissa, rest)) :
    cs = mantissa ++ rest := by
  have hspan : ∀ ds : List Char, (spanDigits ds).1 ++ (spanDigits ds).2 = ds := by
    intro ds
    rw [spanDigits, List.span_eq_takeWhile_dropWhile, List.takeWhile_append_dropWhile]
  have hcs := hspan cs
  unfold spanMantissa? at h
  split at h
  · rename_i after heq
    have hafter := hspan after
    split at h
    · cases h
    · rename_i heq'
      cases h
      rw [heq] at hcs
      rw [heq'] at hafter
      simp [← hcs, ← hafter]
  · cases h
  · rename_i after _ heq
    have hafter := hspan after
    generalize spanDigits after = fraction at h hafter
    cases h
    rw [heq] at hcs
    simp [← hcs, ← hafter]
  · rename_i heq
    cases h
    rw [heq] at hcs
    exact hcs.symm

/-! ### The unit after a number -/

theorem startsUnit_eq_true {c : Char} :
    startsUnit c = true ↔
      isDecimalDigit c = false ∧ isBlank c = false ∧ c ≠ '.' ∧ c ≠ '+' ∧ c ≠ '-' := by
  simp [startsUnit, and_assoc]

/-- What is found after a number and blanks, and where. -/
theorem unitAfter?_eq_some :
    unitAfter? cs = some unit ↔ ∃ blanks, (∀ c ∈ blanks, isBlank c = true) ∧ cs = blanks ++ unit ∧
      unit.head?.any startsUnit = true ∧ '\n' ∉ unit := by
  have hsplit := List.takeWhile_append_dropWhile (p := isBlank) (l := cs)
  constructor
  · intro h
    refine ⟨cs.takeWhile isBlank, fun c hc => List.mem_takeWhile_imp hc, ?_⟩
    unfold unitAfter? at h
    split at h
    · cases h
    · rename_i c rest hdrop
      split at h
      · rename_i hc
        cases h
        rw [Bool.and_eq_true, decide_eq_true_eq] at hc
        refine ⟨by rw [← hdrop, hsplit], hc.1, ?_⟩
        rw [List.mem_cons, not_or]
        refine ⟨?_, hc.2⟩
        rintro rfl
        exact absurd hc.1 (by decide)
      · cases h
  · rintro ⟨blanks, hblanks, rfl, hstarts, hline⟩
    cases unit with
    | nil => cases hstarts
    | cons c rest =>
        have hc : startsUnit c = true := hstarts
        have hhead : ∀ d, (c :: rest).head? = some d → isBlank d = false := by
          rintro d ⟨⟩
          exact (startsUnit_eq_true.mp hc).2.1
        rw [unitAfter?, dropWhile_append_rest hblanks hhead]
        simp only [List.mem_cons, not_or] at hline
        simp [hc, hline.2]

theorem unitAfter?_nil : unitAfter? [] = none := rfl

/-! ### The number in front -/

/-- Neither a blank nor the start of a unit goes on with a numeral, exponents aside. -/
theorem ends_digits (hblanks : ∀ c ∈ blanks, isBlank c = true)
    (hstarts : unit.head?.any startsUnit = true) :
    ∀ c, (blanks ++ unit).head? = some c → isDecimalDigit c = false ∧ c ≠ '.' := by
  intro c hc
  cases blanks with
  | nil =>
      rw [List.nil_append] at hc
      rw [hc] at hstarts
      obtain ⟨hdigit, -, hpoint, -⟩ := startsUnit_eq_true.mp hstarts
      exact ⟨hdigit, hpoint⟩
  | cons b blanks =>
      cases hc
      have hb := hblanks c List.mem_cons_self
      refine ⟨?_, ?_⟩
      · by_contra h
        rw [isBlank_of_isDecimalDigit (by simpa using h)] at hb
        cases hb
      · rintro rfl
        exact absurd hb (by decide)

/-- The exponent belongs to the number if a unit is left after it, and is given up otherwise. -/
theorem numberFirst?_eq (hsign : IsSign sign negative) (hmantissa : IsMantissaText mantissa)
    {after : List Char} (hrest : ∀ c, rest.head? = some c → isDecimalDigit c = false ∧ c ≠ '.')
    (hexponent : spanExponent isDecimalDigit rest = (exponent, after)) :
    numberFirst? (sign ++ (mantissa ++ rest)) =
      ((unitAfter? after).map (sign ++ mantissa ++ exponent, ·) <|>
        (unitAfter? rest).map (sign ++ mantissa, ·)) := by
  rw [numberFirst?, spanSign_of_isSign hsign hmantissa.ne_sign]
  simp only [spanMantissa?_append hmantissa hrest, hexponent, Option.bind_eq_bind,
    Option.bind_some]

/-- A number is cut off before its unit, with an exponent if it has one. -/
theorem numberFirst?_append (hsign : IsSign sign negative) (hmantissa : IsMantissaText mantissa)
    (hexponent : exponent = [] ∨ IsExponentText exponent)
    (hblanks : ∀ c ∈ blanks, isBlank c = true) (hstarts : unit.head?.any startsUnit = true)
    (hline : '\n' ∉ unit)
    (hletter : ∀ c, (blanks ++ unit).head? = some c → c ≠ 'e' ∧ c ≠ 'E') :
    numberFirst? (sign ++ (mantissa ++ (exponent ++ (blanks ++ unit)))) =
      some (sign ++ mantissa ++ exponent, unit) := by
  have hunit : unitAfter? (blanks ++ unit) = some unit :=
    unitAfter?_eq_some.mpr ⟨blanks, hblanks, rfl, hstarts, hline⟩
  have hends := ends_digits hblanks hstarts
  have hspan : spanExponent isDecimalDigit (exponent ++ (blanks ++ unit)) =
      (exponent, blanks ++ unit) := by
    rcases hexponent with rfl | hexponent
    · exact spanExponent_of_no_letter hletter
    · exact spanExponent_append hexponent fun c hc => (hends c hc).1
  have hrest : ∀ c, (exponent ++ (blanks ++ unit)).head? = some c →
      isDecimalDigit c = false ∧ c ≠ '.' := by
    intro c hc
    rcases hexponent with rfl | hexponent
    · exact hends c hc
    · obtain ⟨d, rest, rfl, hd⟩ := hexponent.exists_cons
      cases hc
      rcases hd with rfl | rfl <;> decide
  rw [numberFirst?_eq hsign hmantissa hrest hspan, hunit]
  rfl

/-- Nothing of the text is lost. -/
theorem exists_blanks_of_numberFirst? (h : numberFirst? cs = some (number, unit)) :
    ∃ blanks, cs = number ++ (blanks ++ unit) ∧ (∀ c ∈ blanks, isBlank c = true) ∧
      unit.head?.any startsUnit = true ∧ '\n' ∉ unit := by
  obtain ⟨negative, -, hsign⟩ := exists_isSign_spanSign cs
  unfold numberFirst? at h
  generalize spanSign cs = signed at h hsign
  obtain ⟨sign, unsigned⟩ := signed
  obtain ⟨⟨mantissa, rest⟩, hmantissa, h⟩ := Option.bind_eq_some_iff.mp h
  have hcs := append_of_spanMantissa? hmantissa
  have hrest := append_spanExponent isDecimalDigit rest
  dsimp only at h hsign hcs
  generalize spanExponent isDecimalDigit rest = scaled at h hrest
  obtain ⟨exponent, after⟩ := scaled
  rw [← hsign, hcs]
  rcases (Option.orElse_eq_some _ _ _).mp h with h | ⟨-, h⟩
  · obtain ⟨u, hu, h⟩ := Option.map_eq_some_iff.mp h
    cases h
    obtain ⟨blanks, hblanks, hafter, hunit⟩ := unitAfter?_eq_some.mp hu
    obtain rfl : after = _ := hafter
    exact ⟨blanks, by simp [← hrest], hblanks, hunit⟩
  · obtain ⟨u, hu, h⟩ := Option.map_eq_some_iff.mp h
    cases h
    obtain ⟨blanks, hblanks, hafter, hunit⟩ := unitAfter?_eq_some.mp hu
    exact ⟨blanks, by simp [hafter], hblanks, hunit⟩

/-! ### The number at the end -/

/-- A number that holds no blank is cut off at the last one. -/
theorem numberLast?_append (hnumber : ∀ c ∈ number, isBlank c = false)
    (hblanks : ∀ c ∈ blanks, isBlank c = true) (hne : blanks ≠ []) (hunit : unit ≠ [])
    (hlast : ∀ c, unit.getLast? = some c → isBlank c = false) (hline : '\n' ∉ unit) :
    numberLast? (unit ++ (blanks ++ number)) = some (number, unit) := by
  have hsuffix : ((unit ++ (blanks ++ number)).reverse.takeWhile fun c => !isBlank c).reverse =
      number := by
    rw [← List.append_assoc, List.reverse_append, takeWhile_append_rest, List.reverse_reverse]
    · intro c hc
      rw [hnumber c (List.mem_reverse.mp hc)]
      rfl
    · intro c hc
      rw [List.head?_reverse, List.getLast?_append_of_ne_nil _ hne] at hc
      rw [hblanks c (List.mem_of_getLast? hc)]
      rfl
  have hprefix : (unit ++ (blanks ++ number)).take
      ((unit ++ (blanks ++ number)).length - number.length) = unit ++ blanks := by
    rw [← List.append_assoc, List.length_append, Nat.add_sub_cancel, List.take_left]
  unfold numberLast?
  dsimp only
  rw [hsuffix, hprefix, trimEnd_append hblanks hlast]
  simp [hline, hunit]

/-- A text is what stands before its last blank, that blank included, and the rest of it. -/
theorem exists_last_blank (cs : List Char) :
    ∃ before, cs = before ++ (cs.reverse.takeWhile fun c => !isBlank c).reverse ∧
      ∀ c, before.getLast? = some c → isBlank c = true := by
  refine ⟨(cs.reverse.dropWhile fun c => !isBlank c).reverse, ?_, ?_⟩
  · rw [← List.reverse_append, List.takeWhile_append_dropWhile, List.reverse_reverse]
  · intro c hc
    have := List.head?_dropWhile_not (fun c => !isBlank c) cs.reverse
    rw [← List.getLast?_reverse, hc] at this
    simpa using this

/-- Nothing of the text is lost, and no number is found where there is no blank. -/
theorem exists_blanks_of_numberLast? (h : numberLast? cs = some (number, unit)) :
    ∃ blanks, cs = unit ++ (blanks ++ number) ∧ (∀ c ∈ blanks, isBlank c = true) ∧ blanks ≠ [] ∧
      (∀ c, unit.getLast? = some c → isBlank c = false) ∧ unit ≠ [] ∧ '\n' ∉ unit := by
  obtain ⟨before, hcs, hbefore⟩ := exists_last_blank cs
  unfold numberLast? at h
  generalize (cs.reverse.takeWhile fun c => !isBlank c).reverse = suffix at hcs h
  have htake : cs.take (cs.length - suffix.length) = before := by
    rw [hcs, List.length_append, Nat.add_sub_cancel, List.take_left]
  dsimp only at h
  rw [htake] at h
  split at h
  · cases h
  · rename_i hunit
    cases h
    rw [Bool.or_eq_true, not_or, decide_eq_true_eq, List.isEmpty_iff] at hunit
    obtain ⟨blanks, hsplit, hblanks⟩ := exists_blanks_after before
    have hlast := last_trimEnd before
    refine ⟨blanks, ?_, hblanks, ?_, hlast, hunit⟩
    · rw [← List.append_assoc, ← hsplit]
      exact hcs
    · rintro rfl
      rw [List.append_nil] at hsplit
      rw [← hsplit] at hunit hlast
      have hc := List.getLast?_eq_some_getLast hunit.1
      have hblank := hbefore _ hc
      rw [hlast _ hc] at hblank
      cases hblank

/-- No number is at the end of a text without a blank. -/
theorem numberLast?_of_no_blank (h : ∀ c ∈ cs, isBlank c = false) : numberLast? cs = none := by
  cases hsplit : numberLast? cs with
  | none => rfl
  | some p =>
      obtain ⟨blanks, rfl, hblanks, hne, -⟩ := exists_blanks_of_numberLast? hsplit
      obtain ⟨b, rest, rfl⟩ := List.exists_cons_of_ne_nil hne
      have hb := hblanks b List.mem_cons_self
      rw [h b (by simp)] at hb
      cases hb

end Reckoner.Quantity
