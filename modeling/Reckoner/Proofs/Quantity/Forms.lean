/-
The two forms of a quantity.

A comma counts as a point and blanks at the ends do not count, so what is cut is a text without
either.  With the number in front, what follows it starts as a unit does; with the number at the
end, the text starts with the unit, and what is cut off in front has no value.  So each form is
read as it was written, whatever is inside the unit.  Conversely the pieces of a text that is read
are put together again, which shows that there are no other forms and that the unit that was found
is one.
-/
import Reckoner.CommandLine.Plan
import Reckoner.Proofs.Quantity.Split

namespace Reckoner.Quantity

open DecimalNumeral Text

/-! ### Commas -/

/-- A comma is read as a point. -/
def commaToPoint (c : Char) : Char := if c = ',' then '.' else c

theorem isBlank_commaToPoint (c : Char) : isBlank (commaToPoint c) = isBlank c := by
  unfold commaToPoint
  split
  · rename_i h
    rw [h]
    decide
  · rfl

theorem map_commaToPoint_eq_self {cs : List Char} (h : ',' ∉ cs) : cs.map commaToPoint = cs := by
  refine (List.map_congr_left fun c hc => if_neg ?_).trans (List.map_id cs)
  rintro rfl
  exact h hc

theorem map_commaToPoint_of_blank {cs : List Char} (h : ∀ c ∈ cs, isBlank c = true) :
    cs.map commaToPoint = cs :=
  map_commaToPoint_eq_self fun hmem => absurd (h ',' hmem) (by decide)

theorem comma_notMem_map (cs : List Char) : ',' ∉ cs.map commaToPoint := by
  intro hmem
  obtain ⟨c, -, hc⟩ := List.mem_map.mp hmem
  unfold commaToPoint at hc
  split at hc
  · cases hc
  · exact absurd hc ‹_›

theorem head_map_commaToPoint {cs : List Char} (h : ∀ c, cs.head? = some c → isBlank c = false) :
    ∀ c, (cs.map commaToPoint).head? = some c → isBlank c = false := by
  intro c hc
  rw [List.head?_map] at hc
  obtain ⟨d, hd, rfl⟩ := Option.map_eq_some_iff.mp hc
  rw [isBlank_commaToPoint]
  exact h d hd

theorem last_map_commaToPoint {cs : List Char}
    (h : ∀ c, cs.getLast? = some c → isBlank c = false) :
    ∀ c, (cs.map commaToPoint).getLast? = some c → isBlank c = false := by
  intro c hc
  rw [List.getLast?_map] at hc
  obtain ⟨d, hd, rfl⟩ := Option.map_eq_some_iff.mp hc
  rw [isBlank_commaToPoint]
  exact h d hd

/-! ### Reading -/

variable {before core after number blanks unit : List Char} {x : ℚ}

/-- Blanks around a text do not count. -/
theorem read_append (hbefore : ∀ c ∈ before, isBlank c = true)
    (hafter : ∀ c ∈ after, isBlank c = true) (hne : core ≠ [])
    (hhead : ∀ c, core.head? = some c → isBlank c = false)
    (hlast : ∀ c, core.getLast? = some c → isBlank c = false) :
    read (String.ofList (before ++ core ++ after)) =
      match (numberFirst? (core.map commaToPoint)).bind ofParts? <|>
        (numberLast? (core.map commaToPoint)).bind ofParts? with
      | some q => .ok q
      | none => .error (.unreadable (String.ofList core)) := by
  unfold read
  rw [String.toList_ofList, trimChars_append hbefore hafter hhead hlast]
  dsimp only
  rw [if_neg (by simpa using hne)]
  rfl

/-- What can stand for a unit: a text on one line without commas and without blanks at its ends. -/
structure IsUnit (unit : List Char) : Prop where
  ne_nil : unit ≠ []
  head : ∀ c, unit.head? = some c → isBlank c = false
  last : ∀ c, unit.getLast? = some c → isBlank c = false
  oneLine : '\n' ∉ unit
  no_comma : ',' ∉ unit

/-- A number with a unit has a value if it is a numeral. -/
theorem ofParts?_of_read? {n : DecimalNumeral} (hnumber : read? number = some n)
    (hhead : ∀ c, unit.head? = some c → isBlank c = false)
    (hlast : ∀ c, unit.getLast? = some c → isBlank c = false) :
    ofParts? (number, unit) = some ⟨n.toDouble, String.ofList unit⟩ := by
  rw [ofParts?, hnumber, trimChars_of_ends hhead hlast]
  rfl

/-- Only numerals have values. -/
theorem exists_of_ofParts? {q : Quantity} (h : ofParts? (number, unit) = some q) :
    ∃ x, IsNumeral number x ∧ Double.Rounds x q.value ∧
      q.unit = String.ofList (trimChars unit) := by
  obtain ⟨n, hread, h⟩ := Option.bind_eq_some_iff.mp h
  cases h
  exact ⟨n.number, isNumeral_iff_read?.mpr ⟨n, hread, rfl⟩, n.rounds_toDouble, rfl⟩

/-- No character of a numeral is blank. -/
theorem not_blank_of_isNumeral (h : IsNumeral number x) : ∀ c ∈ number, isBlank c = false := by
  intro c hc
  rcases h.isDigit_or_mem c hc with hdigit | hmem
  · exact isBlank_of_isDecimalDigit (isDecimalDigit_of_isDigit hdigit)
  · simp only [List.mem_cons, List.not_mem_nil, or_false] at hmem
    rcases hmem with rfl | rfl | rfl | rfl | rfl <;> decide

/-- A numeral starts with a sign, a digit or a point. -/
theorem exists_cons_of_isNumeral (h : IsNumeral number x) :
    ∃ c rest, number = c :: rest ∧ (c.isDigit = true ∨ c ∈ ['.', '+', '-']) := by
  obtain ⟨isSign, isMantissa, -⟩ := h
  cases isSign with
  | plus => exact ⟨_, _, rfl, .inr (by decide)⟩
  | minus => exact ⟨_, _, rfl, .inr (by decide)⟩
  | nothing =>
      rename_i mantissa exponent _ _ _
      obtain ⟨c, rest, rfl⟩ := List.exists_cons_of_ne_nil isMantissa.ne_nil
      refine ⟨c, rest ++ exponent, rfl, ?_⟩
      rcases isDigit_or_point_of_isMantissa isMantissa c List.mem_cons_self with hdigit | rfl
      · exact .inl hdigit
      · exact .inr (by decide)

/-- A numeral is cut off before a unit that could not be taken for a part of it. -/
theorem numberFirst?_of_read? {n : DecimalNumeral} (hnumber : read? number = some n)
    (hblanks : ∀ c ∈ blanks, isBlank c = true) (hunit : IsUnit unit)
    (hstarts : ∀ c, unit.head? = some c → isDecimalDigit c = false ∧
      c ∉ ['.', '+', '-'] ∧ (blanks = [] → c ≠ 'e' ∧ c ≠ 'E')) :
    numberFirst? (number ++ (blanks ++ unit)) = some (number, unit) := by
  obtain ⟨sign, mantissa, exponent, hparts, hsign, hmantissa, hexponent⟩ := read?_eq_some.mp hnumber
  have hstart : unit.head?.any startsUnit = true := by
    obtain ⟨c, rest, rfl⟩ := List.exists_cons_of_ne_nil hunit.ne_nil
    obtain ⟨hdigit, hmem, -⟩ := hstarts c rfl
    simp only [List.mem_cons, List.not_mem_nil, or_false, not_or] at hmem
    exact startsUnit_eq_true.mpr ⟨hdigit, hunit.head c rfl, hmem⟩
  have hletter : ∀ c, (blanks ++ unit).head? = some c → c ≠ 'e' ∧ c ≠ 'E' := by
    intro c hc
    cases blanks with
    | nil => exact (hstarts c hc).2.2 rfl
    | cons b blanks =>
        cases hc
        have hb := hblanks c List.mem_cons_self
        constructor
        all_goals
          rintro rfl
          exact absurd hb (by decide)
  rw [hparts, List.append_assoc, List.append_assoc, numberFirst?_append hsign
    (isMantissaText_of_isMantissa hmantissa) (isExponentText_of_isExponent hexponent) hblanks
    hstart hunit.oneLine hletter, List.append_assoc]

/-- A text that starts with no digit, sign or point has no number in front.  With a digit that is
not an ASCII one it may seem to have one, but that has no value. -/
theorem bind_numberFirst?_eq_none {cs : List Char}
    (hstarts : ∀ c, cs.head? = some c → c.isDigit = false ∧ c ∉ ['.', '+', '-']) :
    (numberFirst? cs).bind ofParts? = none := by
  rw [Option.bind_eq_none_iff]
  rintro ⟨number, unit⟩ hsplit
  obtain ⟨blanks, rfl, -⟩ := exists_blanks_of_numberFirst? hsplit
  cases hread : read? number with
  | none => simp [ofParts?, hread]
  | some n =>
      obtain ⟨c, rest, rfl, hc⟩ :=
        exists_cons_of_isNumeral (isNumeral_iff_read?.mpr ⟨n, hread, rfl⟩)
      obtain ⟨hdigit, hmem⟩ := hstarts c rfl
      rcases hc with hc | hc
      · rw [hdigit] at hc
        cases hc
      · exact absurd hc hmem

/-! ### The two forms -/

section Forms

variable {n : DecimalNumeral} (hnumber : read? (number.map commaToPoint) = some n)
  (hbefore : ∀ c ∈ before, isBlank c = true) (hblanks : ∀ c ∈ blanks, isBlank c = true)
  (hafter : ∀ c ∈ after, isBlank c = true) (hunit : IsUnit unit)

include hnumber

theorem not_blank_of_read? : ∀ c ∈ number, isBlank c = false := by
  intro c hc
  have hnumeral := isNumeral_iff_read?.mpr ⟨n, hnumber, rfl⟩
  rw [← isBlank_commaToPoint]
  exact not_blank_of_isNumeral hnumeral _ (List.mem_map_of_mem hc)

theorem ne_nil_of_read? : number ≠ [] := by
  obtain ⟨c, rest, hcons, -⟩ := exists_cons_of_isNumeral (isNumeral_iff_read?.mpr ⟨n, hnumber, rfl⟩)
  rintro rfl
  cases hcons

include hbefore hblanks hafter hunit

/-- A number is read with the unit after it, unless the unit could be taken for a part of it. -/
theorem read_numberFirst (hstarts : ∀ c, unit.head? = some c → isDecimalDigit c = false ∧
      c ∉ ['.', '+', '-'] ∧ (blanks = [] → c ≠ 'e' ∧ c ≠ 'E')) :
    read (String.ofList (before ++ (number ++ (blanks ++ unit)) ++ after)) =
      .ok ⟨n.toDouble, String.ofList unit⟩ := by
  have hne := ne_nil_of_read? hnumber
  have hnormalized : (number ++ (blanks ++ unit)).map commaToPoint =
      number.map commaToPoint ++ (blanks ++ unit) := by
    rw [List.map_append, List.map_append, map_commaToPoint_of_blank hblanks,
      map_commaToPoint_eq_self hunit.no_comma]
  rw [read_append hbefore hafter (by simp [hne]) ?_ ?_, hnormalized,
    numberFirst?_of_read? hnumber hblanks hunit hstarts, Option.bind_some,
    ofParts?_of_read? hnumber hunit.head hunit.last]
  · rfl
  · intro c hc
    rw [List.head?_append_of_ne_nil _ hne] at hc
    exact not_blank_of_read? hnumber c (List.mem_of_mem_head? hc)
  · rw [← List.append_assoc, List.getLast?_append_of_ne_nil _ hunit.ne_nil]
    exact hunit.last

/-- A number is read with the unit before it if there are blanks between them. -/
theorem read_numberLast (hne : blanks ≠ [])
    (hstarts : ∀ c, unit.head? = some c → c.isDigit = false ∧ c ∉ ['.', '+', '-']) :
    read (String.ofList (before ++ (unit ++ (blanks ++ number)) ++ after)) =
      .ok ⟨n.toDouble, String.ofList unit⟩ := by
  have hnormalized : (unit ++ (blanks ++ number)).map commaToPoint =
      unit ++ (blanks ++ number.map commaToPoint) := by
    rw [List.map_append, List.map_append, map_commaToPoint_of_blank hblanks,
      map_commaToPoint_eq_self hunit.no_comma]
  have hnumeral := isNumeral_iff_read?.mpr ⟨n, hnumber, rfl⟩
  have hfirst : (numberFirst? (unit ++ (blanks ++ number.map commaToPoint))).bind ofParts? = none := by
    refine bind_numberFirst?_eq_none ?_
    rw [List.head?_append_of_ne_nil _ hunit.ne_nil]
    exact hstarts
  rw [read_append hbefore hafter (by simp [hunit.ne_nil]) ?_ ?_, hnormalized, hfirst,
    numberLast?_append (not_blank_of_isNumeral hnumeral) hblanks hne hunit.ne_nil hunit.last
      hunit.oneLine, Option.bind_some, ofParts?_of_read? hnumber hunit.head hunit.last]
  · rfl
  · rw [List.head?_append_of_ne_nil _ hunit.ne_nil]
    exact hunit.head
  · intro c hc
    rw [← List.append_assoc, List.getLast?_append_of_ne_nil _ (ne_nil_of_read? hnumber)] at hc
    exact not_blank_of_read? hnumber c (List.mem_of_getLast? hc)

end Forms

/-! ### Only these forms -/

section Cuts

variable {core : List Char} (hcomma : ',' ∉ core)

include hcomma

theorem isUnit_of_numberFirst? (hlast : ∀ c, core.getLast? = some c → isBlank c = false)
    (h : numberFirst? core = some (number, unit)) :
    IsUnit unit ∧ ∃ blanks, (∀ c ∈ blanks, isBlank c = true) ∧ core = number ++ (blanks ++ unit) := by
  obtain ⟨blanks, rfl, hblanks, hstarts, hline⟩ := exists_blanks_of_numberFirst? h
  have hne : unit ≠ [] := by
    rintro rfl
    cases hstarts
  refine ⟨⟨hne, ?_, ?_, hline, fun hmem => hcomma (by simp [hmem])⟩, blanks, hblanks, rfl⟩
  · intro c hc
    rw [hc] at hstarts
    exact (startsUnit_eq_true.mp hstarts).2.1
  · intro c hc
    refine hlast c ?_
    rw [← List.append_assoc, List.getLast?_append_of_ne_nil _ hne, hc]

theorem isUnit_of_numberLast? (hhead : ∀ c, core.head? = some c → isBlank c = false)
    (h : numberLast? core = some (number, unit)) :
    IsUnit unit ∧ ∃ blanks, (∀ c ∈ blanks, isBlank c = true) ∧ blanks ≠ [] ∧
      core = unit ++ (blanks ++ number) := by
  obtain ⟨blanks, rfl, hblanks, hsep, hunit, hne, hline⟩ := exists_blanks_of_numberLast? h
  refine ⟨⟨hne, ?_, hunit, hline, fun hmem => hcomma (by simp [hmem])⟩, blanks, hblanks, hsep, rfl⟩
  intro c hc
  refine hhead c ?_
  rw [List.head?_append_of_ne_nil _ hne, hc]

end Cuts

/-- Nothing but blanks is no quantity. -/
theorem trimChars_ne_nil_of_read {text : String} {q : Quantity} (h : read text = .ok q) :
    trimChars text.toList ≠ [] := by
  intro hnil
  rw [read, hnil] at h
  cases h

/-- A text that is read is of one of the two forms, but for blanks around it and its commas. -/
theorem exists_form_of_read {text : String} {q : Quantity} (h : read text = .ok q) :
    IsUnit q.unit.toList ∧ ∃ before number blanks after x,
      (∀ c ∈ before ++ blanks ++ after, isBlank c = true) ∧ IsNumeral number x ∧
      Double.Rounds x q.value ∧
      (text.toList.map commaToPoint =
          before ++ (number ++ (blanks ++ q.unit.toList)) ++ after ∨
        blanks ≠ [] ∧ text.toList.map commaToPoint =
          before ++ (q.unit.toList ++ (blanks ++ number)) ++ after) := by
  obtain ⟨before, after, hsplit, hbefore, hafter⟩ := exists_blanks text.toList
  have hread := read_append hbefore hafter (trimChars_ne_nil_of_read h)
    (head_trimChars text.toList) (last_trimChars text.toList)
  rw [← hsplit, String.ofList_toList, h] at hread
  have hnormalized : text.toList.map commaToPoint =
      before ++ (trimChars text.toList).map commaToPoint ++ after := by
    conv_lhs => rw [hsplit]
    rw [List.map_append, List.map_append, map_commaToPoint_of_blank hbefore,
      map_commaToPoint_of_blank hafter]
  rw [hnormalized]
  have hhead := head_map_commaToPoint (head_trimChars text.toList)
  have hlast := last_map_commaToPoint (last_trimChars text.toList)
  have hcomma := comma_notMem_map (trimChars text.toList)
  generalize (trimChars text.toList).map commaToPoint = core at hread hhead hlast hcomma
  have hall : ∀ {blanks : List Char}, (∀ c ∈ blanks, isBlank c = true) →
      ∀ c ∈ before ++ blanks ++ after, isBlank c = true := by
    intro blanks hblanks c hc
    rw [List.mem_append, List.mem_append] at hc
    rcases hc with (hc | hc) | hc
    exacts [hbefore c hc, hblanks c hc, hafter c hc]
  split at hread
  · rename_i q' hq
    cases hread
    rcases (Option.orElse_eq_some _ _ _).mp hq with hq | ⟨-, hq⟩
    all_goals
      obtain ⟨⟨number, unit⟩, hcut, hparts⟩ := Option.bind_eq_some_iff.mp hq
      obtain ⟨x, hnumber, hrounds, hunit⟩ := exists_of_ofParts? hparts
    · obtain ⟨hisUnit, blanks, hblanks, rfl⟩ := isUnit_of_numberFirst? hcomma hlast hcut
      rw [hunit, trimChars_of_ends hisUnit.head hisUnit.last, String.toList_ofList]
      exact ⟨hisUnit, before, number, blanks, after, x, hall hblanks, hnumber, hrounds, .inl rfl⟩
    · obtain ⟨hisUnit, blanks, hblanks, hne, rfl⟩ := isUnit_of_numberLast? hcomma hhead hcut
      rw [hunit, trimChars_of_ends hisUnit.head hisUnit.last, String.toList_ofList]
      exact ⟨hisUnit, before, number, blanks, after, x, hall hblanks, hnumber, hrounds,
        .inr ⟨hne, rfl⟩⟩
  · cases hread

/-! ### Both forms, and no others -/

/--
**Quantities are read in two forms.**  A numeral and a unit after it are read, with or without
blanks between them, if the unit starts with no digit, sign or point, nor at once with the letter
of an exponent; so are a unit and a numeral after it that are set apart, if the unit starts with no
digit, sign or point.  The value is the double nearest to the number, and the unit is as it was.
Nothing else is read: whatever the text, a unit that is found is one, and what is not read is
reported as invalid.
-/
theorem read_two_forms :
    (∀ (before number blanks unit after : List Char) (x : ℚ),
      IsNumeral (number.map commaToPoint) x → IsUnit unit →
      (∀ c ∈ before ++ blanks ++ after, isBlank c = true) →
      (∀ c, unit.head? = some c → isDecimalDigit c = false ∧ c ∉ ['.', '+', '-'] ∧
        (blanks = [] → c ≠ 'e' ∧ c ≠ 'E')) →
      ∃ v, Double.Rounds x v ∧
        read (String.ofList (before ++ (number ++ (blanks ++ unit)) ++ after)) =
          .ok ⟨v, String.ofList unit⟩) ∧
    (∀ (before number blanks unit after : List Char) (x : ℚ),
      IsNumeral (number.map commaToPoint) x → IsUnit unit →
      (∀ c ∈ before ++ blanks ++ after, isBlank c = true) → blanks ≠ [] →
      (∀ c, unit.head? = some c → c.isDigit = false ∧ c ∉ ['.', '+', '-']) →
      ∃ v, Double.Rounds x v ∧
        read (String.ofList (before ++ (unit ++ (blanks ++ number)) ++ after)) =
          .ok ⟨v, String.ofList unit⟩) ∧
    (∀ text q, read text = .ok q → IsUnit q.unit.toList ∧
      ∃ before number blanks after x, (∀ c ∈ before ++ blanks ++ after, isBlank c = true) ∧
        IsNumeral number x ∧ Double.Rounds x q.value ∧
        (text.toList.map commaToPoint =
            before ++ (number ++ (blanks ++ q.unit.toList)) ++ after ∨
          blanks ≠ [] ∧ text.toList.map commaToPoint =
            before ++ (q.unit.toList ++ (blanks ++ number)) ++ after)) ∧
    (∀ text e, Plan.readQuantity text = .error e →
      ∃ reason, read text = .error reason ∧ e = .validation reason.message) := by
  refine ⟨?_, ?_, fun text q => exists_form_of_read, ?_⟩
  · intro before number blanks unit after x hnumeral hunit hblank hstarts
    obtain ⟨n, hnumber, rfl⟩ := isNumeral_iff_read?.mp hnumeral
    simp only [List.mem_append, or_imp, forall_and] at hblank
    obtain ⟨⟨hbefore, hblanks⟩, hafter⟩ := hblank
    exact ⟨_, n.rounds_toDouble, read_numberFirst hnumber hbefore hblanks hafter hunit hstarts⟩
  · intro before number blanks unit after x hnumeral hunit hblank hne hstarts
    obtain ⟨n, hnumber, rfl⟩ := isNumeral_iff_read?.mp hnumeral
    simp only [List.mem_append, or_imp, forall_and] at hblank
    obtain ⟨⟨hbefore, hblanks⟩, hafter⟩ := hblank
    exact ⟨_, n.rounds_toDouble, read_numberLast hnumber hbefore hblanks hafter hunit hne hstarts⟩
  · intro text e h
    unfold Plan.readQuantity at h
    cases hread : read text with
    | ok q =>
        rw [hread] at h
        cases h
    | error reason =>
        rw [hread] at h
        cases h
        exact ⟨reason, rfl, rfl⟩

/-- A price for each metre and one for two of them, with the number in front and at the end. -/
theorem read_prices :
    (∃ v, Double.Rounds 1500 v ∧ read " 1,5e3kr/m " = .ok ⟨v, "kr/m"⟩) ∧
      ∃ v, Double.Rounds 1500 v ∧ read "kr/2 m \t+1.5E3" = .ok ⟨v, "kr/2 m"⟩ := by
  obtain ⟨hfirst, hlast, -⟩ := read_two_forms
  have hnumber : number ⟨false, ['1'], ['5'], 3⟩ = 1500 := by
    have hnatOf : natOf (['1'] ++ ['5']) = 15 := by decide
    rw [number, hnatOf]
    norm_num
  have hcomma : IsNumeral (['1', ',', '5', 'e', '3'].map commaToPoint) 1500 :=
    isNumeral_iff_read?.mpr ⟨_, by decide, hnumber⟩
  have hplus : IsNumeral (['+', '1', '.', '5', 'E', '3'].map commaToPoint) 1500 :=
    isNumeral_iff_read?.mpr ⟨_, by decide, hnumber⟩
  have hunit : ∀ unit ∈ [['k', 'r', '/', 'm'], ['k', 'r', '/', '2', ' ', 'm']], IsUnit unit := by
    simp only [List.mem_cons, List.not_mem_nil, or_false, forall_eq_or_imp, forall_eq]
    constructor
    all_goals
      refine ⟨by decide, ?_, ?_, by decide, by decide⟩
      all_goals
        rintro c ⟨⟩
        decide
  constructor
  · obtain ⟨v, hrounds, hread⟩ := hfirst [' '] _ [] ['k', 'r', '/', 'm'] [' '] 1500 hcomma
      (hunit _ (by decide)) (by simp [isBlank]) (by rintro c ⟨⟩; decide)
    exact ⟨v, hrounds, hread⟩
  · obtain ⟨v, hrounds, hread⟩ := hlast [] _ [' ', '\t'] ['k', 'r', '/', '2', ' ', 'm'] [] 1500
      hplus (hunit _ (by decide)) (by simp [isBlank]) (by decide) (by rintro c ⟨⟩; decide)
    exact ⟨v, hrounds, hread⟩

end Reckoner.Quantity
