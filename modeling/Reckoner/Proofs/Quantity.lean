/-
Quantities are read back.

An amount is set before a unit, with or without blanks between them, or after it.  A label is a
unit that starts with nothing a numeral could go on with, and what is shown is a numeral, with a
point or with a comma; so both are read as they were put together, and the value is the double
nearest to the number that is shown.
-/
import Reckoner.Proofs.Quantity.Forms
import Reckoner.Proofs.Units.Lookup

namespace Reckoner.Quantity

open DecimalNumeral Text

/-! ### Labels -/

/-- A label is a unit, and can follow a number at once. -/
theorem isUnit_of_mem_units {c : Category} {label : String} (h : label ∈ c.units) :
    IsUnit label.toList ∧ ∀ first, label.toList.head? = some first →
      isDecimalDigit first = false ∧ first ∉ ['.', '+', '-'] ∧ first ≠ 'e' ∧ first ≠ 'E' := by
  have hall : ∀ c : Category, ∀ label ∈ c.units,
      label.toList.head?.any (fun c => startsUnit c && c != 'e' && c != 'E') = true ∧
        label.toList.getLast?.all (fun c => !isBlank c) = true ∧
        '\n' ∉ label.toList ∧ ',' ∉ label.toList := by
    decide +kernel
  obtain ⟨hstarts, hends, hline, hcomma⟩ := hall c label h
  have hfirst : ∀ first, label.toList.head? = some first →
      startsUnit first = true ∧ first ≠ 'e' ∧ first ≠ 'E' := by
    intro first hfirst
    rw [hfirst] at hstarts
    simpa [and_assoc] using hstarts
  refine ⟨⟨?_, ?_, ?_, hline, hcomma⟩, ?_⟩
  · intro hnil
    rw [hnil] at hstarts
    cases hstarts
  · intro first hhead
    exact (startsUnit_eq_true.mp (hfirst first hhead).1).2.1
  · intro last hlast
    rw [hlast] at hends
    simpa using hends
  · intro first hhead
    obtain ⟨hstarts, hletter⟩ := hfirst first hhead
    obtain ⟨hdigit, -, hpoint, hplus, hminus⟩ := startsUnit_eq_true.mp hstarts
    exact ⟨hdigit, by simp [hpoint, hplus, hminus], hletter⟩

/-! ### Points and commas -/

/-- A decimal comma in place of a point. -/
def pointToComma (c : Char) : Char := if c = '.' then ',' else c

/-- A text is a spelling of a numeral, with a point or with a comma. -/
def Spells (t : SignedNumeral) (cs : List Char) : Prop :=
  cs = t.chars ∨ cs = t.chars.map pointToComma

variable {t : SignedNumeral} {number : List Char}

theorem comma_notMem_chars (t : SignedNumeral) : ',' ∉ t.chars := by
  intro hmem
  have hnumeral := isNumeral_iff_read?.mpr ⟨t.parts, t.read?_chars, rfl⟩
  rcases hnumeral.isDigit_or_mem _ hmem with hdigit | hmem
  · cases hdigit
  · exact absurd hmem (by decide)

/-- The reader sees both spellings as one. -/
theorem Spells.read? (h : Spells t number) :
    read? (number.map commaToPoint) = some t.parts := by
  have hcomma := comma_notMem_chars t
  suffices hpoint : number.map commaToPoint = t.chars by
    rw [hpoint, t.read?_chars]
  rcases h with rfl | rfl
  · exact map_commaToPoint_eq_self hcomma
  · rw [List.map_map]
    refine (List.map_congr_left fun c hc => ?_).trans (List.map_id t.chars)
    have hc' : c ≠ ',' := fun heq => hcomma (heq ▸ hc)
    rw [Function.comp_apply, pointToComma]
    split <;> simp_all [commaToPoint]

/-! ### Amounts with units -/

/--
**What is shown can be read back.**  The text of an amount, with its point or with a comma in place
of it, is read with the label of any unit after it, and with the label before it if there are
blanks between them.  The unit is the label again, which names the unit that has it, and the value
is the double nearest to the number that is shown; it is finite.
-/
theorem read_text_with_label (c : Category) (i : Nat) (hi : i < c.units.length) (v : Double)
    (hv : v.isFinite = true) (blanks : String) (hblanks : ∀ b ∈ blanks.toList, isBlank b = true) :
    ∃ x : Double, x.isFinite = true ∧ (∃ r, Amount.Shows (Amount.text v) r) ∧
      (∀ r, Amount.Shows (Amount.text v) r → Double.Rounds r x) ∧
      c.resolveUnit c.units[i] = .ok i ∧
      ∀ number ∈ [Amount.text v, String.ofList ((Amount.text v).toList.map pointToComma)],
        read (number ++ blanks ++ c.units[i]) = .ok ⟨x, c.units[i]⟩ ∧
        (blanks ≠ "" → read (c.units[i] ++ blanks ++ number) = .ok ⟨x, c.units[i]⟩) := by
  obtain ⟨r, hshows, hlimit⟩ := Amount.exists_shows hv
  obtain ⟨t, htext, rfl⟩ := hshows.exists_signedNumeral
  refine ⟨t.parts.toDouble, t.rounds_parts.isFinite_iff.mpr hlimit, ⟨_, hshows⟩,
    fun r hr => hr.rounds_of_text htext, Category.resolveUnit_label hi, ?_⟩
  intro number hmem
  have hspells : Spells t number.toList := by
    rw [htext, String.toList_ofList, List.mem_pair] at hmem
    rcases hmem with rfl | rfl
    · exact .inl String.toList_ofList
    · exact .inr String.toList_ofList
  obtain ⟨hunit, hstarts⟩ := isUnit_of_mem_units (List.getElem_mem hi)
  generalize c.units[i] = unit at hunit hstarts ⊢
  have hnone : ∀ c ∈ ([] : List Char), isBlank c = true := by simp
  have hfirst := read_numberFirst hspells.read? hnone hblanks hnone hunit fun c hc =>
    ⟨(hstarts c hc).1, (hstarts c hc).2.1, fun _ => (hstarts c hc).2.2⟩
  have hlast := fun hne => read_numberLast hspells.read? hnone hblanks hnone hunit hne fun c hc =>
    ⟨not_isDigit_of_not_isDecimalDigit (hstarts c hc).1, (hstarts c hc).2.1⟩
  simp only [List.nil_append, List.append_nil, String.ofList_append, String.ofList_toList,
    ← String.append_assoc] at hfirst hlast
  exact ⟨hfirst, fun hne => hlast (by simpa using hne)⟩

/-- A long way back, before its unit and after it. -/
theorem read_kilometres :
    ∃ x : Double, x.isFinite = true ∧
      read "-1,23457e+06 \tkilometer (km)" = .ok ⟨x, "kilometer (km)"⟩ ∧
      read "kilometer (km) \t-1.23457e+06" = .ok ⟨x, "kilometer (km)"⟩ := by
  have htext : Amount.text (-1234567.0) = "-1.23457e+06" := by decide +kernel
  obtain ⟨x, hfinite, -, -, -, hread⟩ := read_text_with_label .length 1 (by decide)
    (-1234567.0) (by decide +kernel) " \t" (by simp [isBlank])
  rw [htext] at hread
  exact ⟨x, hfinite, (hread "-1,23457e+06" (by decide)).1,
    (hread "-1.23457e+06" (by decide)).2 (by decide)⟩

end Reckoner.Quantity
