/-
A number without a unit.

Nothing is left for a unit after a number that stands alone, and no blank is in it at which its end
could be cut off; so a number without an exponent is refused.  An exponent is not safe: it starts
with a letter, as a unit may, and since no unit is left after it, it is given up and becomes the
unit itself.
-/
import Reckoner.Proofs.Quantity.Forms

namespace Reckoner.Quantity

open DecimalNumeral Text

variable {sign mantissa exponent before number after : List Char} {negative : Bool}

/-! ### Where a number alone is cut -/

/-- Its exponent is cut off, if it has one. -/
theorem numberFirst?_alone (hsign : IsSign sign negative) (hmantissa : IsMantissaText mantissa)
    (hexponent : exponent = [] ∨ IsExponentText exponent) :
    numberFirst? (sign ++ (mantissa ++ exponent)) =
      if exponent = [] then none else some (sign ++ mantissa, exponent) := by
  rcases hexponent with rfl | hexponent
  · rw [numberFirst?_eq hsign hmantissa (by simp) rfl]
    rfl
  · have hspan : spanExponent isDecimalDigit exponent = (exponent, []) := by
      have happend : spanExponent isDecimalDigit (exponent ++ []) = (exponent, []) :=
        spanExponent_append hexponent (by simp)
      rwa [List.append_nil] at happend
    obtain ⟨letter, rest, hcons, hletter⟩ := hexponent.exists_cons
    have hends : ∀ c, exponent.head? = some c → isDecimalDigit c = false ∧ c ≠ '.' := by
      rw [hcons]
      rintro c ⟨⟩
      rcases hletter with rfl | rfl <;> decide
    have hunit : unitAfter? exponent = some exponent := by
      refine unitAfter?_eq_some.mpr ⟨[], by simp, rfl, ?_, ?_⟩
      · have hstarts : startsUnit letter = true := by
          rcases hletter with rfl | rfl <;> decide
        rw [hcons]
        exact hstarts
      · intro hmem
        exact absurd (hexponent.not_blank _ hmem) (by decide)
    rw [numberFirst?_eq hsign hmantissa hends hspan, unitAfter?_nil, hunit,
      if_neg (by simp [hcons])]
    rfl

theorem not_blank_alone (hsign : IsSign sign negative) (hmantissa : IsMantissaText mantissa)
    (hexponent : exponent = [] ∨ IsExponentText exponent) :
    ∀ c ∈ sign ++ (mantissa ++ exponent), isBlank c = false := by
  intro c hc
  rw [List.mem_append, List.mem_append] at hc
  rcases hc with hc | hc | hc
  · exact not_blank_of_isSign hsign c hc
  · rcases hmantissa.isDecimalDigit_or_point c hc with hdigit | rfl
    · exact isBlank_of_isDecimalDigit hdigit
    · decide
  · rcases hexponent with rfl | hexponent
    · cases hc
    · exact hexponent.not_blank c hc

/-! ### What is read -/

section Alone

variable (hsign : IsSign sign negative) (hmantissa : IsMantissaText mantissa)
  (hexponent : exponent = [] ∨ IsExponentText exponent)
  (hnumber : number.map commaToPoint = sign ++ (mantissa ++ exponent))
  (hbefore : ∀ c ∈ before, isBlank c = true) (hafter : ∀ c ∈ after, isBlank c = true)

include hsign hmantissa hexponent hnumber hbefore hafter

/-- Only the cut before the exponent can give a quantity. -/
theorem read_alone :
    read (String.ofList (before ++ number ++ after)) =
      match if exponent = [] then none else ofParts? (sign ++ mantissa, exponent) with
      | some q => .ok q
      | none => .error (.unreadable (String.ofList number)) := by
  have hblank : ∀ c ∈ number, isBlank c = false := by
    intro c hc
    rw [← isBlank_commaToPoint]
    refine not_blank_alone hsign hmantissa hexponent _ ?_
    rw [← hnumber]
    exact List.mem_map_of_mem hc
  have hne : number ≠ [] := by
    rintro rfl
    simp [hmantissa.ne_nil] at hnumber
  rw [read_append hbefore hafter hne (fun c hc => hblank c (List.mem_of_mem_head? hc))
    fun c hc => hblank c (List.mem_of_getLast? hc), hnumber,
    numberFirst?_alone hsign hmantissa hexponent,
    numberLast?_of_no_blank (not_blank_alone hsign hmantissa hexponent), Option.bind_none]
  by_cases hnone : exponent = []
  · rw [if_pos hnone, if_pos hnone]
    rfl
  · rw [if_neg hnone, if_neg hnone, Option.bind_some]
    cases ofParts? (sign ++ mantissa, exponent) <;> rfl

/--
**A number alone is refused, unless it has an exponent.**  A number without an exponent is reported
as it was written, whatever blanks are around it.  If it has an exponent and a value, it is read
without the exponent, and the exponent is taken for its unit.
-/
theorem readQuantity_number :
    ((exponent = [] ∨ ∀ x, ¬ IsNumeral (sign ++ mantissa) x) →
      Plan.readQuantity (String.ofList (before ++ number ++ after)) =
        .error (.validation
          ("Could not parse quantity from text: " ++ String.ofList number))) ∧
    (exponent ≠ [] → ∀ x, IsNumeral (sign ++ mantissa) x → ∃ v, Double.Rounds x v ∧
      Plan.readQuantity (String.ofList (before ++ number ++ after)) =
        .ok ⟨v, String.ofList exponent⟩) := by
  unfold Plan.readQuantity
  rw [read_alone hsign hmantissa hexponent hnumber hbefore hafter]
  constructor
  · intro hnone
    have hvalue : (if exponent = [] then none else ofParts? (sign ++ mantissa, exponent)) = none := by
      rcases hnone with hnone | hnone
      · exact if_pos hnone
      · cases hparts : ofParts? (sign ++ mantissa, exponent) with
        | none => exact ite_self none
        | some q =>
            obtain ⟨x, hnumeral, -⟩ := exists_of_ofParts? hparts
            exact absurd hnumeral (hnone x)
    rw [hvalue]
    rfl
  · intro hexp x hnumeral
    obtain ⟨n, hread, rfl⟩ := isNumeral_iff_read?.mp hnumeral
    have hblank := (hexponent.resolve_left hexp).not_blank
    refine ⟨n.toDouble, n.rounds_toDouble, ?_⟩
    rw [if_neg hexp, ofParts?_of_read? hread (fun c hc => hblank c (List.mem_of_mem_head? hc))
      fun c hc => hblank c (List.mem_of_getLast? hc)]
    rfl

end Alone

/-- The exponent of a number after blanks is its unit, and a number without one is refused. -/
theorem readQuantity_two_numbers :
    Plan.readQuantity "\t-1,5 " =
        .error (.validation "Could not parse quantity from text: -1,5") ∧
      ∃ v, Double.Rounds (-3 / 2) v ∧ Plan.readQuantity "\t-1,5E+3" = .ok ⟨v, "E+3"⟩ := by
  have hmantissa : IsMantissaText ['1', '.', '5'] :=
    .pointed (.inl (List.cons_ne_nil '1' [])) (by simp [isDecimalDigit]) (by simp [isDecimalDigit])
  have hexponent : IsExponentText ['E', '+', '3'] :=
    .power (.inr rfl) .plus (List.cons_ne_nil '3' []) (by simp [isDecimalDigit])
  have hnumeral : IsNumeral ['-', '1', '.', '5'] (-3 / 2) := by
    refine isNumeral_iff_read?.mpr ⟨⟨true, ['1'], ['5'], 0⟩, by decide, ?_⟩
    have hnatOf : natOf (['1'] ++ ['5']) = 15 := by decide
    rw [number, hnatOf]
    norm_num
  have hbefore : ∀ c ∈ ['\t'], isBlank c = true := by simp [isBlank]
  constructor
  · have hnumber : ['-', '1', ',', '5'].map commaToPoint = ['-'] ++ (['1', '.', '5'] ++ []) := by
      decide
    have hafter : ∀ c ∈ [' '], isBlank c = true := by simp [isBlank]
    exact (readQuantity_number .minus hmantissa (.inl rfl) hnumber hbefore hafter).1 (.inl rfl)
  · have hnumber : ['-', '1', ',', '5', 'E', '+', '3'].map commaToPoint =
        ['-'] ++ (['1', '.', '5'] ++ ['E', '+', '3']) := by
      decide
    have hafter : ∀ c ∈ ([] : List Char), isBlank c = true := by simp
    exact (readQuantity_number .minus hmantissa (.inr hexponent) hnumber hbefore hafter).2
      (by decide) _ hnumeral

/-- A number alone can be read, and then not as the number it is. -/
theorem exponent_taken_for_unit :
    IsNumeral "1e5".toList 100000 ∧ Plan.readQuantity "1e5" = .ok ⟨1.0, "e5"⟩ := by
  refine ⟨isNumeral_iff_read?.mpr ⟨⟨false, ['1'], [], 5⟩, by decide, ?_⟩, by decide +kernel⟩
  have hnatOf : natOf (['1'] ++ []) = 1 := by decide
  rw [number, hnatOf]
  norm_num

end Reckoner.Quantity
