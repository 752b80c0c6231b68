/-
Division to the nearest natural number.

Every inexact step of the library ends here: a binary result is rounded to 53 bits
and a decimal one to its last digit by the same rule, the nearest quotient and, of
two equally near, the even one.
-/

namespace Reckoner

/-- The natural number nearest to `num / den`; a half goes to the even neighbour. -/
def divNearest (num den : Nat) : Nat :=
  let quotient := num / den
  let rest := num % den
  if 2 * rest < den then quotient
  else if den < 2 * rest then quotient + 1
  else quotient + quotient % 2

/-- The nearest quotient is the floor or its successor. -/
theorem divNearest_eq_or (num den : Nat) :
    divNearest num den = num / den ∨ divNearest num den = num / den + 1 := by
  unfold divNearest
  simp only
  split
  · exact Or.inl rfl
  · split
    · exact Or.inr rfl
    · have : num / den % 2 < 2 := Nat.mod_lt _ (by decide)
      omega

/-- The nearest quotient is never below the floor. -/
theorem div_le_divNearest (num den : Nat) : num / den ≤ divNearest num den := by
  rcases divNearest_eq_or num den with h | h <;> omega

/-- The nearest quotient exceeds the floor by at most one. -/
theorem divNearest_le (num den : Nat) : divNearest num den ≤ num / den + 1 := by
  rcases divNearest_eq_or num den with h | h <;> omega

end Reckoner
