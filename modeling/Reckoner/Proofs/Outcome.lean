/-
Computations that may fail.

A computation in steps succeeds when each step does, and that is how a successful one is
taken apart.  Counting its errors as failures commutes with taking it in steps, so it does not
matter whether that is done at every step or once for the whole computation.
-/
import Reckoner.Failure

namespace Reckoner.Outcome

variable {ε α β : Type}

theorem ok_bind (a : α) (f : α → Except ε β) : (Except.ok a >>= f) = f a := rfl

/-- The steps of a computation that succeeds succeed. -/
theorem bind_eq_ok {x : Except ε α} {f : α → Except ε β} {b : β} :
    (x >>= f) = .ok b ↔ ∃ a, x = .ok a ∧ f a = .ok b := by
  cases x with
  | error e =>
      constructor
      · intro h
        cases h
      · rintro ⟨a, h, -⟩
        cases h
  | ok a =>
      constructor
      · intro h
        exact ⟨a, rfl, h⟩
      · rintro ⟨a', h, h'⟩
        cases h
        exact h'

/-- A computation fails at one of its steps. -/
theorem bind_eq_error {x : Except ε α} {f : α → Except ε β} {e : ε} :
    (x >>= f) = .error e ↔ x = .error e ∨ ∃ a, x = .ok a ∧ f a = .error e := by
  cases x with
  | error e' =>
      constructor
      · intro h
        cases h
        exact .inl rfl
      · rintro (h | ⟨a, h, -⟩)
        · cases h
          rfl
        · cases h
  | ok a =>
      constructor
      · intro h
        exact .inr ⟨a, rfl, h⟩
      · rintro (h | ⟨a', h, h'⟩)
        · cases h
        · cases h
          exact h'

theorem map_eq_ok {x : Except ε α} {f : α → β} {b : β} :
    x.map f = .ok b ↔ ∃ a, x = .ok a ∧ f a = b := by
  cases x with
  | error e => simp [Except.map]
  | ok a => simp [Except.map]

theorem map_eq_error {x : Except ε α} {f : α → β} {e : ε} :
    x.map f = .error e ↔ x = .error e := by
  cases x with
  | error e' => simp [Except.map]
  | ok a => simp [Except.map]

/-! ### What is left when errors are not told apart -/

theorem toOption_eq_some {x : Except ε α} {a : α} : x.toOption = some a ↔ x = .ok a := by
  cases x <;> simp [Except.toOption]

theorem toOption_eq_none {x : Except ε α} : x.toOption = none ↔ ∃ e, x = .error e := by
  cases x <;> simp [Except.toOption]

theorem toOption_map (x : Except ε α) (f : α → β) : (x.map f).toOption = x.toOption.map f := by
  cases x <;> rfl

/-! ### Folds -/

/-- A fold that fails does so at one of its steps, and all steps before that one succeed. -/
theorem foldlM_eq_error {f : β → α → Except ε β} {e : ε} :
    ∀ (xs : List α) {b : β}, xs.foldlM f b = .error e →
      ∃ before x after b', xs = before ++ x :: after ∧ before.foldlM f b = .ok b' ∧
        f b' x = .error e := by
  intro xs
  induction xs with
  | nil =>
      intro b h
      cases h
  | cons x xs ih =>
      intro b h
      rw [List.foldlM_cons] at h
      cases hx : f b x with
      | error e' =>
          rw [hx] at h
          cases h
          exact ⟨[], x, xs, b, rfl, rfl, hx⟩
      | ok b₁ =>
          rw [hx] at h
          obtain ⟨before, y, after, b', rfl, hbefore, hy⟩ := ih h
          refine ⟨x :: before, y, after, b', rfl, ?_, hy⟩
          rw [List.foldlM_cons, hx]
          exact hbefore

/-! ### Errors counted as failures -/

theorem lift_pure (cause : ε → Failure) (a : α) :
    Failure.lift cause (pure a) = pure a := rfl

theorem lift_bind (cause : ε → Failure) (x : Except ε α) (f : α → Except ε β) :
    Failure.lift cause (x >>= f) = Failure.lift cause x >>= fun a => Failure.lift cause (f a) := by
  cases x <;> rfl

theorem map_lift (cause : ε → Failure) (x : Except ε α) (f : α → β) :
    (Failure.lift cause x).map f = Failure.lift cause (x >>= fun a => pure (f a)) := by
  cases x <;> rfl

end Reckoner.Outcome
