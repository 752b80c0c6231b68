/-
When a conversion leaves the range of the format.

Each rule of arithmetic is a chain of operations by constants.  An operation by a constant that is
neither zero nor infinite gives a finite result exactly if its operand is finite and its exact
result is below the limit of the format; so a conversion is finite exactly if none of its steps
overflows, and an overflow on the way stays in the result, even where the result would have been in
range.  A conversion multiplies by no more than `2 ^ 43`, the number of bits in a tebibyte, and no
value up to `2 ^ 980` is too large for it.
-/
import Reckoner.Proofs.Double.Arithmetic
import Reckoner.Proofs.Units.Conversion

namespace Reckoner

open Double

/-! ### Operations by constants -/

/-- One operation of a rule, by a constant. -/
inductive RuleStep where
  | mul (c : Double)
  | div (c : Double)
  | add (c : Double)
  | sub (c : Double)

namespace RuleStep

variable {s : RuleStep} {steps : List RuleStep} {x : Double}

/-- What the operation gives. -/
def apply : RuleStep → Double → Double
  | mul c, x => x * c
  | div c, x => x / c
  | add c, x => x + c
  | sub c, x => x - c

/-- What the operation would give without rounding. -/
def exact : RuleStep → Double → ℚ
  | mul c, x => x.number * c.number
  | div c, x => x.number / c.number
  | add c, x => x.number + c.number
  | sub c, x => x.number - c.number

/-- Whether the constant is one by which an infinity remains an infinity. -/
def isProper : RuleStep → Bool
  | mul c | div c => c.isFinite && !c.isZero
  | add c | sub c => c.isFinite

theorem number_ne_zero {c : Double} (hc : c.isFinite = true) (h0 : c.isZero = false) :
    c.number ≠ 0 := by
  cases c with
  | finite negative m =>
      have hm : m.significand ≠ 0 := by simpa [isZero] using h0
      rw [← abs_pos, abs_number_finite]
      exact Magnitude.number_pos hm
  | _ => cases hc

theorem rounds_apply (hs : s.isProper = true) (hx : x.isFinite = true) :
    Rounds (s.exact x) (s.apply x) := by
  cases s with
  | mul c =>
      rw [isProper, Bool.and_eq_true] at hs
      exact rounds_mul hx hs.1
  | div c =>
      rw [isProper, Bool.and_eq_true] at hs
      exact rounds_div hx hs.1 (number_ne_zero hs.1 (by simpa using hs.2))
  | add c => exact rounds_add hx hs
  | sub c => exact rounds_sub hx hs

/-- An infinity remains an infinity. -/
theorem apply_infinite (hs : s.isProper = true) (negative : Bool) :
    ∃ negative', s.apply (.infinite negative) = .infinite negative' := by
  cases s with
  | mul c =>
      cases c with
      | finite t n =>
          have hn : n.significand ≠ 0 := by simpa [isProper, isFinite, isZero] using hs
          exact ⟨negative ^^ t, if_neg hn⟩
      | _ => cases hs
  | div c =>
      cases c with
      | finite t n => exact ⟨negative ^^ t, rfl⟩
      | _ => cases hs
  | add c | sub c =>
      cases c with
      | finite t n => exact ⟨negative, rfl⟩
      | _ => cases hs

theorem apply_nan (hs : s.isProper = true) : s.apply .nan = .nan := by
  cases s with
  | mul c | div c => rfl
  | add c | sub c => rfl

/-- The operation gives a finite number exactly if its operand is one and nothing overflows. -/
theorem isFinite_apply_iff (hs : s.isProper = true) :
    (s.apply x).isFinite = true ↔ x.isFinite = true ∧ |s.exact x| < limit := by
  cases x with
  | nan => simp [apply_nan hs, isFinite]
  | infinite negative =>
      obtain ⟨negative', h⟩ := apply_infinite hs negative
      simp [h, isFinite]
  | finite negative m =>
      rw [(rounds_apply hs rfl).isFinite_iff]
      simp [isFinite]

theorem apply_ne_nan (hs : s.isProper = true) (hx : x ≠ .nan) : s.apply x ≠ .nan := by
  cases x with
  | nan => exact absurd rfl hx
  | infinite negative =>
      obtain ⟨negative', h⟩ := apply_infinite hs negative
      simp [h]
  | finite negative m => exact (rounds_apply hs rfl).ne_nan

/-! ### Chains of operations -/

/-- What the operations give one after the other. -/
def run (steps : List RuleStep) (x : Double) : Double := steps.foldl (fun x s => s.apply x) x

/-- No operation overflows. -/
def InRange : List RuleStep → Double → Prop
  | [], _ => True
  | s :: rest, x => |s.exact x| < limit ∧ InRange rest (s.apply x)

/-- An overflow on the way stays in the result. -/
theorem isFinite_run_iff (hsteps : ∀ s ∈ steps, s.isProper = true) :
    (run steps x).isFinite = true ↔ x.isFinite = true ∧ InRange steps x := by
  induction steps generalizing x with
  | nil => simp [run, InRange]
  | cons s rest ih =>
      have hs := hsteps s List.mem_cons_self
      have hrest : ∀ s ∈ rest, s.isProper = true := fun s h => hsteps s (List.mem_cons_of_mem _ h)
      change (run rest (s.apply x)).isFinite = true ↔ _
      rw [ih hrest, isFinite_apply_iff hs, InRange, and_assoc]

theorem run_ne_nan (hsteps : ∀ s ∈ steps, s.isProper = true) (hx : x ≠ .nan) :
    run steps x ≠ .nan := by
  induction steps generalizing x with
  | nil => exact hx
  | cons s rest ih =>
      have hs := hsteps s List.mem_cons_self
      exact ih (fun s h => hsteps s (List.mem_cons_of_mem _ h)) (apply_ne_nan hs hx)

/-! ### How much a chain can add to the size of a number -/

/-- The least `k` such that a number is at most `2 ^ k`. -/
def bitsAbove : Double → Nat
  | .finite _ m => (m.units - 1).log2 + 1 - 1074
  | _ => 0

/-- The least `k` such that a number is at least `2 ^ -k`. -/
def bitsBelow : Double → Nat
  | .finite _ m => 1074 - m.units.log2
  | _ => 0

/-- A number of bits by which the operation makes a number longer at most. -/
def growth : RuleStep → Nat
  | mul c => bitsAbove c
  | div c => bitsBelow c
  | add c | sub c => bitsAbove c + 1

theorem abs_number_le_bitsAbove (c : Double) : |c.number| ≤ 2 ^ bitsAbove c := by
  cases c with
  | finite negative m =>
      have hbits : bitsAbove (.finite negative m) = (m.units - 1).log2 + 1 - 1074 := rfl
      have hunits : m.units ≤ 2 ^ ((m.units - 1).log2 + 1) := by
        have := @Nat.lt_log2_self (m.units - 1)
        omega
      rw [abs_number_finite]
      refine le_of_mul_le_mul_right ?_ (by positivity : (0 : ℚ) < 2 ^ 1074)
      calc m.number * 2 ^ 1074 = m.units := m.units_eq.symm
        _ ≤ 2 ^ ((m.units - 1).log2 + 1) := by exact_mod_cast hunits
        _ ≤ 2 ^ (bitsAbove (.finite negative m) + 1074) :=
            pow_le_pow_right₀ one_le_two (by omega)
        _ = 2 ^ bitsAbove (.finite negative m) * 2 ^ 1074 := pow_add _ _ _
  | nan | infinite _ =>
      change |(0 : ℚ)| ≤ 2 ^ 0
      norm_num

theorem inv_abs_number_le_bitsBelow {c : Double} (hc : c.number ≠ 0) :
    |c.number|⁻¹ ≤ 2 ^ bitsBelow c := by
  cases c with
  | finite negative m =>
      rw [← abs_pos, abs_number_finite] at hc
      have hbits : bitsBelow (.finite negative m) = 1074 - m.units.log2 := rfl
      have hone : (0 : ℚ) < 2 ^ 1074 := by positivity
      have hunits : m.units ≠ 0 := by
        have : (0 : ℚ) < m.units := by
          rw [Magnitude.units_eq]
          exact mul_pos hc hone
        exact_mod_cast ne_of_gt this
      have hpow : (2 : ℚ) ^ 1074 ≤ m.units * 2 ^ bitsBelow (.finite negative m) := by
        calc (2 : ℚ) ^ 1074 ≤ 2 ^ (m.units.log2 + bitsBelow (.finite negative m)) :=
              pow_le_pow_right₀ one_le_two (by omega)
          _ = 2 ^ m.units.log2 * 2 ^ bitsBelow (.finite negative m) := pow_add _ _ _
          _ ≤ m.units * 2 ^ bitsBelow (.finite negative m) := by
              refine mul_le_mul_of_nonneg_right ?_ (by positivity)
              exact_mod_cast Nat.log2_self_le hunits
      rw [abs_number_finite, inv_le_iff_one_le_mul₀' hc]
      refine le_of_mul_le_mul_right ?_ hone
      rw [one_mul, mul_right_comm, ← Magnitude.units_eq]
      exact hpow
  | nan | infinite _ => exact absurd rfl hc

theorem abs_exact_le {n : ℕ} (hs : s.isProper = true) (hx : |x.number| ≤ 2 ^ n) :
    |s.exact x| ≤ 2 ^ (n + s.growth) := by
  -- A sum has at most one bit more than the longer of its terms.
  have hsum : ∀ c : Double, |x.number| + |c.number| ≤ 2 ^ (n + (bitsAbove c + 1)) := by
    intro c
    have hc := abs_number_le_bitsAbove c
    have hn : (2 : ℚ) ^ n ≤ 2 ^ (n + bitsAbove c) :=
      pow_le_pow_right₀ one_le_two (Nat.le_add_right _ _)
    have hbits : (2 : ℚ) ^ bitsAbove c ≤ 2 ^ (n + bitsAbove c) :=
      pow_le_pow_right₀ one_le_two (Nat.le_add_left _ _)
    rw [← Nat.add_assoc, pow_succ]
    linarith
  cases s with
  | mul c =>
      rw [exact, abs_mul, growth, pow_add]
      exact mul_le_mul hx (abs_number_le_bitsAbove c) (abs_nonneg _) (by positivity)
  | div c =>
      rw [isProper, Bool.and_eq_true] at hs
      have hc := number_ne_zero hs.1 (by simpa using hs.2)
      rw [exact, abs_div, div_eq_mul_inv, growth, pow_add]
      exact mul_le_mul hx (inv_abs_number_le_bitsBelow hc) (by positivity) (by positivity)
  | add c => exact le_trans (abs_add_le _ _) (hsum c)
  | sub c => exact le_trans (abs_sub _ _) (hsum c)

/-- Numbers that are not too large stay in range. -/
theorem inRange_of_abs_le {n : ℕ} (hsteps : ∀ s ∈ steps, s.isProper = true)
    (hx : x.isFinite = true) (hn : |x.number| ≤ 2 ^ n)
    (hgrowth : n + (steps.map growth).sum ≤ 1023) : InRange steps x := by
  induction steps generalizing x n with
  | nil => trivial
  | cons s rest ih =>
      have hs := hsteps s List.mem_cons_self
      rw [List.map_cons, List.sum_cons, ← Nat.add_assoc] at hgrowth
      have hle : n + s.growth ≤ 1023 := by omega
      have hexact := abs_exact_le hs hn
      have hlimit := lt_of_le_of_lt hexact (two_pow_lt_limit hle)
      refine ⟨hlimit, ih (fun s h => hsteps s (List.mem_cons_of_mem _ h)) ?_ ?_ hgrowth⟩
      · exact (isFinite_apply_iff hs).mpr ⟨hx, hlimit⟩
      · obtain ⟨m, hm⟩ := exists_number_eq_two_pow hle
        rw [← hm] at hexact ⊢
        exact (rounds_apply hs hx).abs_number_le hexact

end RuleStep

/-! ### Rules as chains of operations -/

namespace TemperatureScale

/-- How a temperature on this scale becomes one in degrees Celsius. -/
def stepsToCelsius : TemperatureScale → List RuleStep
  | celsius => []
  | fahrenheit => [.sub 32.0, .mul 5.0, .div 9.0]
  | kelvin => [.sub 273.15]

/-- How a temperature in degrees Celsius becomes one on this scale. -/
def stepsOfCelsius : TemperatureScale → List RuleStep
  | celsius => []
  | fahrenheit => [.mul 9.0, .div 5.0, .add 32.0]
  | kelvin => [.add 273.15]

end TemperatureScale

/-- How an angle becomes one in another unit. -/
def AngleUnit.steps (halfTurn : Double) : AngleUnit → AngleUnit → List RuleStep
  | degree, radian => [.mul halfTurn, .div 180.0]
  | radian, degree => [.mul 180.0, .div halfTurn]
  | _, _ => []

namespace ArithmeticRule

/-- How a value in one unit becomes one in another. -/
def steps : (rule : ArithmeticRule Double) → (source target : Fin rule.size) → List RuleStep
  | linear factors, source, target => [.mul (factors.get source), .div (factors.get target)]
  | temperature scales, source, target =>
    (scales.get source).stepsToCelsius ++ (scales.get target).stepsOfCelsius
  | angle halfTurn units, source, target => (units.get source).steps halfTurn (units.get target)
  | rate factors, source, target =>
    [.div (factors.get source).toBase, .mul (factors.get target).fromBase]

variable {rule : ArithmeticRule Double} {source target : Fin rule.size} {v : Double}

theorem convert_eq_run : rule.convert source target v = RuleStep.run (rule.steps source target) v := by
  cases rule with
  | linear factors => rfl
  | temperature scales =>
      change (scales.get target).ofCelsius ((scales.get source).toCelsius v) =
        RuleStep.run ((scales.get source).stepsToCelsius ++ (scales.get target).stepsOfCelsius) v
      cases scales.get source <;> cases scales.get target <;> rfl
  | angle halfTurn units =>
      change (units.get source).convert halfTurn (units.get target) v =
        RuleStep.run ((units.get source).steps halfTurn (units.get target)) v
      cases units.get source <;> cases units.get target <;> rfl
  | rate factors => rfl

theorem isFinite_convert_iff (h : ∀ s ∈ rule.steps source target, s.isProper = true) :
    (rule.convert source target v).isFinite = true ↔
      v.isFinite = true ∧ RuleStep.InRange (rule.steps source target) v := by
  rw [convert_eq_run, RuleStep.isFinite_run_iff h]

/-- From a number, arithmetic makes a number or an infinity. -/
theorem convert_ne_nan (h : ∀ s ∈ rule.steps source target, s.isProper = true)
    (hv : v.isFinite = true) : rule.convert source target v ≠ .nan := by
  rw [convert_eq_run]
  refine RuleStep.run_ne_nan h ?_
  rintro rfl
  cases hv

end ArithmeticRule

/-- What a measure of sound needs for a finite result: the elementary function has one, and the
operation after it does not overflow. -/
def SoundMeasure.InRange (reference : Double) : SoundMeasure → SoundMeasure → Double → Prop
  | intensity, level, v =>
    (v / reference).log10.isFinite = true ∧ RuleStep.InRange [.mul 10.0] (v / reference).log10
  | level, intensity, v =>
    ((10.0 : Double).pow (v / 10.0)).isFinite = true ∧
      RuleStep.InRange [.mul reference] ((10.0 : Double).pow (v / 10.0))
  | _, _, _ => True

namespace ConversionRule

/-- What a finite value needs for a finite result. -/
def InRange : (rule : ConversionRule) → (source target : Fin rule.size) → Double → Prop
  | arithmetic rule, source, target, v => RuleStep.InRange (rule.steps source target) v
  | soundLevel measures reference, source, target, v =>
    (measures.get source).InRange reference (measures.get target) v

/-- Whether all constants of a rule are proper, and no chain makes a number more than 43 bits
longer. -/
def isSteady : ConversionRule → Bool
  | arithmetic rule =>
    decide (∀ source target : Fin rule.size, (∀ s ∈ rule.steps source target, s.isProper = true) ∧
      ((rule.steps source target).map RuleStep.growth).sum ≤ 43)
  | soundLevel _ reference => (RuleStep.mul reference).isProper

end ConversionRule

/-! ### Results of rules -/

theorem Double.mul_comm (x y : Double) : x * y = y * x := by
  cases x with
  | nan => cases y <;> rfl
  | infinite s =>
      cases y with
      | nan => rfl
      | infinite t =>
          change infinite (s ^^ t) = infinite (t ^^ s)
          rw [Bool.xor_comm]
      | finite t n =>
          change (if _ then nan else infinite (s ^^ t)) = if _ then nan else infinite (t ^^ s)
          rw [Bool.xor_comm]
  | finite s m =>
      cases y with
      | nan => rfl
      | infinite t =>
          change (if _ then nan else infinite (s ^^ t)) = if _ then nan else infinite (t ^^ s)
          rw [Bool.xor_comm]
      | finite t n => rw [finite_mul, finite_mul, Bool.xor_comm, Nat.mul_comm]

namespace RuleStep

variable {c x : Double}

/-- A product with a constant in front is finite exactly if its operand is and it is in range. -/
theorem isFinite_mul_iff (hc : (RuleStep.mul c).isProper = true) :
    (c * x).isFinite = true ↔ x.isFinite = true ∧ InRange [.mul c] x := by
  rw [Double.mul_comm, ← isFinite_run_iff (by simpa using hc)]
  rfl

end RuleStep

namespace SoundMeasure

variable {reference v w : Double} {source target : SoundMeasure} {e : ConversionError}

theorem isFinite_convert_iff (hreference : (RuleStep.mul reference).isProper = true)
    (hv : v.isFinite = true) (h : source.convert reference target v = .ok w) :
    w.isFinite = true ↔ source.InRange reference target v := by
  cases source with
  | intensity =>
      cases target with
      | intensity =>
          cases h
          exact iff_of_true hv trivial
      | level =>
          rw [convert] at h
          split at h
          · cases h
          · rw [← Except.ok.inj h]
            exact RuleStep.isFinite_mul_iff (by decide +kernel)
  | level =>
      cases target with
      | intensity =>
          cases h
          exact RuleStep.isFinite_mul_iff hreference
      | level =>
          cases h
          exact iff_of_true hv trivial

theorem convert_eq_error_iff :
    source.convert reference target v = .error e ↔
      e = .nonPositiveIntensity ∧ source = .intensity ∧ target = .level ∧ v ≤ 0.0 := by
  cases source with
  | intensity =>
      cases target with
      | intensity => simp [convert]
      | level =>
          rw [convert]
          split <;> simp_all [eq_comm]
  | level => cases target <;> simp [convert]

end SoundMeasure

namespace ConversionRule

variable {rule : ConversionRule} {source target : Fin rule.size} {v w : Double}

/-- A finite value has a finite result exactly if nothing overflows. -/
theorem isFinite_convert_iff (hrule : rule.isSteady = true) (hv : v.isFinite = true)
    (h : rule.convert source target v = .ok w) :
    w.isFinite = true ↔ rule.InRange source target v := by
  cases rule with
  | arithmetic rule =>
      cases h
      have hsteady := of_decide_eq_true hrule source target
      exact (ArithmeticRule.isFinite_convert_iff hsteady.1).trans (and_iff_right hv)
  | soundLevel measures reference => exact SoundMeasure.isFinite_convert_iff hrule hv h

/-- Arithmetic has a result for every value, and that of a number is no NaN. -/
theorem exists_convert_of_arithmetic {r : ArithmeticRule Double} (hr : rule = .arithmetic r)
    (hrule : rule.isSteady = true) (hv : v.isFinite = true) (source target : Fin rule.size) :
    ∃ w, rule.convert source target v = .ok w ∧ w ≠ .nan := by
  subst hr
  have hsteady := of_decide_eq_true hrule source target
  exact ⟨_, rfl, ArithmeticRule.convert_ne_nan hsteady.1 hv⟩

/-- Only the largest numbers are too large for arithmetic. -/
theorem inRange_of_abs_le {r : ArithmeticRule Double} (hr : rule = .arithmetic r)
    (hrule : rule.isSteady = true) (hv : v.isFinite = true) (hsize : |v.number| ≤ 2 ^ 980) :
    rule.InRange source target v := by
  subst hr
  have hsteady := of_decide_eq_true hrule source target
  exact RuleStep.inRange_of_abs_le hsteady.1 hv hsize (by omega)

end ConversionRule

/-! ### Conversions -/

namespace Category

variable {c : Category} {i j : Nat} {v w : Double}

theorem isSteady_rule (c : Category) : c.rule.isSteady = true := by
  revert c
  decide +kernel

/-- All categories but one need nothing but arithmetic. -/
theorem exists_arithmetic (hc : c ≠ .soundIntensity) : ∃ r, c.rule = .arithmetic r := by
  cases c with
  | soundIntensity => exact absurd rfl hc
  | _ => exact ⟨_, rfl⟩

/-- What a finite value needs for a finite result: that it stays in its unit, or that nothing
overflows. -/
def InRange (c : Category) (source target : Nat) (v : Double) : Prop :=
  source = target ∨ ∃ (hs : source < c.rule.size) (ht : target < c.rule.size),
    c.rule.InRange ⟨source, hs⟩ ⟨target, ht⟩ v

theorem convertAt_eq (hv : v.isFinite = true) (hi : i < c.units.length) (hj : j < c.units.length) :
    c.convertAt i j v = if i = j then .ok v else c.applyRule i j hi hj v := by
  rw [convertAt, hv, dif_pos ⟨hi, hj⟩]
  rfl

theorem isFinite_of_convertAt (h : c.convertAt i j v = .ok w) : v.isFinite = true := by
  by_contra hv
  rw [convertAt_of_not_finite (by simpa using hv)] at h
  cases h

theorem isFinite_convertAt_iff (hv : v.isFinite = true) (hi : i < c.units.length)
    (hj : j < c.units.length) (h : c.convertAt i j v = .ok w) :
    w.isFinite = true ↔ c.InRange i j v := by
  rw [convertAt_eq hv hi hj] at h
  split at h
  · rename_i heq
    cases h
    exact iff_of_true hv (.inl heq)
  · rename_i hne
    rw [ConversionRule.isFinite_convert_iff c.isSteady_rule hv h, InRange, or_iff_right hne]
    exact ⟨fun h => ⟨_, _, h⟩, fun ⟨_, _, h⟩ => h⟩

/-- Of finite values, only intensities that are not positive have no result. -/
theorem convertAt_eq_error_iff {e : ConversionError} (hv : v.isFinite = true)
    (hi : i < c.units.length) (hj : j < c.units.length) :
    c.convertAt i j v = .error e ↔
      e = .nonPositiveIntensity ∧ c = .soundIntensity ∧ i = 0 ∧ j = 1 ∧ v ≤ 0.0 := by
  rw [convertAt_eq hv hi hj]
  by_cases hc : c = .soundIntensity
  · subst hc
    have hlength : soundIntensity.units.length = 2 := rfl
    obtain rfl | rfl : i = 0 ∨ i = 1 := by omega
    · obtain rfl | rfl : j = 0 ∨ j = 1 := by omega
      · simp
      · change SoundMeasure.convert referenceIntensity .intensity .level v = .error e ↔ _
        simp [SoundMeasure.convert_eq_error_iff]
    · obtain rfl | rfl : j = 0 ∨ j = 1 := by omega
      · change SoundMeasure.convert referenceIntensity .level .intensity v = .error e ↔ _
        simp [SoundMeasure.convert_eq_error_iff]
      · simp
  · obtain ⟨r, hr⟩ := exists_arithmetic hc
    obtain ⟨w, hw, -⟩ := ConversionRule.exists_convert_of_arithmetic hr c.isSteady_rule hv
      ⟨i, c.rule_size ▸ hi⟩ ⟨j, c.rule_size ▸ hj⟩
    rw [applyRule, hw]
    split <;> simp [hc]

/-- A finite value that arithmetic converts has a result, and if it is not finite then it is an
infinity. -/
theorem exists_convertAt (hc : c ≠ .soundIntensity) (hv : v.isFinite = true)
    (hi : i < c.units.length) (hj : j < c.units.length) :
    ∃ w, c.convertAt i j v = .ok w ∧ w ≠ .nan := by
  rw [convertAt_eq hv hi hj]
  split
  · refine ⟨v, rfl, ?_⟩
    rintro rfl
    cases hv
  · obtain ⟨r, hr⟩ := exists_arithmetic hc
    exact ConversionRule.exists_convert_of_arithmetic hr c.isSteady_rule hv _ _

/-- Arithmetic keeps values up to `2 ^ 980` in range. -/
theorem inRange_of_abs_le (hc : c ≠ .soundIntensity) (hv : v.isFinite = true)
    (hi : i < c.units.length) (hj : j < c.units.length) (hsize : |v.number| ≤ 2 ^ 980) :
    c.InRange i j v := by
  obtain ⟨r, hr⟩ := exists_arithmetic hc
  exact .inr ⟨c.rule_size ▸ hi, c.rule_size ▸ hj,
    ConversionRule.inRange_of_abs_le hr c.isSteady_rule hv hsize⟩

-- So many tebibytes, and only twice the bound, have too many bits.
example : Category.data.convertAt 17 0 (.ofNat (2 ^ 981)) = .ok (.infinite false) := by
  decide +kernel

end Category

end Reckoner
