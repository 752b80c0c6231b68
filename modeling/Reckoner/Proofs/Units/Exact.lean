/-
Conversion without rounding.

In exact arithmetic the values of a unit correspond one to one to values in a base unit, and a
conversion goes to the base unit and from there to the target.  So nothing is lost on the way, and
a detour through other units ends where the direct way does.  That is how multiples, temperatures
and angles work.  Rates pass through their base unit as well, but nothing in a table of rates says
that its two columns are inverse to each other, and so only the detour through the base unit is
harmless.
-/
import Reckoner.Proofs.Units.Range

namespace Reckoner

section Exact

variable {α : Type} [DivisionRing α] [CharZero α]

/-! ### Units and their base -/

theorem TemperatureScale.ofCelsius_toCelsius (s : TemperatureScale) (t : α) :
    s.ofCelsius (s.toCelsius t) = t := by
  cases s with
  | celsius => rfl
  | fahrenheit =>
      rw [toCelsius, ofCelsius]
      norm_num
  | kelvin =>
      rw [toCelsius, ofCelsius]
      norm_num

theorem TemperatureScale.toCelsius_ofCelsius (s : TemperatureScale) (t : α) :
    s.toCelsius (s.ofCelsius t) = t := by
  cases s with
  | celsius => rfl
  | fahrenheit =>
      rw [toCelsius, ofCelsius]
      norm_num
  | kelvin =>
      rw [toCelsius, ofCelsius]
      norm_num

/-- Temperatures on a scale and in degrees Celsius. -/
def TemperatureScale.equivCelsius (s : TemperatureScale) : α ≃ α :=
  ⟨s.toCelsius, s.ofCelsius, s.ofCelsius_toCelsius, s.toCelsius_ofCelsius⟩

/-- Angles in a unit and in degrees; in radians half a turn stands for 180 of them. -/
def AngleUnit.equivDegree {halfTurn : α} (h : halfTurn ≠ 0) : AngleUnit → (α ≃ α)
  | degree => .refl α
  | radian => (Equiv.mulRight₀ 180 (by norm_num)).trans (Equiv.mulRight₀ halfTurn h).symm

theorem AngleUnit.convert_eq {halfTurn : α} (h : halfTurn ≠ 0) (source target : AngleUnit) (a : α) :
    source.convert halfTurn target a = (target.equivDegree h).symm (source.equivDegree h a) := by
  cases source with
  | degree =>
      cases target with
      | degree => rfl
      | radian =>
          change a * halfTurn / 180.0 = a * halfTurn * 180⁻¹
          rw [div_eq_mul_inv]
          norm_num
  | radian =>
      cases target with
      | degree =>
          change a * 180.0 / halfTurn = a * 180 * halfTurn⁻¹
          rw [div_eq_mul_inv]
          norm_num
      | radian => exact ((AngleUnit.radian.equivDegree h).symm_apply_apply a).symm

namespace ArithmeticRule

/-- The constants of a rule by which it divides are not zero, and its units have a common base. -/
def IsLossless : ArithmeticRule α → Prop
  | linear factors => ∀ f ∈ factors, f ≠ 0
  | temperature _ => True
  | angle halfTurn _ => halfTurn ≠ 0
  | rate _ => False

/-- Rates have a base unit as their first one, whose factors are both 1, and no rate is divided by
zero. -/
def HasBase : ArithmeticRule α → Prop
  | rate factors => (∀ f ∈ factors, f.toBase ≠ 0) ∧
      ∃ base, factors[0]? = some base ∧ base.toBase = 1 ∧ base.fromBase = 1
  | _ => False

/-- A conversion goes through the base of the units. -/
theorem exists_equiv {rule : ArithmeticRule α} (h : rule.IsLossless) :
    ∃ base : Fin rule.size → (α ≃ α), ∀ (source target : Fin rule.size) (v : α),
      rule.convert source target v = (base target).symm (base source v) := by
  cases rule with
  | linear factors =>
      have hne : ∀ i : Fin factors.length, factors.get i ≠ 0 := fun i => h _ (List.get_mem _ _)
      refine ⟨fun i => Equiv.mulRight₀ (factors.get i) (hne i), ?_⟩
      intro source target v
      exact div_eq_mul_inv _ _
  | temperature scales => exact ⟨fun i => (scales.get i).equivCelsius, fun _ _ _ => rfl⟩
  | angle halfTurn units =>
      exact ⟨fun i => (units.get i).equivDegree h,
        fun source target v => AngleUnit.convert_eq h (units.get source) (units.get target) v⟩
  | rate factors => exact absurd h id

variable {rule : ArithmeticRule α}

/-- A detour through one unit changes nothing. -/
theorem convert_convert (h : rule.IsLossless) (a b c : Fin rule.size) (v : α) :
    rule.convert b c (rule.convert a b v) = rule.convert a c v := by
  obtain ⟨base, hbase⟩ := exists_equiv h
  rw [hbase, hbase, hbase, Equiv.apply_symm_apply]

theorem convert_self (h : rule.IsLossless) (a : Fin rule.size) (v : α) :
    rule.convert a a v = v := by
  obtain ⟨base, hbase⟩ := exists_equiv h
  rw [hbase, Equiv.symm_apply_apply]

/-- A value converted from one unit to the next along a path. -/
def detour (rule : ArithmeticRule α) (source : Fin rule.size) :
    List (Fin rule.size) → Fin rule.size → α → α
  | [], target, v => rule.convert source target v
  | next :: path, target, v => detour rule next path target (rule.convert source next v)

/-- A path ends where the direct way does. -/
theorem detour_eq (h : rule.IsLossless) (path : List (Fin rule.size)) :
    ∀ (a c : Fin rule.size) (v : α), rule.detour a path c v = rule.convert a c v := by
  induction path with
  | nil =>
      intro a c v
      rfl
  | cons b path ih =>
      intro a c v
      rw [detour, ih, convert_convert h]

omit [CharZero α] in
/-- A rate passes through the base unit. -/
theorem HasBase.exists_base (h : rule.HasBase) :
    ∃ base : Fin rule.size, base.val = 0 ∧ ∀ (a c : Fin rule.size) (v : α),
      rule.convert a c v = rule.convert base c (rule.convert a base v) := by
  cases rule with
  | rate factors =>
      obtain ⟨-, base, hbase, hto, hfrom⟩ := h
      obtain ⟨hsize, rfl⟩ := List.getElem?_eq_some_iff.mp hbase
      refine ⟨⟨0, hsize⟩, rfl, ?_⟩
      intro a c v
      change v / (factors.get a).toBase * (factors.get c).fromBase =
        v / (factors.get a).toBase * factors[0].fromBase / factors[0].toBase *
          (factors.get c).fromBase
      rw [hto, hfrom, mul_one, div_one]
  | linear factors => exact absurd h id
  | temperature scales => exact absurd h id
  | angle halfTurn units => exact absurd h id

end ArithmeticRule

end Exact

/-! ### The catalog -/

/-- A proper divisor is a number other than zero. -/
theorem RuleStep.number_ne_zero_of_isProper {c : Double} (h : (RuleStep.div c).isProper = true) :
    c.number ≠ 0 := by
  rw [isProper, Bool.and_eq_true, Bool.not_eq_true'] at h
  exact number_ne_zero h.1 h.2

namespace ArithmeticRule

/-- The same rule for other numbers. -/
def map {α β : Type} (f : α → β) : ArithmeticRule α → ArithmeticRule β
  | linear factors => linear (factors.map f)
  | temperature scales => temperature scales
  | angle halfTurn units => angle (f halfTurn) units
  | rate factors => rate (factors.map fun r => ⟨f r.toBase, f r.fromBase⟩)

/-- Whether no constant of a rule by which it divides is zero or infinite, and rates have a base
unit as their first one. -/
def isRegular : ArithmeticRule Double → Bool
  | linear factors => factors.all fun f => (RuleStep.div f).isProper
  | temperature _ => true
  | angle halfTurn _ => (RuleStep.div halfTurn).isProper
  | rate [] => false
  | rate (base :: rest) => decide (base.toBase = 1.0 ∧ base.fromBase = 1.0) &&
      (base :: rest).all fun r => (RuleStep.div r.toBase).isProper

/-- The exact values of a regular rule's constants are those of a rule that loses nothing, or of
one with a base. -/
theorem exact_of_isRegular {rule : ArithmeticRule Double} (h : rule.isRegular = true) :
    (rule.map Double.number).IsLossless ∨ (rule.map Double.number).HasBase := by
  cases rule with
  | linear factors =>
      refine .inl ?_
      intro x hx
      obtain ⟨f, hf, rfl⟩ := List.mem_map.mp hx
      exact RuleStep.number_ne_zero_of_isProper (List.all_eq_true.mp h f hf)
  | temperature scales => exact .inl trivial
  | angle halfTurn units => exact .inl (RuleStep.number_ne_zero_of_isProper h)
  | rate factors =>
      cases factors with
      | nil => cases h
      | cons base rest =>
          rw [isRegular, Bool.and_eq_true] at h
          obtain ⟨hto, hfrom⟩ := of_decide_eq_true h.1
          refine .inr ⟨?_, ⟨base.toBase.number, base.fromBase.number⟩, rfl, ?_, ?_⟩
          · intro x hx
            obtain ⟨r, hr, rfl⟩ := List.mem_map.mp hx
            exact RuleStep.number_ne_zero_of_isProper (List.all_eq_true.mp h.2 r hr)
          · dsimp only
            rw [hto, Double.number_one]
          · dsimp only
            rw [hfrom, Double.number_one]

end ArithmeticRule

/-- Whether a rule is regular if it is one of arithmetic. -/
def ConversionRule.isRegular : ConversionRule → Bool
  | arithmetic rule => rule.isRegular
  | soundLevel _ _ => true

theorem Category.isRegular_rule (c : Category) : c.rule.isRegular = true := by
  revert c
  decide +kernel

/--
**Exact conversions lose nothing.**  Over the rational or the real numbers, or any other division
ring of characteristic zero, a rule of multiples that are not zero, of temperatures or of angles
takes a value along any path of units to where the direct conversion takes it, and back to itself in
its own unit.  A rate can take the way through the base unit.  The exact values of the constants in
the catalog are of one of these two kinds.
-/
theorem exact_conversions {α : Type} [DivisionRing α] [CharZero α] :
    (∀ rule : ArithmeticRule α, rule.IsLossless →
      (∀ (a b c : Fin rule.size) (v : α),
        rule.convert b c (rule.convert a b v) = rule.convert a c v ∧ rule.convert a a v = v) ∧
      ∀ (path : List (Fin rule.size)) (a c : Fin rule.size) (v : α),
        rule.detour a path c v = rule.convert a c v ∧ rule.detour a path a v = v) ∧
    (∀ rule : ArithmeticRule α, rule.HasBase →
      ∃ base : Fin rule.size, base.val = 0 ∧ ∀ (a c : Fin rule.size) (v : α),
        rule.convert a c v = rule.convert base c (rule.convert a base v)) ∧
    ∀ (c : Category) (rule : ArithmeticRule Double), c.rule = .arithmetic rule →
      (rule.map Double.number).IsLossless ∨ (rule.map Double.number).HasBase := by
  refine ⟨?_, fun rule h => h.exists_base, ?_⟩
  · intro rule h
    refine ⟨?_, ?_⟩
    · intro a b c v
      exact ⟨ArithmeticRule.convert_convert h a b c v, ArithmeticRule.convert_self h a v⟩
    · intro path a c v
      have hback := ArithmeticRule.detour_eq h path a a v
      rw [ArithmeticRule.convert_self h a v] at hback
      exact ⟨ArithmeticRule.detour_eq h path a c v, hback⟩
  · intro c rule h
    have hregular := c.isRegular_rule
    rw [h] at hregular
    exact ArithmeticRule.exact_of_isRegular hregular

/-- A length comes back by way of two other units.  A rate passes through the base unit even where
the two factors of its unit do not undo each other; here both multiply by sixty.  The speeds of
rotation in the catalog are one of the two. -/
theorem exact_conversions_metre :
    (ArithmeticRule.linear [1, 1000, 1 / 100] : ArithmeticRule ℚ).detour (0 : Fin 3)
        ([1, 2] : List (Fin 3)) (0 : Fin 3) 5 = 5 ∧
      (∃ base : Fin 2, base.val = 0 ∧ ∀ (a c : Fin 2) (v : ℚ),
        (ArithmeticRule.rate [⟨1, 1⟩, ⟨1 / 60, 60⟩]).convert a c v =
          (ArithmeticRule.rate [⟨1, 1⟩, ⟨1 / 60, 60⟩]).convert base c
            ((ArithmeticRule.rate [⟨1, 1⟩, ⟨1 / 60, 60⟩]).convert a base v)) ∧
      (ArithmeticRule.rate [⟨1, 1⟩, ⟨1 / 60, 60⟩] : ArithmeticRule ℚ).convert (1 : Fin 2)
        (1 : Fin 2) 1 = 3600 ∧
      ∃ rule, Category.rpm.rule = .arithmetic rule ∧
        ((rule.map Double.number).IsLossless ∨ (rule.map Double.number).HasBase) := by
  obtain ⟨hlossless, hrate, hcatalog⟩ := exact_conversions (α := ℚ)
  have hfactors : (ArithmeticRule.linear [1, 1000, 1 / 100] : ArithmeticRule ℚ).IsLossless := by
    simp [ArithmeticRule.IsLossless]
  have hbase : (ArithmeticRule.rate [⟨1, 1⟩, ⟨1 / 60, 60⟩] : ArithmeticRule ℚ).HasBase := by
    simp [ArithmeticRule.HasBase]
  obtain ⟨rule, hrule⟩ := Category.exists_arithmetic (c := .rpm) (by decide)
  refine ⟨((hlossless _ hfactors).2 _ (0 : Fin 3) (0 : Fin 3) 5).2, hrate _ hbase, ?_, rule, hrule,
    hcatalog .rpm rule hrule⟩
  change (1 : ℚ) / (1 / 60) * 60 = 3600
  norm_num

end Reckoner
