/-
Rules of conversion.

A rule knows how the units of one category are related and converts between two of them,
given by their positions.  Most rules use nothing but the four operations of arithmetic,
and are stated for any kind of number, so that what holds of exact arithmetic can be told
apart from what rounding does.  Levels in decibels need a logarithm and are stated for
double precision alone.

Positions are bounded by the number of units that a rule has data for, so no rule can be
asked for a unit it does not know.
-/
import Reckoner.Double.Bits
import Reckoner.Units.Error

namespace Reckoner

/-! ### Units and what is known about them -/

/-- A temperature scale. -/
inductive TemperatureScale where
  | celsius
  | fahrenheit
  | kelvin
  deriving DecidableEq, Repr

/-- A unit of angle. -/
inductive AngleUnit where
  | degree
  | radian
  deriving DecidableEq, Repr

/-- A way of stating how loud a sound is. -/
inductive SoundMeasure where
  /-- Power per area. -/
  | intensity
  /-- Decibels above the reference intensity. -/
  | level
  deriving DecidableEq, Repr

/-- The two factors of a unit of rate; one is meant to be the reciprocal of the other. -/
structure RateFactors (α : Type) where
  /-- What a rate is divided by to have it in the base unit. -/
  toBase : α
  /-- What a rate in the base unit is multiplied by. -/
  fromBase : α

/-! ### Rules of arithmetic -/

/-- A rule that needs the four operations only. -/
inductive ArithmeticRule (α : Type) where
  /-- Every unit is a multiple of a base unit. -/
  | linear (factors : List α)
  /-- Scales that differ in their zero and in their degree. -/
  | temperature (scales : List TemperatureScale)
  /-- Angles, given the number that is half a turn in radians. -/
  | angle (halfTurn : α) (units : List AngleUnit)
  /-- Rates, which pass through a base unit. -/
  | rate (factors : List (RateFactors α))

section Exact

variable {α : Type} [Add α] [Sub α] [Mul α] [Div α] [OfScientific α]

namespace TemperatureScale

/-- A temperature on this scale, in degrees Celsius. -/
def toCelsius : TemperatureScale → α → α
  | celsius, t => t
  | fahrenheit, t => (t - 32.0) * 5.0 / 9.0
  | kelvin, t => t - 273.15

/-- A temperature in degrees Celsius, on this scale; boiling water is exactly 212 °F. -/
def ofCelsius : TemperatureScale → α → α
  | celsius, t => t
  | fahrenheit, t => t * 9.0 / 5.0 + 32.0
  | kelvin, t => t + 273.15

end TemperatureScale

/-- An angle in another unit. -/
def AngleUnit.convert (halfTurn : α) : AngleUnit → AngleUnit → α → α
  | degree, radian, a => a * halfTurn / 180.0
  | radian, degree, a => a * 180.0 / halfTurn
  | _, _, a => a

namespace ArithmeticRule

/-- The number of units a rule has data for. -/
def size : ArithmeticRule α → Nat
  | linear factors => factors.length
  | temperature scales => scales.length
  | angle _ units => units.length
  | rate factors => factors.length

/-- A value in one unit, converted to another. -/
def convert : (rule : ArithmeticRule α) → (source target : Fin rule.size) → α → α
  | linear factors, source, target, v => v * factors.get source / factors.get target
  | temperature scales, source, target, v =>
    (scales.get target).ofCelsius ((scales.get source).toCelsius v)
  | angle halfTurn units, source, target, v =>
    (units.get source).convert halfTurn (units.get target) v
  | rate factors, source, target, v =>
    v / (factors.get source).toBase * (factors.get target).fromBase

end ArithmeticRule

end Exact

/-! ### All rules -/

/-- The intensity of a sound at level zero, in watts per square metre. -/
def referenceIntensity : Double := 1e-12

/-- How the units of a category are related. -/
inductive ConversionRule where
  /-- By arithmetic alone. -/
  | arithmetic (rule : ArithmeticRule Double)
  /-- By ten times the decimal logarithm of an intensity over the reference. -/
  | soundLevel (measures : List SoundMeasure) (reference : Double)

/-- How loud a sound is, stated in another measure. -/
def SoundMeasure.convert (reference : Double) :
    SoundMeasure → SoundMeasure → Double → Except ConversionError Double
  | intensity, level, v =>
    if v ≤ 0.0 then .error .nonPositiveIntensity else .ok (10.0 * (v / reference).log10)
  | level, intensity, v => .ok (reference * (10.0 : Double).pow (v / 10.0))
  | _, _, v => .ok v

namespace ConversionRule

/-- The number of units a rule has data for. -/
def size : ConversionRule → Nat
  | arithmetic rule => rule.size
  | soundLevel measures _ => measures.length

/-- The name of the kind of rule. -/
def kind : ConversionRule → String
  | arithmetic (.linear _) => "linear"
  | arithmetic (.temperature _) => "affine"
  | arithmetic (.angle _ _) => "angle"
  | arithmetic (.rate _) => "base_rate"
  | soundLevel _ _ => "logarithmic"

/-- A value in one unit, converted to another. -/
def convert : (rule : ConversionRule) → (source target : Fin rule.size) → Double →
    Except ConversionError Double
  | arithmetic rule, source, target, v => .ok (rule.convert source target v)
  | soundLevel measures reference, source, target, v =>
    (measures.get source).convert reference (measures.get target) v

end ConversionRule

end Reckoner
