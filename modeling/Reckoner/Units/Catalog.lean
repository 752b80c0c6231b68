/-
The catalog of units.

Each category lists its units in display order together with what its rule needs to know
about them, so that labels and data cannot get out of step: `CatalogEntry` carries a proof that the
rule covers every unit and no more.
-/
import Reckoner.Units.Category
import Reckoner.Units.Rule

-- Powers are the built-in ones, whatever other instances are in scope.
attribute [local instance (high)] instPowNat

namespace Reckoner

/-- The units of a category and the rule that relates them. -/
structure CatalogEntry where
  /-- The labels of the units in display order. -/
  units : List String
  /-- How the units are related. -/
  rule : ConversionRule
  /-- The rule has data for exactly these units. -/
  size_eq : rule.size = units.length

namespace CatalogEntry

/-- Units that are multiples of a base unit. -/
def linear (table : List (String × Double)) : CatalogEntry :=
  ⟨table.map Prod.fst, .arithmetic (.linear (table.map Prod.snd)), by
    simp [ConversionRule.size, ArithmeticRule.size]⟩

/-- Temperature scales. -/
def temperature (table : List (String × TemperatureScale)) : CatalogEntry :=
  ⟨table.map Prod.fst, .arithmetic (.temperature (table.map Prod.snd)), by
    simp [ConversionRule.size, ArithmeticRule.size]⟩

/-- Units of angle. -/
def angle (table : List (String × AngleUnit)) : CatalogEntry :=
  ⟨table.map Prod.fst, .arithmetic (.angle Double.pi (table.map Prod.snd)), by
    simp [ConversionRule.size, ArithmeticRule.size]⟩

/-- Units of rate. -/
def rate (table : List (String × RateFactors Double)) : CatalogEntry :=
  ⟨table.map Prod.fst, .arithmetic (.rate (table.map Prod.snd)), by
    simp [ConversionRule.size, ArithmeticRule.size]⟩

/-- Measures of sound. -/
def sound (table : List (String × SoundMeasure)) : CatalogEntry :=
  ⟨table.map Prod.fst, .soundLevel (table.map Prod.snd) referenceIntensity, by
    simp [ConversionRule.size]⟩

end CatalogEntry

namespace Catalog

/-- Lengths, in metres. -/
def length : CatalogEntry := .linear [
  ("meter (m)", 1.0),
  ("kilometer (km)", 1000.0),
  ("centimeter (cm)", 0.01),
  ("millimeter (mm)", 0.001),
  ("inch (in)", 0.0254),
  ("foot (ft)", 0.3048),
  ("yard (yd)", 0.9144),
  ("mile (mi)", 1609.344)]

/-- Masses, in kilograms. -/
def mass : CatalogEntry := .linear [
  ("kilogram (kg)", 1.0),
  ("gram (g)", 0.001),
  ("milligram (mg)", 1e-6),
  ("metric ton (t)", 1000.0),
  ("ounce (oz)", 0.028349523125),
  ("pound (lb)", 0.45359237),
  ("stone", 6.35029318)]

/-- Times, in seconds; a year has 365 days. -/
def time : CatalogEntry := .linear [
  ("second (s)", 1.0),
  ("minute (min)", 60.0),
  ("hour (h)", 3600.0),
  ("day", 86400.0),
  ("week", 604800.0),
  ("year", 31536000.0)]

/-- Temperatures. -/
def temperature : CatalogEntry := .temperature [
  ("kelvin (K)", .kelvin),
  ("Celsius (°C)", .celsius),
  ("Fahrenheit (°F)", .fahrenheit)]

/-- Areas, in square metres. -/
def area : CatalogEntry := .linear [
  ("square meter (m²)", 1.0),
  ("hectare (ha)", 10000.0),
  ("acre", 4046.8564224),
  ("square kilometer (km²)", 1000000.0),
  ("square foot (ft²)", 0.09290304),
  ("square inch (in²)", 0.00064516)]

/-- Volumes, in cubic metres. -/
def volume : CatalogEntry := .linear [
  ("cubic meter (m³)", 1.0),
  ("liter (L)", 0.001),
  ("milliliter (mL)", 1e-6),
  ("gallon (US)", 0.003785411784),
  ("gallon (UK)", 0.00454609),
  ("pint (US)", 0.000473176473),
  ("quart (US)", 0.000946352946),
  ("cubic foot (ft³)", 0.028316846592),
  ("cubic inch (in³)", 0.000016387064)]

/-- Speeds, in metres per second. -/
def speed : CatalogEntry := .linear [
  ("meter per second (m/s)", 1.0),
  ("kilometer per hour (km/h)", 1000.0 / 3600.0),
  ("mile per hour (mph)", 1609.344 / 3600.0),
  ("foot per second (ft/s)", 0.3048),
  ("knot (kn)", 1852.0 / 3600.0)]

/-- Angles. -/
def angle : CatalogEntry := .angle [
  ("degree (°)", .degree),
  ("radian (rad)", .radian)]

/-- Measures of sound. -/
def soundIntensity : CatalogEntry := .sound [
  ("intensity (W/m²)", .intensity),
  ("level (dB)", .level)]

/-- Powers, in watts; the horsepower is the mechanical one. -/
def power : CatalogEntry := .linear [
  ("watt (W)", 1.0),
  ("kilowatt (kW)", 1000.0),
  ("megawatt (MW)", 1000000.0),
  ("horsepower (hp)", 745.6998715822702)]

/-- Pressures, in pascals; an atmosphere is 760 torr. -/
def pressure : CatalogEntry := .linear [
  ("pascal (Pa)", 1.0),
  ("kilopascal (kPa)", 1000.0),
  ("bar", 100000.0),
  ("atmosphere (atm)", 101325.0),
  ("torr (Torr)", 101325.0 / 760.0),
  ("pound per square inch (psi)", 6894.757293168361)]

/-- Amounts of data, in bits, with decimal and with binary multiples. -/
def data : CatalogEntry := .linear [
  ("bit (b)", 1.0),
  ("byte (B)", 8.0),
  ("kilobit (kb)", 1e3),
  ("kilobyte (kB)", 8e3),
  ("megabit (Mb)", 1e6),
  ("megabyte (MB)", 8e6),
  ("gigabit (Gb)", 1e9),
  ("gigabyte (GB)", 8e9),
  ("terabit (Tb)", 1e12),
  ("terabyte (TB)", 8e12),
  ("kibibit (Kib)", .ofNat (2 ^ (10 : Nat))),
  ("kibibyte (KiB)", .ofNat (2 ^ (13 : Nat))),
  ("mebibit (Mib)", .ofNat (2 ^ (20 : Nat))),
  ("mebibyte (MiB)", .ofNat (2 ^ (23 : Nat))),
  ("gibibit (Gib)", .ofNat (2 ^ (30 : Nat))),
  ("gibibyte (GiB)", .ofNat (2 ^ (33 : Nat))),
  ("tebibit (Tib)", .ofNat (2 ^ (40 : Nat))),
  ("tebibyte (TiB)", .ofNat (2 ^ (43 : Nat)))]

/-- Frequencies, in hertz. -/
def frequency : CatalogEntry := .linear [
  ("hertz (Hz)", 1.0),
  ("kilohertz (kHz)", 1e3),
  ("megahertz (MHz)", 1e6),
  ("gigahertz (GHz)", 1e9),
  ("terahertz (THz)", 1e12)]

/-- Revolutions per minute in a radian per second. -/
def radianPerSecond : Double := 60.0 / (2.0 * Double.pi)

/-- Rates of revolution, per minute. -/
def rpm : CatalogEntry := .rate [
  ("revolutions per minute (RPM)", ⟨1.0, 1.0⟩),
  ("revolutions per second (RPS)", ⟨1.0 / 60.0, 60.0⟩),
  ("hertz (Hz)", ⟨1.0 / 60.0, 60.0⟩),
  ("radians per second (rad/s)", ⟨1.0 / radianPerSecond, radianPerSecond⟩)]

/-- Rates of fire, per minute. -/
def firearmRof : CatalogEntry := .rate [
  ("rounds per minute (RPM)", ⟨1.0, 1.0⟩),
  ("rounds per second (RPS)", ⟨1.0 / 60.0, 60.0⟩),
  ("rounds per hour (RPH)", ⟨1.0 / 60.0, 60.0⟩)]

end Catalog

namespace Category

/-- The catalog's entry for a category. -/
def entry : Category → CatalogEntry
  | length => Catalog.length
  | mass => Catalog.mass
  | time => Catalog.time
  | temperature => Catalog.temperature
  | area => Catalog.area
  | volume => Catalog.volume
  | speed => Catalog.speed
  | angle => Catalog.angle
  | soundIntensity => Catalog.soundIntensity
  | power => Catalog.power
  | pressure => Catalog.pressure
  | data => Catalog.data
  | frequency => Catalog.frequency
  | rpm => Catalog.rpm
  | firearmRof => Catalog.firearmRof

/-- The labels of a category's units in display order. -/
def units (c : Category) : List String := c.entry.units

/-- The rule that relates a category's units. -/
def rule (c : Category) : ConversionRule := c.entry.rule

/-- A category's rule has data for exactly the category's units. -/
theorem rule_size (c : Category) : c.rule.size = c.units.length := c.entry.size_eq

end Category

end Reckoner
