/-
Categories of units.

A category is known by its display name and by an identifier, and one of them by a third
name; all are compared without regard to letter case.  Categories come in two groups, each
with a panel of its own.
-/
import Reckoner.Text.Blank
import Reckoner.Text.Fold

namespace Reckoner

/-- A kind of quantity. -/
inductive Category where
  | length
  | mass
  | time
  | temperature
  | area
  | volume
  | speed
  | angle
  | soundIntensity
  | power
  | pressure
  | data
  | frequency
  | rpm
  | firearmRof
  deriving DecidableEq, Repr, Inhabited

/-- The panel of the converter on which a category is found. -/
inductive CategoryGroup where
  | main
  | misc
  deriving DecidableEq, Repr

/-- The name of a group. -/
def CategoryGroup.name : CategoryGroup → String
  | main => "main"
  | misc => "misc"

namespace Category

/-- The categories in the order in which they are shown. -/
def all : List Category :=
  [length, mass, time, temperature, area, volume, speed, angle, soundIntensity, power, pressure,
    data, frequency, rpm, firearmRof]

/-- Every category is shown. -/
theorem mem_all (c : Category) : c ∈ all := by cases c <;> decide

/-- What can be checked of a category can be checked of all of them. -/
instance decidableForall {p : Category → Prop} [DecidablePred p] : Decidable (∀ c, p c) :=
  decidable_of_iff (∀ c ∈ all, p c) ⟨fun h c => h c (mem_all c), fun h c _ => h c⟩

/-- The name under which a category is shown. -/
def name : Category → String
  | length => "Length"
  | mass => "Mass"
  | time => "Time"
  | temperature => "Temperature"
  | area => "Area"
  | volume => "Volume"
  | speed => "Speed"
  | angle => "Angle"
  | soundIntensity => "Sound Intensity"
  | power => "Power"
  | pressure => "Pressure"
  | data => "Data"
  | frequency => "Frequency"
  | rpm => "RPM"
  | firearmRof => "Firearm ROF"

/-- The identifier of a category. -/
def id : Category → String
  | length => "length"
  | mass => "mass"
  | time => "time"
  | temperature => "temperature"
  | area => "area"
  | volume => "volume"
  | speed => "speed"
  | angle => "angle"
  | soundIntensity => "sound_intensity"
  | power => "power"
  | pressure => "pressure"
  | data => "data"
  | frequency => "frequency"
  | rpm => "rpm"
  | firearmRof => "firearm_rof"

/-- Further names by which a category is known. -/
def aliases : Category → List String
  | firearmRof => ["Firearm Rate-of-Fire"]
  | _ => []

/-- The group to which a category belongs. -/
def group : Category → CategoryGroup
  | length | mass | time | temperature | area | volume | speed => .main
  | _ => .misc

/-- Whether a text, without the blanks at its ends, names a category. -/
def isNamed (text : String) (c : Category) : Bool :=
  (c.name :: c.id :: c.aliases).any (Text.equalIgnoringCase · (Text.trim text))

/-- The category that a text names. -/
def ofName? (text : String) : Option Category := all.find? (isNamed text)

end Category

end Reckoner
