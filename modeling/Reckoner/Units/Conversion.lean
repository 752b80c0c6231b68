/-
Conversion between the units of a category.

Names are looked up first, the category before the units and the source before the target;
then the value is checked, and only then is the rule applied.  A value that stays in its
unit is returned as it is.
-/
import Reckoner.Units.Lookup

namespace Reckoner

/-- The category that a text names. -/
def Category.resolve (text : String) : Except ConversionError Category :=
  match Category.ofName? text with
  | some c => .ok c
  | none => .error (.unknownCategory text)

namespace Category

/-- The position of the unit that a text names. -/
def resolveUnit (c : Category) (text : String) : Except ConversionError Nat :=
  match c.unitIndex? text with
  | some i => .ok i
  | none => .error (.unknownUnit c.name text)

/-- A value converted by the category's rule alone, for positions that it covers. -/
def applyRule (c : Category) (source target : Nat) (hs : source < c.units.length)
    (ht : target < c.units.length) (v : Double) : Except ConversionError Double :=
  c.rule.convert ⟨source, c.rule_size ▸ hs⟩ ⟨target, c.rule_size ▸ ht⟩ v

/-- A finite value converted between the units at two positions. -/
def convertAt (c : Category) (source target : Nat) (v : Double) : Except ConversionError Double :=
  if !v.isFinite then .error .nonFiniteValue
  else if h : source < c.units.length ∧ target < c.units.length then
    if source = target then .ok v else c.applyRule source target h.1 h.2 v
  else .error (.unknownUnit c.name ("#" ++ toString (max source target)))

/-- A value converted between two units that texts name. -/
def convert (c : Category) (source target : String) (v : Double) :
    Except ConversionError Double := do
  let i ← c.resolveUnit source
  let j ← c.resolveUnit target
  c.convertAt i j v

/-- A value converted into every unit of the category in display order; a unit into which it
cannot be converted has an error of its own. -/
def convertAll (c : Category) (source : String) (v : Double) :
    Except ConversionError (List (String × Except ConversionError Double)) := do
  let i ← c.resolveUnit source
  if !v.isFinite then .error .nonFiniteValue
  else return c.units.zipIdx.map fun (label, j) => (label, c.convertAt i j v)

end Category

/-- A value converted between two units of a category, all given by name. -/
def convert (category source target : String) (v : Double) : Except ConversionError Double := do
  let c ← Category.resolve category
  c.convert source target v

/-- A value converted into every unit of a category given by name. -/
def convertAll (category source : String) (v : Double) :
    Except ConversionError (List (String × Except ConversionError Double)) := do
  let c ← Category.resolve category
  c.convertAll source v

end Reckoner
