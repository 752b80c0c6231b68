/-
Finding units by what a user writes.

A unit is found by its label, by its symbol when no other unit of the category shares it,
or by its label in any letter case, in that order.
-/
import Reckoner.Units.Catalog

namespace Reckoner

/-- The text after the last opening parenthesis of a label that ends in a closing one. -/
def unitSymbol? (label : String) : Option String :=
  match label.toList.reverse with
  | ')' :: inner =>
    if '(' ∈ inner then some (String.ofList (inner.takeWhile (· != '(')).reverse) else none
  | _ => none

/-- The position of an entry of a list that passes a test, if exactly one does. -/
def uniqueIdx? {α : Type} (test : α → Bool) (xs : List α) : Option Nat :=
  match xs.findIdx? test with
  | none => none
  | some i => if (xs.drop (i + 1)).any test then none else some i

namespace Category

/-- The label of the unit at a position. -/
def unitLabel? (c : Category) (index : Nat) : Option String := c.units[index]?

/-- The position of the unit that a text names, blanks at its ends aside. -/
def unitIndex? (c : Category) (text : String) : Option Nat :=
  let query := Text.trim text
  (c.units.findIdx? (· == query)) <|>
    (uniqueIdx? (fun label => unitSymbol? label == some query) c.units) <|>
    (c.units.findIdx? fun label => Text.labelKey label == Text.labelKey query)

end Category

/-- The first category, in display order, that knows a unit, and the unit's position. -/
def findUnit? (text : String) : Option (Category × Nat) :=
  Category.all.findSome? fun c => (c.unitIndex? text).map (c, ·)

end Reckoner
