/-
The visible range of a graph.

A window that fits itself to the points reaches a tenth of their span beyond the extreme
ones, or 1 beyond them if they are all level.  The fitting is stated for any kind of number
with an order, since in exact arithmetic it always leaves room and in rounded arithmetic it
need not.
-/
import Reckoner.Graph.Sample

namespace Reckoner

/-- A range of values. -/
structure Window (α : Type) where
  min : α
  max : α
  deriving DecidableEq

namespace Window

section Fitting

variable {α : Type} [LT α] [DecidableLT α] [Add α] [Sub α] [Mul α] [OfScientific α]

/-- A range extended to reach a value. -/
def reach (w : Window α) (y : α) : Window α :=
  ⟨if y < w.min then y else w.min, if w.max < y then y else w.max⟩

/-- The smallest range with all the values. -/
def hull? : List α → Option (Window α)
  | [] => none
  | y :: ys => some (ys.foldl reach ⟨y, y⟩)

/-- The room left beyond the extreme values. -/
def margin (w : Window α) : α :=
  if 0.0 < w.max - w.min then (w.max - w.min) * 0.1 else 1.0

/-- A range with room at both ends. -/
def widen (w : Window α) : Window α := ⟨w.min - w.margin, w.max + w.margin⟩

/-- The window that fits itself to some values. -/
def around (ys : List α) : Except GraphError (Window α) :=
  match hull? ys with
  | some w => .ok w.widen
  | none => .error .noValidPoints

end Fitting

/-- The window that fits itself to the finite ones among some values. -/
def fit (ys : List Double) : Except GraphError (Window Double) :=
  around (ys.filter Double.isFinite)

/-- A window with given ends. -/
def ofEnds (min max : Double) : Except GraphError (Window Double) :=
  if !min.isFinite || !max.isFinite || decide (max ≤ min) then .error .emptyYRange
  else .ok ⟨min, max⟩

end Window

end Reckoner
