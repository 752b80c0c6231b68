/-
Sampling a function.

The points of a graph lie on an evenly spaced grid; a grid point is kept when both its
coordinates are finite.
-/
import Reckoner.Expression.Basic

namespace Reckoner

/-- Why a graph cannot be drawn. -/
inductive GraphError where
  /-- An end of the x-range, or its length, is not finite. -/
  | invalidXRange
  | emptyXRange
  | emptyYRange
  | noValidPoints
  deriving DecidableEq, Repr

/-- The text of the error. -/
def GraphError.message : GraphError → String
  | invalidXRange => "Invalid x-range"
  | emptyXRange => "x max must be > x min"
  | emptyYRange => "y max must be > y min"
  | noValidPoints => "No valid points"

/-- A point of a graph. -/
structure Point where
  x : Double
  y : Double
  deriving DecidableEq

namespace Graph

/-- The fewest samples that are taken. -/
def minSamples : Nat := 50

/-- The samples that are taken unless told otherwise. -/
def defaultSamples : Nat := 600

/-- The most samples that are taken unless told otherwise. -/
def defaultMaxSamples : Nat := 10000

/-- The number of samples for an x-range: the number asked for, brought between the fewest and the
most. -/
def sampleCount (xMin xMax : Double) (samples maxSamples : Nat) : Except GraphError Nat :=
  if !xMin.isFinite || !xMax.isFinite then .error .invalidXRange
  else if xMax ≤ xMin then .error .emptyXRange
  else if !(xMax - xMin).isFinite then .error .invalidXRange
  else .ok (max minSamples (min samples (max maxSamples minSamples)))

/-- The distance between two neighbours on the grid. -/
def spacing (xMin xMax : Double) (samples : Nat) : Double :=
  (xMax - xMin) / Double.ofNat (max 1 (samples - 1))

/-- The grid. -/
def grid (xMin xMax : Double) (samples : Nat) : List Double :=
  let dx := spacing xMin xMax samples
  (List.range samples).map fun i => xMin + Double.ofNat i * dx

/-- The point above a place on the x-axis, if it can be drawn. -/
def pointAt? (e : Expression) (x : Double) : Option Point :=
  match e.eval? (some x) with
  | some y => if x.isFinite && y.isFinite then some ⟨x, y⟩ else none
  | none => none

/-- The points of a graph that can be drawn. -/
def sample (e : Expression) (xMin xMax : Double) (samples : Nat) : List Point :=
  (grid xMin xMax samples).filterMap (pointAt? e)

end Graph

end Reckoner
