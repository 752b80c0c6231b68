/-
Plots: the points of a typed expression and the window to draw them in.
-/
import Reckoner.Failure
import Reckoner.Graph.Window

namespace Reckoner

/-- What is needed to draw a graph. -/
structure Plot where
  points : List Point
  /-- The visible range; none if it was to be fitted and there are no points. -/
  window : Option (Window Double)

/-- The plot of an expression. A window that is given must be a proper one; otherwise it is fitted
to the points. -/
def Plot.ofText (text : String) (xMin xMax : Double) (samples maxSamples : Nat)
    (ends : Option (Double × Double)) : Except Failure Plot := do
  let e ← Failure.lift (fun e => .calculation (.parse e))
    (Expression.parse (Calculation.normalize text))
  let count ← Failure.lift .graph (Graph.sampleCount xMin xMax samples maxSamples)
  let points := Graph.sample e xMin xMax count
  let window ← match ends with
    | some (min, max) => Failure.lift .graph ((Window.ofEnds min max).map some)
    | none => pure (Window.fit (points.map Point.y)).toOption
  return ⟨points, window⟩

end Reckoner
