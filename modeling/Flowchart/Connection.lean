import Flowchart.Geometry.Rect
import Flowchart.Vocabulary
import Flowchart.Reference
import Flowchart.Fault

/-!
# Connections

A directed edge between two nodes. A route drawn by hand is kept as its interior points; the ends are found anew
from the hooks whenever the connection is drawn.
-/

namespace Flowchart

structure Connection (α : Type) where
  id : String
  source : String
  target : String
  sourceHook : Reference
  targetHook : Reference
  label : Option String
  variant : Option (Term Variant)
  style : Term PathStyle
  curvature : α
  waypoints : List (Point α)
  custom : Bool
deriving DecidableEq, Repr

namespace Connection

variable {α : Type} [Scalar α]

/-- A plain connection between two nodes. -/
def between (id source target : String) : Connection α :=
  ⟨id, source, target, .absent, .absent, none, none, .known .elbow, 0.5, [], false⟩

def isSelfLoop (c : Connection α) : Bool :=
  c.source = c.target

/-- Keeps a drawn polyline without its two ends. -/
def withCustomPoints (c : Connection α) (points : List (Point α)) :
    Except (Fault α) (Connection α) :=
  if points.length < 2 then .error (.routeTooShort points.length)
  else .ok { c with waypoints := (points.drop 1).dropLast, custom := true }

/-- Forgets a drawn route. -/
def clearCustomPoints (c : Connection α) : Connection α :=
  { c with waypoints := [], custom := false }

end Connection

end Flowchart
