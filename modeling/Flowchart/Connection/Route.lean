import Flowchart.Connection
import Flowchart.Geometry.Curve
import Flowchart.Hook.Anchor

/-!
# Routes

The route of a connection runs between the anchors of its two ends, as the nodes lie now. A drawn route goes
through its interior points in straight segments; any other route has the shape of the connection's style.
-/

namespace Flowchart

variable {α : Type} [Scalar α]

/-- The points of a route in a given style: the segment itself, the control points of a cubic curve, or an
orthogonal path that turns halfway. -/
def buildPath (start finish : Point α) (style : Term PathStyle) (curvature : α) :
    List (Point α) :=
  match style with
  | .known .straight => [start, finish]
  | .known .curved =>
    let c := Scalar.clampUnit curvature
    let dx := finish.x - start.x
    [start, ⟨start.x + dx * c, start.y⟩, ⟨start.x + dx * (1 - c), finish.y⟩, finish]
  | _ =>
    let middle := (start.x + finish.x) / 2
    [start, ⟨middle, start.y⟩, ⟨middle, finish.y⟩, finish]

/-- Where the label of a route sits: on the middle of a curve, and halfway along any other route. -/
def labelPosition? [Trigonometry α] (points : List (Point α)) (style : Term PathStyle) :
    Option (Point α) :=
  match style, points with
  | .known .curved, [p0, p1, p2, p3] => some (cubicPoint p0 p1 p2 p3 0.5)
  | _, _ => Polyline.midpoint? points

structure Route (α : Type) where
  start : Point α
  finish : Point α
  waypoints : List (Point α)
  style : Term PathStyle
  curvature : α
  custom : Bool
deriving DecidableEq, Repr

namespace Route

/-- Whether a route goes through points of its own. -/
def isDrawn (r : Route α) : Bool :=
  r.custom || !r.waypoints.isEmpty

def points (r : Route α) : List (Point α) :=
  if r.isDrawn then r.start :: r.waypoints ++ [r.finish]
  else buildPath r.start r.finish r.style r.curvature

def labelPosition? [Trigonometry α] (r : Route α) : Option (Point α) :=
  Flowchart.labelPosition? r.points (if r.isDrawn then .known .straight else r.style)

end Route

namespace Connection

variable [Trigonometry α]

/-- The anchor at one end: the hook that is referred to, or else the default anchor on the facing side. -/
def endAnchor (n : Node α) (r : Reference) (facing : Direction) :
    Except (Fault α) (Point α) :=
  if r.isGiven then do
    let h ← n.referredHook r
    .ok (n.hookPosition h)
  else .ok (n.defaultAnchor facing)

/-- The anchors of both ends. -/
def endpoints (c : Connection α) (a b : Node α) : Except (Fault α) (Point α × Point α) := do
  let (fromA, fromB) := a.facingSides b
  let start ← endAnchor a c.sourceHook fromA
  let finish ← endAnchor b c.targetHook fromB
  .ok (start, finish)

/-- The route of a connection among some nodes; of nodes with the same id the last one counts. -/
def route (c : Connection α) (nodes : List (Node α)) : Except (Fault α) (Route α) := do
  let a ← requireNode nodes c.source
  let b ← requireNode nodes c.target
  let (start, finish) ← c.endpoints a b
  .ok ⟨start, finish, c.waypoints, c.style, c.curvature, c.custom⟩

end Connection

end Flowchart
