import Flowchart.Geometry.Rect

/-!
# Curves and polylines

The point of a cubic curve at a parameter, and the point halfway along a polyline, measured by its length.
-/

namespace Flowchart

variable {α : Type} [Scalar α]

/-- The cubic curve with four control points at the parameter `t`, which is moved into the unit interval. -/
def cubicPoint (p0 p1 p2 p3 : Point α) (t : α) : Point α :=
  let t := Scalar.clampUnit t
  let mt := 1 - t
  let a := mt * mt * mt
  let b := 3 * mt * mt * t
  let c := 3 * mt * t * t
  let d := t * t * t
  ⟨a * p0.x + b * p1.x + c * p2.x + d * p3.x, a * p0.y + b * p1.y + c * p2.y + d * p3.y⟩

/-- The point that divides the segment from `p` to `q` in a given ratio. -/
def Point.between (p q : Point α) (ratio : α) : Point α :=
  ⟨p.x + (q.x - p.x) * ratio, p.y + (q.y - p.y) * ratio⟩

namespace Polyline

/-- The segments between neighbouring points. -/
def segments : List (Point α) → List (Point α × Point α)
  | p :: q :: rest => (p, q) :: segments (q :: rest)
  | _ => []

variable [Trigonometry α]

def lengths (points : List (Point α)) : List α :=
  (segments points).map fun (p, q) => p.distance q

/-- The point at a given length along some segments; none if they are too short. -/
def along? (remaining : α) : List (Point α × Point α) → Option (Point α)
  | [] => none
  | (p, q) :: rest =>
    let length := p.distance q
    if remaining ≤ length ∧ 0 < length then some (p.between q (remaining / length))
    else along? (remaining - length) rest

/-- The point halfway along a polyline; the first point if it has no length. -/
def midpoint? (points : List (Point α)) : Option (Point α) :=
  match points with
  | [] => none
  | [p] => some p
  | first :: _ =>
    let total := Scalar.sum (lengths points)
    if total == 0 then some first
    else (along? (total / 2) (segments points)).or points.getLast?

end Polyline

end Flowchart
