import Flowchart.Node

/-!
# Anchors

Where a hook sits on the canvas, which sides of two nodes face each other, and where a connection that names no
hook is attached.
-/

namespace Flowchart

variable {α : Type} [Scalar α]

/-- The distance within which a hook catches the pointer. -/
def snapDistance : α := 30

namespace Node

/-- The point of a node's boundary in a direction. On a side, `offset` runs from left to right or from top to
bottom; the diagonal directions stand at a quarter of the top and bottom sides. -/
def anchorAt (n : Node α) (d : Direction) (offset : α) : Point α :=
  let r := n.rect
  let t := Scalar.clampUnit offset
  match d with
  | .top => ⟨r.x + r.width * t, r.y⟩
  | .bottom => ⟨r.x + r.width * t, r.y + r.height⟩
  | .left => ⟨r.x, r.y + r.height * t⟩
  | .right => ⟨r.x + r.width, r.y + r.height * t⟩
  | .topLeft => ⟨r.x + r.width * 0.25, r.y + r.height * 0⟩
  | .topRight => ⟨r.x + r.width * 0.75, r.y + r.height * 0⟩
  | .bottomLeft => ⟨r.x + r.width * 0.25, r.y + r.height * 1⟩
  | .bottomRight => ⟨r.x + r.width * 0.75, r.y + r.height * 1⟩

def hookPosition (n : Node α) (h : Hook α) : Point α :=
  n.anchorAt h.direction h.offset

/-- The point of a node's boundary in a direction given by its name. -/
def anchorNamed (n : Node α) (d : Term Direction) (offset : α) : Except (Fault α) (Point α) :=
  match d with
  | .known d => .ok (n.anchorAt d offset)
  | .foreign name => .error (.noDirection name)

/-- The place of the first hook on a direction, or the middle of the side if there is none. -/
def defaultAnchor (n : Node α) (d : Direction) : Point α :=
  match n.hooks.find? (·.direction = d) with
  | some h => n.hookPosition h
  | none => n.anchorAt d 0.5

def defaultAnchorNamed (n : Node α) (d : Term Direction) : Except (Fault α) (Point α) :=
  match d with
  | .known d => .ok (n.defaultAnchor d)
  | .foreign name => .error (.noDirection name)

variable [Trigonometry α]

/-- The nearest hook within `reach` of a point; of several at the same distance the last one. -/
def nearestHook? (n : Node α) (p : Point α) (reach : α) : Option (Hook α) :=
  (n.hooks.foldl
    (fun (best, found) h =>
      let d := (n.hookPosition h).distance p
      if d ≤ best then (d, some h) else (best, found))
    (reach, none)).2

/-- The sides with which two nodes face each other, by the angle from one centre to the other. -/
def facingSides (a b : Node α) : Direction × Direction :=
  let p := a.center
  let q := b.center
  let angle := Trigonometry.bearing (q.x - p.x) (q.y - p.y)
  if -45 ≤ angle ∧ angle < 45 then (.right, .left)
  else if 45 ≤ angle ∧ angle < 135 then (.bottom, .top)
  else if -135 ≤ angle ∧ angle < -45 then (.top, .bottom)
  else (.left, .right)

end Node

end Flowchart
