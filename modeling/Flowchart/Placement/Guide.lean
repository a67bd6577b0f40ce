import Flowchart.Geometry.Grid
import Flowchart.Node

/-!
# Guides

A node that is placed straight beside another one takes over one of its coordinates, and both then lie on the
same guide. Coordinates on one guide agree even where they are no number; any others agree if they are equal as
numbers. Guides of the x and of the y axis are kept apart.
-/

namespace Flowchart.Placement

/-- The line on which a coordinate lies. -/
inductive Guide where
  /-- Through the place where first nodes go. -/
  | origin
  /-- Set up by the node that was added as this one, counted from zero. -/
  | ofNode (index : Nat)
  /-- A line of the grid, which no two coordinates have in common by their origin. -/
  | grid
deriving DecidableEq, Repr

structure Guides where
  x : Guide
  y : Guide
deriving DecidableEq, Repr

/-- A coordinate on its guide. -/
structure Coordinate (α : Type) where
  value : α
  guide : Guide
deriving DecidableEq, Repr

/-- A place on its guides. -/
structure Spot (α : Type) where
  point : Point α
  guides : Guides
deriving DecidableEq, Repr

/-- A node on the guides of its corner. -/
structure Placed (α : Type) where
  node : Node α
  guides : Guides
deriving DecidableEq, Repr

variable {α : Type} [Scalar α]

namespace Coordinate

def agrees (a b : Coordinate α) : Bool :=
  (a.guide ≠ .grid && a.guide = b.guide) || a.value == b.value

/-- The coordinate snapped to a grid; a size that is not positive leaves it where it is. -/
def snap (c : Coordinate α) (size : α) : Except NumberFault (Coordinate α) :=
  if size ≤ 0 then .ok c
  else do
    let value ← Flowchart.snap c.value size
    .ok ⟨value, .grid⟩

end Coordinate

namespace Spot

def x (s : Spot α) : Coordinate α := ⟨s.point.x, s.guides.x⟩

def y (s : Spot α) : Coordinate α := ⟨s.point.y, s.guides.y⟩

def ofCoordinates (x y : Coordinate α) : Spot α := ⟨⟨x.value, y.value⟩, ⟨x.guide, y.guide⟩⟩

def agrees (s t : Spot α) : Bool :=
  s.x.agrees t.x && s.y.agrees t.y

def snap (s : Spot α) (size : α) : Except NumberFault (Spot α) := do
  let x ← s.x.snap size
  let y ← s.y.snap size
  .ok (ofCoordinates x y)

end Spot

namespace Placed

/-- The corner of the node. -/
def spot (p : Placed α) : Spot α := ⟨p.node.position, p.guides⟩

/-- Nodes that have nothing in common, on guides of their own. -/
def ofNodes (nodes : List (Node α)) : List (Placed α) :=
  nodes.zipIdx.map fun (n, i) => ⟨n, ⟨.ofNode i, .ofNode i⟩⟩

end Placed

end Flowchart.Placement
