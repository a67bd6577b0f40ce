import Flowchart.Placement.Config
import Flowchart.Placement.Guide

/-!
# The lattice of a layout

The rows and columns in which the centres of the nodes lie, and the places of their corners, all snapped to the
grid. Rows and columns are listed once each, in rising order, and so are the places. The axis along which a
layout runs is told from its nodes in the order in which they were added.
-/

namespace Flowchart.Placement

variable {α : Type} [Scalar α]

/-- The axis along which more neighbours lie close together, or the preferred one. -/
def primaryAxis (config : Config α) (nodes : List (Node α)) : Term Axis :=
  let pairs := nodes.zip (nodes.drop 1)
  let closeX := pairs.countP fun (a, b) =>
    decide (Scalar.abs (b.rect.x - a.rect.x) < config.minSpacing)
  let closeY := pairs.countP fun (a, b) =>
    decide (Scalar.abs (b.rect.y - a.rect.y) < config.minSpacing)
  if closeY < closeX then .known .horizontal
  else if closeX < closeY then .known .vertical
  else config.preferredAxis

/-- Whether the pair `a` comes before the pair `b`: by the first members, or by the second ones where those
agree. -/
def pairLess (a b : Coordinate α × Coordinate α) : Bool :=
  if a.1.agrees b.1 then decide (a.2.value < b.2.value) else decide (a.1.value < b.1.value)

/-- The list in rising order of a pair of keys. -/
def sortByPair {β : Type} (key : β → Coordinate α × Coordinate α) (items : List β) : List β :=
  Sorting.sort (fun a b => pairLess (key a) (key b)) items

/-- The nodes along an axis. -/
def alongAxis (axis : Term Axis) (placed : List (Placed α)) : List (Placed α) :=
  if axis = .known .horizontal then sortByPair (fun p => (p.spot.x, p.spot.y)) placed
  else sortByPair (fun p => (p.spot.y, p.spot.x)) placed

structure Lattice (α : Type) where
  rows : List α
  columns : List α
  occupied : List (Point α)
deriving DecidableEq, Repr

/-- Where a node lies on the grid. -/
structure GridCell (α : Type) where
  row : α
  column : α
  corner : Spot α
deriving DecidableEq, Repr

def Placed.gridCell (gridSize : α) (p : Placed α) : Except NumberFault (GridCell α) := do
  let row ← snap p.node.center.y gridSize
  let column ← snap p.node.center.x gridSize
  let corner ← p.spot.snap gridSize
  .ok ⟨row, column, corner⟩

namespace Lattice

/-- The lattice of cells in the order in which they are met. -/
def ofCells (cells : List (GridCell α)) : Lattice α :=
  let rows := (cells.map (·.row)).eraseDupsBy (· == ·)
  let columns := (cells.map (·.column)).eraseDupsBy (· == ·)
  let corners := (cells.map (·.corner)).eraseDupsBy Spot.agrees
  ⟨Scalar.sorted rows, Scalar.sorted columns, (sortByPair (fun s => (s.x, s.y)) corners).map (·.point)⟩

def ofPlaced (config : Config α) (placed : List (Placed α)) : Except NumberFault (Lattice α) := do
  let axis := primaryAxis config (placed.map (·.node))
  let cells ← (alongAxis axis placed).mapM (·.gridCell config.gridSize)
  .ok (ofCells cells)

end Lattice

end Flowchart.Placement
