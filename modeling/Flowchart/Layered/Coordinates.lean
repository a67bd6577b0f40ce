import Flowchart.Layered.Ordering
import Flowchart.Geometry.Rect

/-!
# Coordinates of a layered net

Across the layers, each cell is aligned with a median of its neighbours; aligned cells form blocks that get one
coordinate, as close to the blocks beside them as the spacing allows. This is done four times, from the top and
from the bottom and from both sides, and the mean of the two middle results is taken. Edges between dummies are
kept straight: an edge that crosses one of them is not used for alignment.
-/

namespace Flowchart.Layered

variable {α : Type} [Scalar α]

/-- Where a scan of a layer has got to: the place in the layer above and the place in the layer itself up to
which edges have been judged, and the edges found to cross one between dummies, as upper and lower cells. -/
private structure Scan where
  least : Nat
  next : Nat
  found : List (Nat × Nat)

/-- The edges of some cells whose upper ends lie outside the places from `low` to `high`. -/
private def outside (n : Net α) (a : LayerOrder α) (low high : Nat) (cells : List Nat) :
    List (Nat × Nat) :=
  cells.flatMap fun c =>
    ((n.upper c).filter fun u => a.place u < low || high < a.place u).map fun u => (u, c)

private def scanDummy (n : Net α) (a : LayerOrder α) (cells above : List Nat) (s : Scan)
    (c place : Nat) : Scan :=
  let innerPlace := ((n.upper c).filter n.isDummy).head?.map a.place
  if innerPlace.isSome || place + 1 = cells.length then
    let high := innerPlace.getD (above.length - 1)
    let judged := (cells.take (place + 1)).drop s.next
    ⟨high, place + 1, s.found ++ outside n a s.least high judged⟩
  else s

/-- The edges into a layer that cross an edge between dummies. -/
private def layerConflicts (n : Net α) (a : LayerOrder α) (above cells : List Nat) :
    List (Nat × Nat) :=
  (cells.zipIdx.foldl
    (fun s (c, place) => if n.isDummy c then scanDummy n a cells above s c place else s)
    ⟨0, 0, []⟩).found

def conflicts (n : Net α) (a : LayerOrder α) : List (Nat × Nat) :=
  let layers := a.layers.toList
  (layers.zip (layers.drop 1)).flatMap fun (above, cells) => layerConflicts n a above cells

/-- A way to go through the net: from the top or from the bottom, from the left or from the right. -/
structure Pass where
  fromTop : Bool
  fromLeft : Bool
deriving DecidableEq, Repr

def Pass.all : List Pass :=
  [⟨true, true⟩, ⟨true, false⟩, ⟨false, true⟩, ⟨false, false⟩]

/-- The blocks of aligned cells: the root of each cell's block, and the next cell of the block. -/
structure Blocks where
  root : Array Nat
  next : Array Nat
deriving Repr

namespace Pass

/-- The layers in the order of the pass, each with the layer visited before it. -/
private def layerPairs (p : Pass) (a : LayerOrder α) : List (List Nat × List Nat) :=
  let layers := if p.fromTop then a.layers.toList else a.layers.toList.reverse
  layers.zip (layers.drop 1)

private def along (p : Pass) (cells : List Nat) : List Nat :=
  if p.fromLeft then cells else cells.reverse

private def near (p : Pass) (n : Net α) (c : Nat) : List Nat :=
  if p.fromTop then n.upper c else n.lower c

/-- All cells in the order of the pass. -/
private def cells (p : Pass) (a : LayerOrder α) : List Nat :=
  (if p.fromTop then a.layers.toList else a.layers.toList.reverse).flatMap p.along

/-- The middle elements of a list: one or two. -/
private def middle (places : List Nat) : List Nat :=
  (places.drop ((places.length - 1) / 2)).take (2 - places.length % 2)

/-- Whether the place `m` lies farther on than the last place used. -/
private def isFarther (p : Pass) (last : Option Nat) (m : Nat) : Bool :=
  match last with
  | none => true
  | some r => if p.fromLeft then decide (r < m) else decide (m < r)

private def initialBlocks (n : Net α) : Blocks :=
  ⟨Array.range n.cellCount, Array.range n.cellCount⟩

/-- Aligns a cell with the neighbour at one of its medians, if it is not aligned yet. -/
private def alignAt (p : Pass) (crossed : List (Nat × Nat)) (reference : List Nat) (v : Nat)
    (state : Blocks × Option Nat) (m : Nat) : Blocks × Option Nat :=
  let (b, last) := state
  match reference[m]? with
  | none => (b, last)
  | some u =>
    let pair := if p.fromTop then (u, v) else (v, u)
    if b.next.getD v v = v ∧ ¬ crossed.contains pair ∧ p.isFarther last m then
      let root := b.root.getD u u
      let next := (b.next.setIfInBounds u v).setIfInBounds v root
      (⟨b.root.setIfInBounds v root, next⟩, some m)
    else (b, last)

private def alignCell (p : Pass) (n : Net α) (a : LayerOrder α) (crossed : List (Nat × Nat))
    (reference : List Nat) (state : Blocks × Option Nat) (v : Nat) : Blocks × Option Nat :=
  let places := p.along (a.neighbourPlaces (p.near n v))
  if places.isEmpty then state
  else (middle places).foldl (p.alignAt crossed reference v) state

def blocks (p : Pass) (n : Net α) (a : LayerOrder α) (crossed : List (Nat × Nat)) : Blocks :=
  (p.layerPairs a).foldl
    (fun b (reference, cells) =>
      ((p.along cells).foldl (p.alignCell n a crossed reference) (b, none)).1)
    (initialBlocks n)

/-- The coordinates of the roots so far, the sink of each root's class of blocks, and how far a class may move
towards the one beside it. -/
private structure Packing (α : Type) where
  coordinate : Array (Option α)
  sink : Array Nat
  shift : Array (Option α)

private def Packing.at (k : Packing α) (c : Nat) : α :=
  (k.coordinate.getD c none).getD 0

private def Packing.sinkOf (k : Packing α) (c : Nat) : Nat :=
  k.sink.getD c c

/-- Lowers the shift of a class; a class that has none yet only takes one below infinity. -/
private def Packing.lowerShift (k : Packing α) (c : Nat) (x : α) : Packing α :=
  match k.shift.getD c none with
  | none =>
    if Scalar.belowInfinity x then { k with shift := k.shift.setIfInBounds c (some x) } else k
  | some y => { k with shift := k.shift.setIfInBounds c (some (Scalar.min y x)) }

/-- The cells of a block from its root on. -/
private def chain (b : Blocks) (root : Nat) : (count : Nat) → Nat → List Nat
  | 0, _ => []
  | count + 1, c =>
    let next := b.next.getD c c
    if next = root then [c] else c :: chain b root count next

/-- The cell before `c` in its layer, seen in the direction of the pass. -/
private def before? (p : Pass) (layer : List Nat) (place : Nat) : Option Nat :=
  if p.fromLeft then (if place = 0 then none else layer[place - 1]?) else layer[place + 1]?

/-- What a compaction works on. -/
private structure Frame (α : Type) where
  net : Net α
  blocks : Blocks
  /-- The cell before each cell, if there is one. -/
  before : Array (Option Nat)
  spacing : α

/-- Moves the block of `v` away from the block of the cell before its member `w`, once that is packed. -/
private def separate (f : Frame α) (v w q u : Nat) (k : Packing α) : Packing α :=
  let delta := f.spacing + ((f.net.size q).1 + (f.net.size w).1) / 2
  let k :=
    if k.sinkOf v = v then { k with sink := k.sink.setIfInBounds v (k.sinkOf u) } else k
  if k.sinkOf v = k.sinkOf u then
    { k with
      coordinate := k.coordinate.setIfInBounds v (some (Scalar.max (k.at v) (k.at u + delta))) }
  else k.lowerShift (k.sinkOf u) (k.at v - (k.at u + delta))

/-- Gives the block of a root its coordinate, after the blocks before its members. -/
private def pack (f : Frame α) : (depth : Nat) → Packing α → Nat → Packing α
  | 0, k, _ => k
  | depth + 1, k, v =>
    if (k.coordinate.getD v none).isSome then k
    else
      let k := { k with coordinate := k.coordinate.setIfInBounds v (some 0) }
      (chain f.blocks v f.net.cellCount v).foldl
        (fun k w =>
          match f.before.getD w none with
          | none => k
          | some q =>
            let u := f.blocks.root.getD q q
            separate f v w q u (pack f depth k u))
        k

private def frame (p : Pass) (n : Net α) (a : LayerOrder α) (b : Blocks) (spacing : α) : Frame α :=
  let before := a.layers.foldl
    (fun before layer =>
      layer.zipIdx.foldl
        (fun before (c, place) => before.setIfInBounds c (p.before? layer place)) before)
    (Array.replicate n.cellCount none)
  ⟨n, b, before, spacing⟩

/-- The coordinate of each cell across the layers. -/
def coordinates (p : Pass) (n : Net α) (a : LayerOrder α) (crossed : List (Nat × Nat))
    (spacing : α) : List α :=
  let b := p.blocks n a crossed
  let f := p.frame n a b spacing
  let start : Packing α :=
    ⟨Array.replicate n.cellCount none, Array.range n.cellCount, Array.replicate n.cellCount none⟩
  let k := ((p.cells a).filter fun v => b.root.getD v v = v).foldl
    (pack f (n.cellCount + 1)) start
  (List.range n.cellCount).map fun v =>
    let root := b.root.getD v v
    let x := if p.fromLeft then k.at root else -(k.at root)
    match k.shift.getD (k.sinkOf root) none with
    | none => x
    | some shift => if p.fromLeft then x + shift else x + -shift

end Pass

/-- The mean of the two middle ones of four numbers. -/
private def middleMean (xs : List α) : α :=
  let sorted := Scalar.sorted xs
  (sorted.getD 1 0 + sorted.getD 2 0) / 2

/-- The coordinates of the layers, from the top. -/
private def depths (n : Net α) (spacing : α) : (y : α) → List (List Nat) → List (List Nat × α)
  | _, [] => []
  | y, layer :: layers =>
    let half := Scalar.maximum (layer.map fun c => (n.size c).2 / 2)
    (layer, y + half) :: depths n spacing (y + (2 * half + spacing)) layers

/-- The centres of the vertices of a part of a chart, across and along the layers. -/
def centers (cellSpacing layerSpacing : α) (p : Part α) : List (Point α) :=
  let n := Net.ofPart p
  let a := LayerOrder.settled n
  let crossed := conflicts n a
  let passes := Pass.all.map fun pass => pass.coordinates n a crossed cellSpacing
  let ys := depths n layerSpacing 0 a.layers.toList
  (List.range n.vertexCount).map fun v =>
    ⟨middleMean (passes.map fun xs => xs.getD v 0),
     ((ys.find? fun (layer, _) => layer.contains v).map (·.2)).getD 0⟩

end Flowchart.Layered
