import Flowchart.Layered.Net

/-!
# Order within the layers

The cells of each layer are ordered so that few edges cross: by the mean place of their neighbours in the layer
beside, and then by exchanging adjacent cells where this saves crossings. The layers are gone through from top
to bottom, back from bottom to top if any edges crossed, and once more from top to bottom.
-/

namespace Flowchart.Layered

/-- The order of the cells, with the place of each cell in its layer and its relative place, from 0 to 1. -/
structure LayerOrder (α : Type) where
  layers : Array (List Nat)
  places : Array Nat
  relative : Array α
deriving Repr

namespace LayerOrder

variable {α : Type} [Scalar α]

def place (a : LayerOrder α) (c : Nat) : Nat :=
  a.places.getD c 0

def relativePlace (a : LayerOrder α) (c : Nat) : α :=
  a.relative.getD c 0

def layer (a : LayerOrder α) (i : Nat) : List Nat :=
  a.layers.getD i []

/-- Sets a layer in a given order. -/
private def setLayer (a : LayerOrder α) (i : Nat) (cells : List Nat) : LayerOrder α :=
  let unit : α := if cells.length = 1 then 1 else 1 / Scalar.ofNat (cells.length - 1)
  cells.zipIdx.foldl
    (fun a (c, place) =>
      { a with
        places := a.places.setIfInBounds c place
        relative := a.relative.setIfInBounds c (Scalar.ofNat place * unit) })
    { a with layers := a.layers.setIfInBounds i cells }

def ofNet (n : Net α) : LayerOrder α :=
  n.layers.zipIdx.foldl (fun a (cells, i) => a.setLayer i cells)
    ⟨n.layers.toArray, Array.replicate n.cellCount 0, Array.replicate n.cellCount 0⟩

/-- The pairs of a list of which the first member is larger. -/
private def inversions : List Nat → Nat
  | [] => 0
  | p :: rest => rest.countP (· < p) + inversions rest

/-- The places of the neighbours of a cell, in rising order. -/
def neighbourPlaces (a : LayerOrder α) (cells : List Nat) : List Nat :=
  Sorting.sort (fun p q => decide (p < q)) (cells.map a.place)

private def crossings (a : LayerOrder α) (near : Nat → List Nat) (cells : List Nat) : Nat :=
  inversions (cells.flatMap fun c => a.neighbourPlaces (near c))

/-- The pairs of neighbours that cross if the first cell stands before the second. -/
private def pairCrossings (a : LayerOrder α) (first second : List Nat) : Nat :=
  first.foldl
    (fun count p =>
      count + second.countP fun q => decide (a.relativePlace q < a.relativePlace p)) 0

/-- The mean relative place of the neighbours, or the cell's own one if it has none. -/
private def mean (a : LayerOrder α) (near : Nat → List Nat) (c : Nat) : α :=
  match near c with
  | [] => a.relativePlace c
  | ns => Scalar.sum (ns.map a.relativePlace) / Scalar.ofNat ns.length

private def byMean (a : LayerOrder α) (near : Nat → List Nat) (cells : List Nat) : List Nat :=
  (Sorting.sort (fun x y => decide (x.1 < y.1)) (cells.map fun c => (a.mean near c, c))).map (·.2)

/-- Goes along the cells behind `c` and exchanges it with the next one where this saves crossings; also counts
the crossings that are left. -/
private def exchange (a : LayerOrder α) (near : Nat → List Nat) (c : Nat) :
    List Nat → List Nat × Nat
  | [] => ([c], 0)
  | d :: rest =>
    let kept := a.pairCrossings (near c) (near d)
    let swapped := (near c).length * (near d).length - kept
    if swapped < kept then
      let (tail, count) := a.exchange near c rest
      (d :: tail, count + swapped)
    else
      let (tail, count) := a.exchange near d rest
      (c :: tail, count + kept)

/-- Reorders a layer whose edges to the layer beside cross; also gives the number of crossings. -/
private def reorder (a : LayerOrder α) (near : Nat → List Nat) (i : Nat) : LayerOrder α × Nat :=
  let cells := a.layer i
  if a.crossings near cells = 0 then (a, 0)
  else
    match a.byMean near cells with
    | [] => (a, 0)
    | c :: rest =>
      let (ordered, count) := a.exchange near c rest
      (a.setLayer i ordered, count)

private def sweep (a : LayerOrder α) (near : Nat → List Nat) (indices : List Nat) :
    LayerOrder α × Nat :=
  indices.foldl
    (fun (a, total) i =>
      let (a, count) := a.reorder near i
      (a, total + count))
    (a, 0)

/-- The order of the cells after all passes. -/
def settled (n : Net α) : LayerOrder α :=
  let downward := List.range n.layers.length
  let (a, count) := (ofNet n).sweep n.upper downward
  let a := if count = 0 then a else (a.sweep n.lower downward.reverse).1
  (a.sweep n.upper downward).1

end LayerOrder

end Flowchart.Layered
