import Flowchart.Layered.Ranking
import Flowchart.Numeric.Scalar

/-!
# Layered nets

Where an edge runs over several layers, a dummy takes its place in each layer between its ends, so that all
neighbours lie in adjacent layers. Vertices and dummies together are the cells of the net; the dummies are
numbered after the vertices.
-/

namespace Flowchart.Layered

/-- A connected part of a chart: the extents of its vertices across and along the layers, and its edges. -/
structure Part (α : Type) where
  sizes : List (α × α)
  edges : List (Nat × Nat)
deriving DecidableEq, Repr

structure Net (α : Type) where
  vertexCount : Nat
  /-- The extents of the cells across and along the layers. -/
  sizes : Array (α × α)
  above : Array (List Nat)
  below : Array (List Nat)
  layers : List (List Nat)
deriving Repr

namespace Net

variable {α : Type} [Scalar α]

def cellCount (n : Net α) : Nat :=
  n.sizes.size

def isDummy (n : Net α) (c : Nat) : Bool :=
  decide (n.vertexCount ≤ c)

def size (n : Net α) (c : Nat) : α × α :=
  n.sizes.getD c (0, 0)

/-- The neighbours of a cell in the layer above. -/
def upper (n : Net α) (c : Nat) : List Nat :=
  n.above.getD c []

/-- The neighbours of a cell in the layer below. -/
def lower (n : Net α) (c : Nat) : List Nat :=
  n.below.getD c []

/-- The dummies along the edges, the first of them numbered `next`. -/
private def chainsFrom (r : Ranking) (next : Nat) : List (Nat × Nat) → List (List Nat)
  | [] => []
  | (a, b) :: edges =>
    let count := r.rank b - r.rank a - 1
    List.range' next count :: chainsFrom r (next + count) edges

/-- The layers with the dummies of one edge behind the cells that are there. -/
private def addChain (layers : List (List Nat)) (top : Nat) (chain : List Nat) : List (List Nat) :=
  layers.zipIdx.map fun (layer, i) =>
    if top < i then
      match chain[i - top - 1]? with
      | some d => layer ++ [d]
      | none => layer
    else layer

/-- The two neighbours of each dummy of an edge, in the order of the dummies. -/
private def chainLinks (b : Nat) : (above : Nat) → (chain : List Nat) → List (Nat × Nat)
  | _, [] => []
  | above, d :: rest => (above, rest.headD b) :: chainLinks b d rest

/-- The element in the middle of the sorted numbers; of two in the middle the upper one. -/
private def upperMedian (xs : List α) : α :=
  let sorted := Scalar.sorted xs
  (sorted[sorted.length / 2]?).getD 0

/-- The cell in a layer that stands for the neighbour `x` of the vertex `v`: `x` itself if it is there, or else
the dummy of the first edge between the two. -/
private def standIn (g : Digraph) (r : Ranking) (chains : List (List Nat)) (v x layer : Nat) : Nat :=
  if r.rank x = layer then x
  else
    match g.firstEdge? v x with
    | some e => ((chains[e]?.getD [])[layer - min (r.rank v) (r.rank x) - 1]?).getD x
    | none => x

def ofPart (p : Part α) : Net α :=
  let given : Digraph := ⟨p.sizes.length, p.edges⟩
  let g := given.acyclic
  let r := Ranking.ofDigraph g given.roots
  let chains := chainsFrom r g.size g.edges
  let links : List (Nat × Nat) := (g.edges.zip chains).flatMap fun ((a, b), chain) => chainLinks b a chain
  let dummySize := (upperMedian (p.sizes.map (·.1)), upperMedian (p.sizes.map (·.2)))
  let vertices := List.range g.size
  let above := vertices.map fun v =>
    (g.inEdges v).map fun (_, x) => standIn g r chains v x (r.rank v - 1)
  let below := vertices.map fun v =>
    (g.outEdges v).map fun (_, x) => standIn g r chains v x (r.rank v + 1)
  { vertexCount := g.size
    sizes := (p.sizes ++ chains.flatten.map (fun _ => dummySize)).toArray
    above := (above ++ links.map (fun l => [l.1])).toArray
    below := (below ++ links.map (fun l => [l.2])).toArray
    layers := (g.edges.zip chains).foldl
      (fun layers ((a, _), chain) => addChain layers (r.rank a) chain) r.layers.toList }

end Net

end Flowchart.Layered
