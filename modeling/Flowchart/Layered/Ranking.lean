import Flowchart.Layered.Digraph

/-!
# Ranks

The vertices of a graph without cycles are put into layers, each vertex one layer below the lowest of its
predecessors. A vertex is taken up as soon as all of its incoming edges have been scanned.
-/

namespace Flowchart.Layered

structure Ranking where
  ranks : Array Nat
  layers : Array (List Nat)
  /-- The edges whose sources are in a layer. -/
  scanned : List Nat
deriving DecidableEq, Repr

namespace Ranking

def rank (r : Ranking) (v : Nat) : Nat :=
  r.ranks.getD v 0

private def lowest (r : Ranking) (sources : List (Nat × Nat)) : Nat :=
  sources.foldl (fun m (_, u) => max m (r.rank u + 1)) 0

/-- Puts a vertex into its layer and scans its outgoing edges. -/
private def place (g : Digraph) (r : Ranking) (v : Nat) : Ranking :=
  let rank := r.lowest (g.inEdges v)
  { ranks := r.ranks.setIfInBounds v rank
    layers := r.layers.modify rank (· ++ [v])
    scanned := (g.outEdges v).map (·.1) ++ r.scanned }

private def isReady (g : Digraph) (r : Ranking) (v : Nat) : Bool :=
  (g.inEdges v).all fun (e, _) => r.scanned.contains e

/-- Places the vertices of a list and collects those that have become ready. -/
private def round (g : Digraph) (r : Ranking) (todo : List Nat) : Ranking × List Nat :=
  todo.foldl
    (fun (r, next) v =>
      let r := r.place g v
      let next := (g.outEdges v).foldl
        (fun next (_, x) =>
          if r.isReady g x && !next.contains x then next ++ [x] else next)
        next
      (r, next))
    (r, [])

private def rounds (g : Digraph) : (count : Nat) → Ranking → List Nat → Ranking
  | 0, r, _ => r
  | _ + 1, r, [] => r
  | count + 1, r, v :: todo =>
    let (r, next) := r.round g (v :: todo)
    rounds g count r next

/-- The layers of a graph without cycles, begun with the vertices `first` and then with all others that have
no incoming edge. -/
def ofDigraph (g : Digraph) (first : List Nat) : Ranking :=
  let start := first ++ g.roots.filter fun v => !first.contains v
  let r := rounds g g.size ⟨Array.replicate g.size 0, Array.replicate g.size [], []⟩ start
  { r with layers := r.layers.filter fun layer => !layer.isEmpty }

end Ranking

end Flowchart.Layered
