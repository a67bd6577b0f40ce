/-!
# Directed graphs without cycles

The vertices of a part of a chart are numbered from zero, and its edges keep their order. A depth-first search
finds the edges that lead back to a vertex on the way to them; with these reversed, the graph has no cycle.
-/

namespace Flowchart.Layered

structure Digraph where
  size : Nat
  edges : List (Nat × Nat)
deriving DecidableEq, Repr

namespace Digraph

/-- The edges with their numbers. -/
def numbered (g : Digraph) : List ((Nat × Nat) × Nat) :=
  g.edges.zipIdx

/-- The numbers and the targets of the edges that leave a vertex. -/
def outEdges (g : Digraph) (v : Nat) : List (Nat × Nat) :=
  g.numbered.filterMap fun ((a, b), e) => if a = v then some (e, b) else none

/-- The numbers and the sources of the edges that enter a vertex. -/
def inEdges (g : Digraph) (v : Nat) : List (Nat × Nat) :=
  g.numbered.filterMap fun ((a, b), e) => if b = v then some (e, a) else none

/-- The vertices without an incoming edge. -/
def roots (g : Digraph) : List Nat :=
  (List.range g.size).filter fun v => (g.inEdges v).isEmpty

/-- The first edge between two vertices, whatever its direction. -/
def firstEdge? (g : Digraph) (v w : Nat) : Option Nat :=
  (g.numbered.find? fun ((a, b), _) => (a = v && b = w) || (a = w && b = v)).map (·.2)

/-- The vertices that a search has reached, and the edges it found to lead back. -/
structure Search where
  reached : List Nat
  feedback : List Nat
deriving DecidableEq, Repr

/-- Searches from a vertex; `path` holds the vertices on the way to it, and `depth` bounds how many more there
can be. -/
def searchFrom (g : Digraph) : (depth : Nat) → (path : List Nat) → Search → Nat → Search
  | 0, _, s, _ => s
  | depth + 1, path, s, v =>
    (g.outEdges v).foldl
      (fun s (e, w) =>
        if (v :: path).contains w then { s with feedback := e :: s.feedback }
        else if s.reached.contains w then s
        else searchFrom g depth (v :: path) s w)
      { s with reached := v :: s.reached }

/-- The edges that lead back, searched from the vertices without an incoming edge and then from those that were
not reached. -/
def feedbackEdges (g : Digraph) : List Nat :=
  let start : Search := ⟨[], []⟩
  ((g.roots ++ List.range g.size).foldl
    (fun s v => if s.reached.contains v then s else g.searchFrom g.size [] s v) start).feedback

/-- The graph with the edges that lead back reversed. -/
def acyclic (g : Digraph) : Digraph :=
  let back := g.feedbackEdges
  { g with
    edges := g.numbered.map fun ((a, b), e) => if back.contains e then (b, a) else (a, b) }

end Digraph

end Flowchart.Layered
