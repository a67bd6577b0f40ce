/-!
# Connected components

The vertices of a graph fall into components. Each vertex begins as a component of its own; an edge between two
components puts the vertices of the second one behind those of the first.
-/

namespace Flowchart.Arrangement

/-- Each of the ids once, in the order in which they first occur. -/
def distinct (ids : List String) : List String :=
  ids.foldl (fun seen id => if seen.contains id then seen else seen ++ [id]) []

/-- Joins the components of the two ends of an edge. -/
def join (components : List (List String)) (edge : String × String) : List (List String) :=
  match components.find? (·.contains edge.1), components.find? (·.contains edge.2) with
  | some first, some second =>
    if first.contains edge.2 then components
    else (components.filter fun c => !c.contains edge.2).map fun c =>
      if c.contains edge.1 then c ++ second else c
  | _, _ => components

/-- The components of a graph, in the order of their first vertices. -/
def components (vertices : List String) (edges : List (String × String)) : List (List String) :=
  edges.foldl join (vertices.map fun v => [v])

end Flowchart.Arrangement
