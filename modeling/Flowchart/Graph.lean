import Flowchart.Node
import Flowchart.Connection
import Flowchart.Container

/-!
# Charts

A chart is a list of nodes, of connections between them and of containers around them.
-/

namespace Flowchart

structure Graph (α : Type) where
  nodes : List (Node α)
  connections : List (Connection α)
  containers : List (Container α)
deriving DecidableEq, Repr

/-- The entry put in the place of the one with the same key, or at the end if there is none. -/
def putEntry {β : Type} (key : String) (value : β) : List (String × β) → List (String × β)
  | [] => [(key, value)]
  | (k, v) :: entries =>
    if k = key then (k, value) :: entries else (k, v) :: putEntry key value entries

/-- The nodes by their ids: in the order in which the ids first occur, each with its last node. -/
def nodeMap {α : Type} (nodes : List (Node α)) : List (String × Node α) :=
  nodes.foldl (fun entries n => putEntry n.id n entries) []

namespace Graph

variable {α : Type} [Scalar α]

def hasNode (g : Graph α) (id : String) : Bool :=
  g.nodes.any (·.id = id)

/-- The connections with an end that is no node of the chart. -/
def danglingConnections (g : Graph α) : List (Connection α) :=
  g.connections.filter fun c => !g.hasNode c.source || !g.hasNode c.target

def selfLoops (g : Graph α) : List (Connection α) :=
  g.connections.filter (·.isSelfLoop)

/-- The connections between two different nodes that are there. -/
def properConnections (g : Graph α) : List (Connection α) :=
  g.connections.filter fun c => !c.isSelfLoop && g.hasNode c.source && g.hasNode c.target

end Graph

end Flowchart
