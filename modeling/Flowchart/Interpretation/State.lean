import Flowchart.Interpretation.Settings
import Flowchart.Graph
import Flowchart.Naming

/-!
# The state of an interpretation

What is carried from one line of an outline to the next: the chart so far, where the next node is proposed, the
decisions that are still open and the containers that are. The innermost decision and the innermost container
come first in their lists.

Every part of the chart gets a numbered id. The numbers of nodes, connections and containers run separately,
and a number is skipped if its id is taken.
-/

namespace Flowchart.Interpretation

/-- A decision whose answers attach to it. -/
structure OpenDecision (α : Type) where
  nodeId : String
  position : Point α
deriving DecidableEq, Repr

/-- A container that is not closed yet. -/
structure Draft (α : Type) where
  id : String
  name : String
  rect : Rect α
  /-- The height at which the layout goes on behind the container. -/
  resumeY : α
  depth : Nat
  parent : Option String
  nodeIds : List String
  children : List String
deriving DecidableEq, Repr

/-- The parts of a chart that are numbered. -/
inductive Part where
  | node
  | connection
  | container
deriving DecidableEq, Repr

/-- How the ids of a part begin. -/
def Part.stem : Part → String
  | node => "node"
  | connection => "conn"
  | container => "container"

def Part.idAt (p : Part) (number : Nat) : String :=
  p.stem ++ "-" ++ toString number

/-- The last number that each part was given. -/
structure Counters where
  node : Nat
  connection : Nat
  container : Nat
deriving DecidableEq, Repr

namespace Counters

def get (c : Counters) : Part → Nat
  | .node => c.node
  | .connection => c.connection
  | .container => c.container

def set (c : Counters) (number : Nat) : Part → Counters
  | .node => { c with node := number }
  | .connection => { c with connection := number }
  | .container => { c with container := number }

end Counters

structure State (α : Type) where
  cursor : Point α
  taken : List String
  nodes : List (Node α)
  connections : List (Connection α)
  /-- The ids of all containers in the order in which they were opened. -/
  opened : List String
  closed : List (Container α)
  decisions : List (OpenDecision α)
  drafts : List (Draft α)
  /-- The node that the next one in the chain is connected with. -/
  last : Option String
  counters : Counters
deriving DecidableEq, Repr

namespace State

variable {α : Type}

/-- Nothing interpreted yet, among nodes that are there already. -/
def initial (settings : Settings α) (existing : List (Node α)) : State α where
  cursor := settings.origin
  taken := existing.map (·.id)
  nodes := []
  connections := []
  opened := []
  closed := []
  decisions := []
  drafts := []
  last := none
  counters := ⟨0, 0, 0⟩

/-- The next id of a part, which is taken from now on. -/
def freshId (s : State α) (p : Part) : String × State α :=
  let number := freshNumber s.taken p.idAt (s.counters.get p + 1)
  let id := p.idAt number
  (id, { s with taken := id :: s.taken, counters := s.counters.set number p })

def addConnection (s : State α) (c : Connection α) : State α :=
  { s with connections := s.connections ++ [c] }

end State

end Flowchart.Interpretation
