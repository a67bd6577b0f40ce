import Flowchart.Vocabulary
import Flowchart.Fault

/-!
# Hooks

A hook is a named place on the boundary of a node where connections can be attached. On one of the four sides it
sits at `offset` along the side; the diagonal hooks have fixed places.
-/

namespace Flowchart

structure Hook (α : Type) where
  id : String
  direction : Direction
  offset : α
  visible : Bool
deriving DecidableEq, Repr

/-- The name of a hook that a node gives out. -/
def hookName (node direction : String) (number : Nat) : String :=
  node ++ "-hook-" ++ direction ++ "-" ++ toString number

namespace Hook

variable {α : Type} [Scalar α]

/-- A hook on a known direction with an offset from 0 to 1. -/
def make (id : String) (direction : Term Direction) (offset : α) (visible : Bool) :
    Except (Fault α) (Hook α) :=
  match direction with
  | .foreign name => .error (.unknownDirection name)
  | .known d =>
    if 0 ≤ offset ∧ offset ≤ 1 then .ok ⟨id, d, offset, visible⟩
    else .error (.offsetOutside offset)

def isOn (h : Hook α) (d : Term Direction) : Bool :=
  decide (.known h.direction = d)

def initial (node : String) (offset : α) (d : Direction) : Hook α :=
  ⟨hookName node (Vocabulary.name d) 0, d, offset, true⟩

/-- One visible hook in the middle of each side. -/
def defaults (node : String) : List (Hook α) :=
  Direction.cardinals.map (initial node 0.5)

/-- The default hooks and one on each diagonal direction. -/
def fullSet (node : String) : List (Hook α) :=
  defaults node ++ Direction.diagonals.map (initial node 0)

end Hook

end Flowchart
