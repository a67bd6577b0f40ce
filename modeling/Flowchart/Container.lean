import Flowchart.Geometry.Rect
import Flowchart.Vocabulary
import Flowchart.Fault

/-!
# Containers

A container is a frame around nodes and other containers, which it names by their ids.
-/

namespace Flowchart

structure Container (α : Type) where
  id : String
  kind : Term ContainerKind
  name : String
  rect : Rect α
  nodeIds : List String
  children : List String
  parent : Option String
  depth : Nat
  collapsed : Bool
  locked : Bool
deriving DecidableEq, Repr

/-- The distance between a container and its members. -/
def containerMargin {α : Type} [Scalar α] : α := 40

namespace ContainerKind

def fill : ContainerKind → String
  | swimlane => "#E3F2FD"
  | unit => "#E8F5E9"
  | layer => "#FFF3E0"
  | scenario => "#F3E5F5"

def border : ContainerKind → String
  | swimlane => "#2196F3"
  | unit => "#4CAF50"
  | layer => "#FF9800"
  | scenario => "#9C27B0"

/-- The colours with which a container of a kind is painted: the fill and the border. -/
def colors {α : Type} : Term ContainerKind → Except (Fault α) (String × String)
  | .known kind => .ok (kind.fill, kind.border)
  | .foreign name => .error (.noColors name)

end ContainerKind

end Flowchart
