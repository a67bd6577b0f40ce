import Flowchart.Arrangement.Component
import Flowchart.Container.Fitting
import Flowchart.Graph
import Flowchart.Layered.Coordinates

/-!
# Arranging a chart

All nodes of a chart are laid out anew in layers, from left to right or from the top down. Each connected
component is laid out on its own, and the components follow each other across the layers with a gap. Drawn
routes are forgotten and the containers are fitted around their members; everything else stays.

How a chart falls into components and how a component is laid out are parameters of `arrangeWith`; `arrange` uses
layered nets.
-/

namespace Flowchart

/-- How the layers of an arrangement follow each other. -/
inductive Orientation where
  | leftToRight
  | topDown
deriving DecidableEq, Repr

def Orientation.ofName (s : String) : Orientation :=
  if s = "LR" then .leftToRight else .topDown

namespace Arrangement

variable {α : Type} [Scalar α]

/-- The space between the nodes of a layer and between the layers. -/
structure Spacing (α : Type) where
  node : α
  layer : α
deriving DecidableEq, Repr

def Spacing.standard : Spacing α := ⟨60, 120⟩

def componentGap : α := 120

/-- Where the top-left corner of an arrangement lies, on both axes. -/
def margin : α := 100

/-- What is laid out of a chart: its vertices, each with its extents across and along the layers, and its edges. -/
structure Diagram (α : Type) where
  vertices : List (String × (α × α))
  edges : List (String × String)
deriving DecidableEq, Repr

/-- A way to lay out a diagram: how its vertices fall into components, and the centres of the vertices of a component,
across and along the layers. -/
structure Method (α : Type) where
  components : Diagram α → List (List String)
  centers : Spacing α → Diagram α → (component : List String) → List (Point α)

/-- The extents of a node across and along the layers. -/
def extents (o : Orientation) (n : Node α) : α × α :=
  match o with
  | .leftToRight => (n.rect.height, n.rect.width)
  | .topDown => (n.rect.width, n.rect.height)

/-- The extents of the node with a given id. -/
def extentsOf (o : Orientation) (nodes : List (Node α)) (id : String) : α × α :=
  match nodeWithId? nodes id with
  | some n => extents o n
  | none => (0, 0)

/-- The diagram of a chart: a vertex for each id of a node, and an edge for each connection that can be laid out. -/
def diagramOf (o : Orientation) (g : Graph α) : Diagram α where
  vertices := (distinct (g.nodes.map (·.id))).map fun id => (id, extentsOf o g.nodes id)
  edges := g.properConnections.map fun c => (c.source, c.target)

namespace Diagram

def ids (d : Diagram α) : List String :=
  d.vertices.map (·.1)

/-- The extents of the vertex with a given id. -/
def size (d : Diagram α) (id : String) : α × α :=
  (d.vertices.lookup id).getD (0, 0)

/-- A component as a part for the layered layout, its vertices numbered in their order. -/
def partOf (d : Diagram α) (component : List String) : Layered.Part α where
  sizes := component.map d.size
  edges := (d.edges.filter fun (a, _) => component.contains a).map
    fun (a, b) => (component.idxOf a, component.idxOf b)

end Diagram

def layeredMethod : Method α where
  components d := components d.ids d.edges
  centers spacing d component := Layered.centers spacing.node spacing.layer (d.partOf component)

/-- The centres of a component moved to where it belongs, and where the next component begins. -/
def shifted (sizes : List (α × α)) (centers : List (Point α)) (offset : α) :
    List (Point α) × α :=
  let both := sizes.zip centers
  let minCross := Scalar.minimum (both.map fun (s, c) => c.x - s.1 / 2)
  let maxCross := Scalar.maximum (both.map fun (s, c) => c.x + s.1 / 2)
  let minLayer := Scalar.minimum (both.map fun (s, c) => c.y - s.2 / 2)
  (centers.map fun c => ⟨c.x - minCross + offset, c.y - minLayer⟩,
    offset + ((maxCross - minCross) + componentGap))

/-- One centre for each vertex of a component; a lone vertex has its centre at zero. -/
def componentCenters (method : Method α) (spacing : Spacing α) (d : Diagram α) (component : List String) :
    List (Point α) :=
  let found := if component.length > 1 then method.centers spacing d component else []
  (List.range component.length).map fun v => found.getD v ⟨0, 0⟩

/-- The centres of all vertices, the components stacked from `offset` on; `size` gives the extents of a vertex, and
`layout` the centres of a component by itself. -/
def stack (size : String → α × α) (layout : List String → List (Point α)) :
    (offset : α) → List (List String) → List (String × Point α)
  | _, [] => []
  | offset, component :: rest =>
    let (centers, next) := shifted (component.map size) (layout component) offset
    component.zip centers ++ stack size layout next rest

/-- The centres of all vertices of a diagram, across and along the layers, under their ids. -/
def centers (method : Method α) (spacing : Spacing α) (d : Diagram α) : List (String × Point α) :=
  stack d.size (componentCenters method spacing d) 0 (method.components d)

/-- The node at its new place, given by its centre across and along the layers; both coordinates of the corner
are rounded to two decimals. -/
def placed (o : Orientation) (n : Node α) (center : Point α) : Node α :=
  let corner :=
    match o with
    | .leftToRight => topLeftOfCenter center.y center.x n.rect.width n.rect.height
    | .topDown => topLeftOfCenter center.x center.y n.rect.width n.rect.height
  n.movedTo ⟨Scalar.roundTo 2 (margin + corner.x), Scalar.roundTo 2 (margin + corner.y)⟩

def placeNode (o : Orientation) (centers : List (String × Point α)) (n : Node α) :
    Except (Fault α) (Node α) :=
  match centers.lookup n.id with
  | some center => .ok (placed o n center)
  | none => .error (.noNode n.id)

end Arrangement

namespace Graph

variable {α : Type} [Scalar α]

/-- The chart with all nodes laid out by a given method. A chart without nodes stays as it is. -/
def arrangeWith (method : Arrangement.Method α) (g : Graph α) (o : Orientation)
    (spacing : Arrangement.Spacing α) : Except (Fault α) (Graph α) :=
  if g.nodes.isEmpty then .ok g
  else do
    let nodes ← g.nodes.mapM
      (Arrangement.placeNode o (Arrangement.centers method spacing (Arrangement.diagramOf o g)))
    .ok ⟨nodes, g.connections.map (·.clearCustomPoints),
      refitContainers g.containers nodes containerMargin⟩

def arrange (g : Graph α) (o : Orientation) (spacing : Arrangement.Spacing α) :
    Except (Fault α) (Graph α) :=
  g.arrangeWith Arrangement.layeredMethod o spacing

end Graph

end Flowchart
