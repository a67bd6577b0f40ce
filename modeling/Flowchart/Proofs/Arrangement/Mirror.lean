import Flowchart.Numeric.Double
import Flowchart.Proofs.Arrangement.Arranged

/-!
# The two orientations

From left to right, a chart with its nodes laid on their sides has the same diagram as the chart itself from the top
down (`diagramOf_onSide`). So the vertices of the two have the same centres, and each node lies at the mirror image of
the place that it has in the other one (`orientations_mirror`).
-/

namespace Flowchart

variable {α : Type}

def Orientation.other : Orientation → Orientation
  | .leftToRight => .topDown
  | .topDown => .leftToRight

namespace Rect

/-- The rectangle with its width and height exchanged, at the same corner. -/
def onSide (r : Rect α) : Rect α :=
  { r with width := r.height, height := r.width }

/-- The mirror image of a rectangle at the line on which both coordinates are the same. -/
def mirrored (r : Rect α) : Rect α :=
  ⟨r.y, r.x, r.height, r.width⟩

end Rect

namespace Node

/-- The node with its width and height exchanged. -/
def onSide (n : Node α) : Node α :=
  { n with rect := n.rect.onSide }

def mirrored (n : Node α) : Node α :=
  { n with rect := n.rect.mirrored }

end Node

/-- The chart with the width and the height of each node exchanged. -/
def Graph.onSide (g : Graph α) : Graph α :=
  { g with nodes := g.nodes.map (·.onSide) }

namespace Graph

theorem hasNode_onSide (g : Graph α) (id : String) : g.onSide.hasNode id = g.hasNode id := by
  unfold hasNode onSide
  rw [List.any_map]
  rfl

theorem properConnections_onSide (g : Graph α) : g.onSide.properConnections = g.properConnections := by
  unfold properConnections
  simp only [hasNode_onSide]
  rfl

end Graph

namespace Arrangement

theorem extents_onSide (o : Orientation) (n : Node α) : extents o.other n.onSide = extents o n := by
  cases o <;> rfl

variable [Scalar α]

theorem extentsOf_onSide (o : Orientation) (nodes : List (Node α)) (id : String) :
    extentsOf o.other (nodes.map (·.onSide)) id = extentsOf o nodes id := by
  unfold extentsOf nodeWithId?
  rw [find?_reverse_map (t := (·.onSide)) Node.id fun _ => rfl]
  cases nodes.reverse.find? (·.id = id) with
  | none => rfl
  | some n => exact extents_onSide o n

/-- Both charts are laid out from the same diagram. -/
theorem diagramOf_onSide (o : Orientation) (g : Graph α) : diagramOf o.other g.onSide = diagramOf o g := by
  have hids : g.onSide.nodes.map (·.id) = g.nodes.map (·.id) := by
    unfold Graph.onSide
    rw [List.map_map]
    rfl
  have hextents : ∀ id, extentsOf o.other g.onSide.nodes id = extentsOf o g.nodes id :=
    extentsOf_onSide o g.nodes
  unfold diagramOf
  simp only [hids, hextents, Graph.properConnections_onSide]

/-- A node on its side is moved to the mirrored place by the same centre. -/
theorem placed_onSide (o : Orientation) (n : Node α) (center : Point α) :
    placed o.other n.onSide center = (placed o n center).mirrored := by
  cases o <;> rfl

theorem placeNode_onSide (o : Orientation) (entries : List (String × Point α)) (n : Node α) :
    placeNode o.other entries n.onSide = (placeNode o entries n).map (·.mirrored) := by
  have hid : n.onSide.id = n.id := rfl
  unfold placeNode
  rw [hid]
  cases entries.lookup n.id with
  | none => rfl
  | some center => exact congrArg Except.ok (placed_onSide o n center)

end Arrangement

open Arrangement

namespace Graph

variable [Scalar α]

theorem map_nodes_arrangeWith_onSide (method : Method α) (g : Graph α) (o : Orientation) (spacing : Spacing α) :
    (g.onSide.arrangeWith method o.other spacing).map (·.nodes) =
      (g.arrangeWith method o spacing).map fun g' => g'.nodes.map (·.mirrored) := by
  have hplace : placeNode o.other (centers method spacing (diagramOf o g)) ∘ Node.onSide =
      fun n => (placeNode o (centers method spacing (diagramOf o g)) n).map (·.mirrored) :=
    funext fun n => placeNode_onSide o _ n
  calc (g.onSide.arrangeWith method o.other spacing).map (·.nodes)
      = (g.nodes.map (·.onSide)).mapM (placeNode o.other (centers method spacing (diagramOf o g))) := by
        rw [map_nodes_arrangeWith, diagramOf_onSide]
        rfl
    _ = (g.nodes.mapM (placeNode o (centers method spacing (diagramOf o g)))).map (List.map (·.mirrored)) := by
        rw [List.mapM_map, hplace, map_mapM]
    _ = (g.arrangeWith method o spacing).map fun g' => g'.nodes.map (·.mirrored) := by
        rw [← map_nodes_arrangeWith]
        cases g.arrangeWith method o spacing <;> rfl

/-- Whatever the layout of a diagram is, the nodes of a chart on its side are arranged in the one orientation as the
mirror images of the nodes of the chart in the other one. The layered layout has a result for both. -/
theorem orientations_mirror (α : Type) [Scalar α] :
    (∀ (method : Method α) (g : Graph α) (o : Orientation) (spacing : Spacing α),
      (g.onSide.arrangeWith method o.other spacing).map (·.nodes) =
        (g.arrangeWith method o spacing).map fun g' => g'.nodes.map (·.mirrored)) ∧
    ∀ (g : Graph α) (spacing : Spacing α), ∃ h h' : Graph α,
      g.arrange .topDown spacing = .ok h ∧ g.onSide.arrange .leftToRight spacing = .ok h' ∧
        List.Forall₂ (fun n n' => n'.id = n.id ∧ n'.position = ⟨n.position.y, n.position.x⟩) h.nodes h'.nodes := by
  refine ⟨map_nodes_arrangeWith_onSide, fun g spacing => ?_⟩
  obtain ⟨h, hh⟩ : ∃ h, g.arrange .topDown spacing = .ok h := exists_arrangeWith (isPartition_layeredMethod _ g)
  have hmirror := map_nodes_arrangeWith_onSide layeredMethod g .topDown spacing
  have hmap : (g.onSide.arrange .leftToRight spacing).map (·.nodes) = .ok (h.nodes.map (·.mirrored)) :=
    hmirror.trans (congrArg (Except.map fun g' => g'.nodes.map (·.mirrored)) hh)
  obtain ⟨h', hh', hnodes⟩ := exists_eq_ok_of_map hmap
  refine ⟨h, h', hh, hh', ?_⟩
  rw [hnodes, List.forall₂_map_right_iff]
  exact List.forall₂_same.2 fun n _ => ⟨rfl, rfl⟩

example :
    let a : Node Float := ⟨"a", .known .process, ⟨0, 0, 200, 80⟩, "", .absent, Hook.defaults "a"⟩
    let b : Node Float := ⟨"b", .known .process, ⟨0, 0, 140, 60⟩, "", .absent, Hook.defaults "b"⟩
    let g : Graph Float := ⟨[a, b], [Connection.between "k" "a" "b"], []⟩
    (g.arrange .topDown .standard).map (fun g' => g'.nodes.map (·.position)) = .ok [⟨100, 100⟩, ⟨130, 300⟩] ∧
      (g.onSide.arrange .leftToRight .standard).map (fun g' => g'.nodes.map (·.position)) =
        .ok [⟨100, 100⟩, ⟨300, 130⟩] := by
  decide +kernel

end Graph

end Flowchart
