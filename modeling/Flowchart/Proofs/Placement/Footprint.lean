import Flowchart.Proofs.Placement.Found
import Flowchart.Proofs.Placement.Order
import Flowchart.Proofs.Sorting

/-!
# What the search for a place looks at

The search looks at the ids and the rectangles of nodes only, which are their footprints. So the same place is found, or
none for the same reason, for nodes with the same footprints (`placeAmong_congr`). The proofs follow the definitions
of the search: a board of footprints is the board of the nodes with each of them replaced by its footprint.
-/

namespace Flowchart

variable {α : Type}

/-- The node without anything but its id and its rectangle. -/
def Node.footprint (n : Node α) : Node α :=
  ⟨n.id, .known .process, n.rect, "", .absent, []⟩

namespace Placement

variable [Scalar α]

/-- The footprint of a node on the guides of the node. -/
def Placed.footprint (p : Placed α) : Placed α :=
  ⟨p.node.footprint, p.guides⟩

omit [Scalar α] in
theorem Placed.ofNodes_footprint (nodes : List (Node α)) :
    Placed.ofNodes (nodes.map Node.footprint) = (Placed.ofNodes nodes).map Placed.footprint := by
  unfold Placed.ofNodes
  rw [List.zipIdx_map, List.map_map, List.map_map]
  rfl

theorem primaryAxis_footprint (config : Config α) (nodes : List (Node α)) :
    primaryAxis config (nodes.map Node.footprint) = primaryAxis config nodes := by
  unfold primaryAxis
  rw [← List.map_drop, List.zip_map]
  simp only [List.countP_map]
  rfl

theorem sortByPair_map {β γ : Type} (f : β → γ) (key : γ → Coordinate α × Coordinate α) (items : List β) :
    sortByPair key (items.map f) = (sortByPair (fun b => key (f b)) items).map f :=
  Sorting.sort_map f _ items

theorem alongAxis_footprint (axis : Term Axis) (placed : List (Placed α)) :
    alongAxis axis (placed.map Placed.footprint) = (alongAxis axis placed).map Placed.footprint := by
  unfold alongAxis
  rw [sortByPair_map, sortByPair_map]
  split <;> rfl

theorem Lattice.ofPlaced_footprint (config : Config α) (placed : List (Placed α)) :
    Lattice.ofPlaced config (placed.map Placed.footprint) = Lattice.ofPlaced config placed := by
  have hnodes : (placed.map Placed.footprint).map (·.node) = (placed.map (·.node)).map Node.footprint := by
    rw [List.map_map, List.map_map]
    rfl
  unfold Lattice.ofPlaced
  simp only [hnodes, primaryAxis_footprint, alongAxis_footprint, List.mapM_map]
  rfl

namespace Board

/-- The board of the footprints. -/
def footprint (b : Board α) : Board α :=
  ⟨b.config, b.placed.map Placed.footprint, b.lattice⟩

theorem ofNodes_footprint (config : Config α) (nodes : List (Node α)) :
    Board.ofNodes config (nodes.map Node.footprint) = (Board.ofNodes config nodes).map footprint := by
  unfold Board.ofNodes ofPlaced
  rw [Placed.ofNodes_footprint, Lattice.ofPlaced_footprint]
  cases Lattice.ofPlaced config (Placed.ofNodes nodes) <;> rfl

omit [Scalar α] in
theorem nodes_footprint (b : Board α) : b.footprint.nodes = b.nodes.map Node.footprint := by
  simp only [nodes, footprint, List.map_map]
  rfl

theorem primaryAxis_footprint (b : Board α) : b.footprint.primaryAxis = b.primaryAxis := by
  unfold primaryAxis
  rw [nodes_footprint, Placement.primaryAxis_footprint]
  rfl

variable [Trigonometry α] (b : Board α) (n : Node α)

omit [Scalar α] [Trigonometry α] in
theorem others_footprint : b.footprint.others n.footprint = (b.others n).map Node.footprint := by
  unfold others
  rw [nodes_footprint, List.filter_map]
  rfl

theorem isFree_footprint (p : Point α) : b.footprint.isFree p n.footprint = b.isFree p n := by
  unfold isFree isTooClose
  simp only [others_footprint, List.any_map]
  rfl

omit [Trigonometry α] in
theorem straightPlaces_footprint (reference : Node α) (axis : Term Axis) :
    b.footprint.straightPlaces n.footprint reference.footprint axis = b.straightPlaces n reference axis := by
  unfold straightPlaces straightSpots
  split <;> rfl

theorem ringPlaces_footprint (reference : Node α) :
    b.footprint.ringPlaces n.footprint reference.footprint = b.ringPlaces n reference := rfl

omit [Trigonometry α] in
theorem randomPlaces_footprint : b.footprint.randomPlaces n.footprint = b.randomPlaces n := rfl

theorem find_footprint (reference : Option (Node α)) :
    b.footprint.find n.footprint (reference.map Node.footprint) = b.find n reference := by
  cases hlast : b.nodes.getLast? with
  | none =>
    have hplaced : b.placed = [] := by simpa [nodes] using hlast
    unfold find findSpot
    simp [footprint, hplaced]
  | some last =>
    have hlast' : b.footprint.nodes.getLast? = some last.footprint := by
      rw [nodes_footprint, List.getLast?_map, hlast]
      rfl
    have hreference : (reference.map Node.footprint).getD last.footprint = (reference.getD last).footprint := by
      cases reference <;> rfl
    rw [find_eq hlast, find_eq hlast', hreference, primaryAxis_footprint, straightPlaces_footprint,
      ringPlaces_footprint, randomPlaces_footprint]
    simp only [isFree_footprint]
    rfl

theorem resolve_footprint (reference : Option (Node α)) :
    b.footprint.resolve n.footprint (reference.map Node.footprint) = b.resolve n reference := by
  rw [resolve_eq, resolve_eq, isFree_footprint, find_footprint]
  rfl

end Board

variable [Trigonometry α]

theorem placeAmong_footprint (config : Config α) (nodes : List (Node α)) (n : Node α) (reference : Option (Node α)) :
    placeAmong config (nodes.map Node.footprint) n.footprint (reference.map Node.footprint) =
      placeAmong config nodes n reference := by
  unfold placeAmong
  rw [Board.ofNodes_footprint]
  cases Board.ofNodes config nodes with
  | error e => rfl
  | ok b => exact b.resolve_footprint n reference

/-- Among nodes with the same footprints a node with the same footprint is given the same place, or none for the same
reason. -/
theorem placeAmong_congr {config : Config α} {nodes nodes' : List (Node α)} {n n' : Node α}
    {reference reference' : Option (Node α)} (hnodes : nodes.map Node.footprint = nodes'.map Node.footprint)
    (hn : n.footprint = n'.footprint)
    (hreference : reference.map Node.footprint = reference'.map Node.footprint) :
    placeAmong config nodes n reference = placeAmong config nodes' n' reference' := by
  rw [← placeAmong_footprint, hnodes, hn, hreference, placeAmong_footprint]

end Placement

end Flowchart
