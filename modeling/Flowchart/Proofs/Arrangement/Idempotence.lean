import Flowchart.Numeric.Exact
import Flowchart.Proofs.Arrangement.Arranged
import Flowchart.Proofs.Container.Fitting

/-!
# Arranging again

What is laid out of a chart are the sizes of its nodes and the ends of its proper connections (`diagramOf_congr`). A
chart that is arranged has the same diagram as before (`alikeUpToLayout_arranged`), so arranging it again finds the
same places, no route is left to forget, and the fitted containers stay fitted (`arranging_forgets_layout`).
-/

namespace Flowchart

variable {α : Type} [Scalar α]

namespace Graph

/-- Whether two charts differ only in the places of their nodes, in drawn routes, in containers and in connections
that are not laid out. -/
structure AlikeUpToLayout (g h : Graph α) : Prop where
  nodes_eq : g.nodes.map (·.movedTo ⟨0, 0⟩) = h.nodes.map (·.movedTo ⟨0, 0⟩)
  connections_eq : g.properConnections.map (·.clearCustomPoints) = h.properConnections.map (·.clearCustomPoints)

end Graph

namespace Arrangement

variable {o : Orientation} {g h : Graph α}

theorem extentsOf_map_movedTo (o : Orientation) (nodes : List (Node α)) (p : Point α) (id : String) :
    extentsOf o (nodes.map (·.movedTo p)) id = extentsOf o nodes id := by
  unfold extentsOf nodeWithId?
  rw [find?_reverse_map (t := (·.movedTo p)) Node.id fun _ => rfl]
  cases nodes.reverse.find? (·.id = id) with
  | none => rfl
  | some n => cases o <;> rfl

theorem diagramOf_congr (hgh : g.AlikeUpToLayout h) : diagramOf o g = diagramOf o h := by
  have hids : g.nodes.map (·.id) = h.nodes.map (·.id) := by
    have := congrArg (List.map Node.id) hgh.nodes_eq
    rwa [List.map_map, List.map_map] at this
  have hextents : ∀ id, extentsOf o g.nodes id = extentsOf o h.nodes id := by
    intro id
    rw [← extentsOf_map_movedTo o g.nodes ⟨0, 0⟩, hgh.nodes_eq, extentsOf_map_movedTo]
  have hedges : g.properConnections.map (fun c => (c.source, c.target)) =
      h.properConnections.map fun c => (c.source, c.target) := by
    have := congrArg (List.map fun c : Connection α => (c.source, c.target)) hgh.connections_eq
    rwa [List.map_map, List.map_map] at this
  unfold diagramOf
  simp only [hids, hextents, hedges]

/-- Where a node is placed does not depend on where it was. -/
theorem placeNode_movedTo (o : Orientation) (entries : List (String × Point α)) (n : Node α) (p : Point α) :
    placeNode o entries (n.movedTo p) = placeNode o entries n := by
  cases o <;> rfl

/-- A node that is placed is placed anew in the same way. -/
theorem placed_placed (o : Orientation) (n : Node α) (c c' : Point α) : placed o (placed o n c) c' = placed o n c' := by
  cases o <;> rfl

end Arrangement

namespace Graph

open Arrangement

variable {o : Orientation} {g h : Graph α} {method : Method α} {spacing : Spacing α}

/-- Charts that are alike up to their layout get the same nodes. -/
theorem map_nodes_arrangeWith_congr (hgh : g.AlikeUpToLayout h) :
    (g.arrangeWith method o spacing).map (·.nodes) = (h.arrangeWith method o spacing).map (·.nodes) := by
  have hplace : placeNode o (centers method spacing (diagramOf o g)) ∘ (·.movedTo ⟨0, 0⟩) =
      placeNode o (centers method spacing (diagramOf o g)) := funext fun n => placeNode_movedTo o _ n _
  rw [map_nodes_arrangeWith, map_nodes_arrangeWith, ← diagramOf_congr hgh, ← hplace, ← List.mapM_map,
    ← List.mapM_map, hgh.nodes_eq]

theorem hasNode_arranged (method : Method α) (g : Graph α) (o : Orientation) (spacing : Spacing α) (id : String) :
    (g.arranged method o spacing).hasNode id = g.hasNode id := by
  unfold hasNode arranged
  rw [List.any_map]
  rfl

/-- Arranging keeps what is laid out. -/
theorem alikeUpToLayout_arranged (method : Method α) (g : Graph α) (o : Orientation) (spacing : Spacing α) :
    (g.arranged method o spacing).AlikeUpToLayout g := by
  constructor
  · unfold arranged
    rw [List.map_map]
    rfl
  · unfold properConnections
    simp only [hasNode_arranged]
    unfold arranged
    rw [List.filter_map, List.map_map]
    rfl

theorem arranged_arranged (hids : (g.containers.map (·.id)).Nodup) (hacyclic : Acyclic g.containers) :
    (g.arranged method o spacing).arranged method o spacing = g.arranged method o spacing := by
  have hdiagram : diagramOf o (g.arranged method o spacing) = diagramOf o g :=
    diagramOf_congr (alikeUpToLayout_arranged method g o spacing)
  have hnodes : ((g.arranged method o spacing).arranged method o spacing).nodes =
      (g.arranged method o spacing).nodes := by
    show (g.nodes.map _).map (fun n => placed o n (centerOf method spacing (diagramOf o (g.arranged method o spacing)) n.id))
      = _
    rw [hdiagram, List.map_map]
    exact List.map_congr_left fun n _ => placed_placed o n _ _
  have hconnections : ((g.arranged method o spacing).arranged method o spacing).connections =
      (g.arranged method o spacing).connections := by
    show (g.connections.map _).map _ = _
    rw [List.map_map]
    rfl
  have hcontainers : ((g.arranged method o spacing).arranged method o spacing).containers =
      (g.arranged method o spacing).containers := by
    show refitContainers (refitContainers g.containers _ _)
      ((g.arranged method o spacing).arranged method o spacing).nodes _ = _
    rw [hnodes]
    exact refitContainers_refitContainers hids hacyclic
  calc (g.arranged method o spacing).arranged method o spacing
      = ⟨((g.arranged method o spacing).arranged method o spacing).nodes,
          ((g.arranged method o spacing).arranged method o spacing).connections,
          ((g.arranged method o spacing).arranged method o spacing).containers⟩ := rfl
    _ = g.arranged method o spacing := by rw [hnodes, hconnections, hcontainers]

theorem arrangeWith_of_arrangeWith (hids : (g.containers.map (·.id)).Nodup) (hacyclic : Acyclic g.containers)
    (hg : g.arrangeWith method o spacing = .ok h) : h.arrangeWith method o spacing = .ok h := by
  obtain ⟨hnil, rfl⟩ | ⟨hne, hall, rfl⟩ := arrangeWith_cases hg
  · exact arrangeWith_of_nodes_eq_nil hnil
  · have hdiagram := diagramOf_congr (o := o) (alikeUpToLayout_arranged method g o spacing)
    refine (arrangeWith_eq_ok fun hnil => hne (List.map_eq_nil_iff.1 hnil)).2
      ⟨?_, (arranged_arranged hids hacyclic).symm⟩
    rw [hdiagram]
    exact List.forall_mem_map.2 hall

/-- Whatever the layout of a diagram is, a chart that is arranged stays as it is when it is arranged again, and charts
that are alike up to their layout get the same nodes at the same places. The layered layout always has a result. -/
theorem arranging_forgets_layout (α : Type) [Scalar α] :
    (∀ (method : Method α) (g : Graph α) (o : Orientation) (spacing : Spacing α),
      (g.containers.map (·.id)).Nodup → Acyclic g.containers →
        (g.arrangeWith method o spacing >>= fun g' => g'.arrangeWith method o spacing) =
            g.arrangeWith method o spacing ∧
          (IsPartition (diagramOf o g).ids (method.components (diagramOf o g)) →
            ∃ g', g.arrangeWith method o spacing = .ok g' ∧ g'.arrangeWith method o spacing = .ok g') ∧
          ∃ g', g.arrange o spacing = .ok g' ∧ g'.arrange o spacing = .ok g') ∧
    ∀ (method : Method α) (g h : Graph α) (o : Orientation) (spacing : Spacing α), g.AlikeUpToLayout h →
      (g.arrangeWith method o spacing).map (·.nodes) = (h.arrangeWith method o spacing).map (·.nodes) := by
  refine ⟨fun method g o spacing hids hacyclic => ?_, fun method g h o spacing => map_nodes_arrangeWith_congr⟩
  have hagain : ∀ (method : Method α), IsPartition (diagramOf o g).ids (method.components (diagramOf o g)) →
      ∃ g', g.arrangeWith method o spacing = .ok g' ∧ g'.arrangeWith method o spacing = .ok g' := by
    intro method hpart
    obtain ⟨g', hg'⟩ : ∃ g', g.arrangeWith method o spacing = .ok g' := exists_arrangeWith hpart
    exact ⟨g', hg', arrangeWith_of_arrangeWith hids hacyclic hg'⟩
  refine ⟨?_, hagain method, hagain layeredMethod (isPartition_layeredMethod o g)⟩
  cases hg : g.arrangeWith method o spacing with
  | error e => rfl
  | ok g' => exact arrangeWith_of_arrangeWith hids hacyclic hg

/-- The first chart has a drawn route, a connection from a node to itself, one to a node that is not there, and a
container that holds a node and an empty container. The second one has none of them, and its nodes lie elsewhere. -/
theorem arranging_forgets_layout_nested :
    ∃ (g h g' : Graph Rat) (a b : Node Rat) (p q : Container Rat),
      a = ⟨"a", .known .process, ⟨100, 100, 200, 80⟩, "", .absent, Hook.defaults "a"⟩ ∧
      b = ⟨"b", .known .process, ⟨420, 100, 140, 80⟩, "", .absent, Hook.defaults "b"⟩ ∧
      p = ⟨"p", .known .layer, "P", ⟨0, 0, 50, 50⟩, ["b"], ["q"], none, 0, false, false⟩ ∧
      q = ⟨"q", .known .unit, "Q", ⟨600, 300, 100, 100⟩, [], [], some "p", 1, false, false⟩ ∧
      g = ⟨[a.movedTo ⟨7, 7⟩, b.movedTo ⟨7, 7⟩],
        [{ Connection.between "k" "a" "b" with waypoints := [⟨0, 0⟩], custom := true }, Connection.between "l" "b" "b",
          Connection.between "m" "b" "x"], [p, q]⟩ ∧
      h = ⟨[a.movedTo ⟨500, 0⟩, b.movedTo ⟨0, 500⟩], [Connection.between "k" "a" "b"], []⟩ ∧
      g.arrange .leftToRight .standard = .ok g' ∧ g'.arrange .leftToRight .standard = .ok g' ∧ g'.nodes = [a, b] ∧
      g'.containers = [{ p with rect := ⟨380, 60, 360, 380⟩ }, q] ∧
      (h.arrange .leftToRight .standard).map (·.nodes) = .ok [a, b] := by
  let a : Node Rat := ⟨"a", .known .process, ⟨100, 100, 200, 80⟩, "", .absent, Hook.defaults "a"⟩
  let b : Node Rat := ⟨"b", .known .process, ⟨420, 100, 140, 80⟩, "", .absent, Hook.defaults "b"⟩
  let p : Container Rat := ⟨"p", .known .layer, "P", ⟨0, 0, 50, 50⟩, ["b"], ["q"], none, 0, false, false⟩
  let q : Container Rat := ⟨"q", .known .unit, "Q", ⟨600, 300, 100, 100⟩, [], [], some "p", 1, false, false⟩
  let g : Graph Rat := ⟨[a.movedTo ⟨7, 7⟩, b.movedTo ⟨7, 7⟩],
    [{ Connection.between "k" "a" "b" with waypoints := [⟨0, 0⟩], custom := true }, Connection.between "l" "b" "b",
      Connection.between "m" "b" "x"], [p, q]⟩
  let h : Graph Rat := ⟨[a.movedTo ⟨500, 0⟩, b.movedTo ⟨0, 500⟩], [Connection.between "k" "a" "b"], []⟩
  have hacyclic : Acyclic g.containers := acyclic_of_rank (·.children.length) (by decide)
  have halike : g.AlikeUpToLayout h := ⟨rfl, rfl⟩
  obtain ⟨hforgets, hplaces⟩ := arranging_forgets_layout Rat
  obtain ⟨-, -, g', hg', hagain⟩ := hforgets layeredMethod g .leftToRight .standard (by decide) hacyclic
  have hresult : (g.arrange .leftToRight .standard).map (fun g' => (g'.nodes, g'.containers)) =
      .ok ([a, b], [{ p with rect := ⟨380, 60, 360, 380⟩ }, q]) := by
    decide +kernel
  rw [hg'] at hresult
  obtain ⟨hnodes, hcontainers⟩ := Prod.mk.inj (Except.ok.inj hresult)
  refine ⟨g, h, g', a, b, p, q, rfl, rfl, rfl, rfl, rfl, rfl, hg', hagain, hnodes, hcontainers, ?_⟩
  have hsame := hplaces layeredMethod g h .leftToRight .standard halike
  show (h.arrangeWith layeredMethod .leftToRight .standard).map (·.nodes) = .ok [a, b]
  rw [← hsame, ← hnodes]
  exact congrArg (Except.map (·.nodes)) hg'

end Graph

end Flowchart
