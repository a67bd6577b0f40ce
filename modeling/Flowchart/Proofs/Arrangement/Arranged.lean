import Flowchart.Arrangement.Arrange
import Flowchart.Proofs.Arrangement.Component
import Flowchart.Proofs.Fault
import Flowchart.Proofs.Lookup

/-!
# What arranging returns

A chart has one vertex for each id of a node (`mem_ids_diagramOf`). Where the components hold all of them, every node
is placed by the centre of its vertex; otherwise there is no result (`arrangeWith_eq_ok`). The layered layout divides
all vertices among its components (`isPartition_layeredMethod`), so it always has a result.
-/

namespace Flowchart

variable {α : Type} [Scalar α]

namespace Arrangement

section

variable (o : Orientation) (g : Graph α)

theorem ids_diagramOf : (diagramOf o g).ids = distinct (g.nodes.map (·.id)) := by
  unfold Diagram.ids diagramOf
  rw [List.map_map]
  exact List.map_id _

theorem nodup_ids_diagramOf : (diagramOf o g).ids.Nodup := by
  rw [ids_diagramOf]
  exact nodup_distinct _

theorem mem_ids_diagramOf {id : String} : id ∈ (diagramOf o g).ids ↔ id ∈ g.nodes.map (·.id) := by
  rw [ids_diagramOf, mem_distinct]

theorem isPartition_layeredMethod :
    IsPartition (diagramOf o g).ids ((layeredMethod : Method α).components (diagramOf o g)) :=
  isPartition_components (nodup_ids_diagramOf o g) (diagramOf o g).edges

end

/-- The vertex of a node has the extents of the last node with its id. -/
theorem size_diagramOf (o : Orientation) {g : Graph α} {n : Node α} (hn : n ∈ g.nodes) :
    (diagramOf o g).size n.id = extentsOf o g.nodes n.id := by
  have hmem : n.id ∈ distinct (g.nodes.map (·.id)) := mem_distinct.2 (List.mem_map_of_mem hn)
  have hvertex : (n.id, extentsOf o g.nodes n.id) ∈ (diagramOf o g).vertices := List.mem_map.2 ⟨n.id, hmem, rfl⟩
  unfold Diagram.size
  rw [lookup_eq_some_of_mem (nodup_ids_diagramOf o g) hvertex]
  rfl

theorem length_componentCenters (method : Method α) (spacing : Spacing α) (d : Diagram α) (component : List String) :
    (componentCenters method spacing d component).length = component.length := by
  simp [componentCenters]

theorem keys_stack {size : String → α × α} {layout : List String → List (Point α)}
    (hlayout : ∀ component, (layout component).length = component.length) (offset : α)
    (components : List (List String)) :
    (stack size layout offset components).map (·.1) = components.flatten := by
  induction components generalizing offset with
  | nil => rfl
  | cons component rest ih =>
    have hlength : (shifted (component.map size) (layout component) offset).1.length = component.length := by
      simp [shifted, hlayout]
    rw [stack, List.map_append, ih, List.flatten_cons]
    congr 1
    exact List.map_fst_zip (Nat.le_of_eq hlength.symm)

/-- Each vertex of the components has a centre. -/
theorem keys_centers (method : Method α) (spacing : Spacing α) (d : Diagram α) :
    (centers method spacing d).map (·.1) = (method.components d).flatten :=
  keys_stack (length_componentCenters method spacing d) 0 _

/-- The centre of a vertex in the arrangement of all components. -/
def centerOf (method : Method α) (spacing : Spacing α) (d : Diagram α) (id : String) : Point α :=
  ((centers method spacing d).lookup id).getD ⟨0, 0⟩

theorem lookup_centers {method : Method α} {spacing : Spacing α} {d : Diagram α} {id : String} {c : Point α} :
    (centers method spacing d).lookup id = some c ↔
      id ∈ (method.components d).flatten ∧ centerOf method spacing d id = c := by
  unfold centerOf
  rw [← keys_centers method spacing d]
  cases hlookup : (centers method spacing d).lookup id with
  | none =>
    have hnot : id ∉ (centers method spacing d).map (·.1) := by
      intro hmem
      obtain ⟨entry, hentry, rfl⟩ := List.mem_map.1 hmem
      simpa using List.lookup_eq_none_iff.1 hlookup entry hentry
    simp [hnot]
  | some c' =>
    have hmem : id ∈ (centers method spacing d).map (·.1) :=
      List.mem_map.2 ⟨(id, c'), mem_of_lookup_eq_some hlookup, rfl⟩
    simp [hmem]

/-- Where the components share no vertex, each entry is the centre of its vertex. -/
theorem centerOf_of_mem {method : Method α} {spacing : Spacing α} {d : Diagram α}
    (hnodup : (method.components d).flatten.Nodup) {entry : String × Point α}
    (h : entry ∈ centers method spacing d) : centerOf method spacing d entry.1 = entry.2 := by
  rw [← keys_centers method spacing d] at hnodup
  unfold centerOf
  rw [lookup_eq_some_of_mem hnodup h]
  rfl

theorem placeNode_eq_ok {method : Method α} {spacing : Spacing α} {d : Diagram α} {o : Orientation} {n m : Node α} :
    placeNode o (centers method spacing d) n = .ok m ↔
      n.id ∈ (method.components d).flatten ∧ placed o n (centerOf method spacing d n.id) = m := by
  unfold placeNode
  split
  · next c hc =>
    obtain ⟨hmem, rfl⟩ := lookup_centers.1 hc
    simp [hmem]
  · next hnone =>
    have hnot : n.id ∉ (method.components d).flatten := fun hmem => by
      rw [lookup_centers.2 ⟨hmem, rfl⟩] at hnone
      cases hnone
    simp [hnot]

end Arrangement

open Arrangement

namespace Graph

/-- The chart with each node placed by the centre of its vertex. -/
def arranged (method : Method α) (g : Graph α) (o : Orientation) (spacing : Spacing α) : Graph α :=
  let nodes := g.nodes.map fun n => placed o n (centerOf method spacing (diagramOf o g) n.id)
  ⟨nodes, g.connections.map (·.clearCustomPoints), refitContainers g.containers nodes containerMargin⟩

variable {method : Method α} {g g' : Graph α} {o : Orientation} {spacing : Spacing α}

theorem arrangeWith_of_nodes_eq_nil (h : g.nodes = []) : g.arrangeWith method o spacing = .ok g := by
  unfold arrangeWith
  rw [if_pos (by simp [h])]

/-- The nodes are placed one by one. -/
theorem map_nodes_arrangeWith (method : Method α) (g : Graph α) (o : Orientation) (spacing : Spacing α) :
    (g.arrangeWith method o spacing).map (·.nodes) =
      g.nodes.mapM (placeNode o (centers method spacing (diagramOf o g))) := by
  unfold arrangeWith
  split
  · next hempty =>
    have hnil : g.nodes = [] := by simpa using hempty
    rw [hnil]
    exact congrArg Except.ok hnil
  · cases g.nodes.mapM (placeNode o (centers method spacing (diagramOf o g))) <;> rfl

theorem arrangeWith_eq_ok (hne : g.nodes ≠ []) : g.arrangeWith method o spacing = .ok g' ↔
    (∀ n ∈ g.nodes, n.id ∈ (method.components (diagramOf o g)).flatten) ∧ g' = g.arranged method o spacing := by
  have hnodes : ∀ nodes, g.nodes.mapM (placeNode o (centers method spacing (diagramOf o g))) = .ok nodes ↔
      (∀ n ∈ g.nodes, n.id ∈ (method.components (diagramOf o g)).flatten) ∧
        nodes = g.nodes.map fun n => placed o n (centerOf method spacing (diagramOf o g) n.id) := by
    intro nodes
    rw [mapM_eq_ok, eq_comm (a := nodes), ← List.forall₂_eq_eq_eq, List.forall₂_map_left_iff, ← List.forall₂_and_left]
    simp only [placeNode_eq_ok]
  unfold arrangeWith
  rw [if_neg (by simpa using hne), bind_eq_ok]
  constructor
  · rintro ⟨nodes, h, hg⟩
    obtain ⟨hall, rfl⟩ := (hnodes nodes).1 h
    exact ⟨hall, (Except.ok.inj hg).symm⟩
  · rintro ⟨hall, rfl⟩
    exact ⟨_, (hnodes _).2 ⟨hall, rfl⟩, rfl⟩

/-- A chart without nodes stays as it is; the components hold the vertices of any other one that has a result. -/
theorem arrangeWith_cases (hg : g.arrangeWith method o spacing = .ok g') :
    (g.nodes = [] ∧ g' = g) ∨
      (g.nodes ≠ [] ∧ (∀ n ∈ g.nodes, n.id ∈ (method.components (diagramOf o g)).flatten) ∧
        g' = g.arranged method o spacing) := by
  by_cases hne : g.nodes = []
  · rw [arrangeWith_of_nodes_eq_nil hne] at hg
    exact .inl ⟨hne, (Except.ok.inj hg).symm⟩
  · exact .inr ⟨hne, (arrangeWith_eq_ok hne).1 hg⟩

/-- There is a result if the components hold all vertices. -/
theorem arrangeWith_of_isPartition (hne : g.nodes ≠ [])
    (h : IsPartition (diagramOf o g).ids (method.components (diagramOf o g))) :
    g.arrangeWith method o spacing = .ok (g.arranged method o spacing) :=
  (arrangeWith_eq_ok hne).2
    ⟨fun _ hn => h.perm.mem_iff.2 ((mem_ids_diagramOf o g).2 (List.mem_map_of_mem hn)), rfl⟩

theorem exists_arrangeWith (h : IsPartition (diagramOf o g).ids (method.components (diagramOf o g))) :
    ∃ g', g.arrangeWith method o spacing = .ok g' := by
  by_cases hne : g.nodes = []
  · exact ⟨g, arrangeWith_of_nodes_eq_nil hne⟩
  · exact ⟨_, arrangeWith_of_isPartition hne h⟩

end Graph

end Flowchart
