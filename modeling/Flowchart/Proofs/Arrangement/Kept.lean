import Flowchart.Numeric.Double
import Flowchart.Numeric.Exact
import Flowchart.Proofs.Arrangement.Arranged
import Flowchart.Proofs.Container.Fitting

/-!
# What arranging keeps and what it resets

Arranging moves nodes, forgets drawn routes and fits containers. Nothing is lost, doubled or put elsewhere in its
list, and nothing else of a part changes (`arranging_keeps_parts`).

A chart without nodes is not looked at: its routes and its containers are left as they are. So the routes are gone
and the containers fitted afterwards unless the chart has no node and something of them was left to do
(`arranging_resets_iff`).
-/

namespace Flowchart

variable {α : Type} [Scalar α]

open Arrangement

namespace Graph

/-- Whether two charts have the same parts in the same order, up to the places of nodes, drawn routes and the
rectangles of containers. -/
structure SameParts (g h : Graph α) : Prop where
  nodes : List.Forall₂ (fun n m => ∃ p, m = n.movedTo p) g.nodes h.nodes
  connections :
    List.Forall₂ (fun c d => ∃ points custom, d = { c with waypoints := points, custom := custom })
      g.connections h.connections
  containers : List.Forall₂ (fun c d => ∃ r, d = { c with rect := r }) g.containers h.containers

variable {method : Method α} {g g' : Graph α} {o : Orientation} {spacing : Spacing α}

omit [Scalar α] in
theorem SameParts.refl (g : Graph α) : g.SameParts g where
  nodes := List.forall₂_same.2 fun n _ => ⟨n.position, rfl⟩
  connections := List.forall₂_same.2 fun c _ => ⟨c.waypoints, c.custom, rfl⟩
  containers := List.forall₂_same.2 fun c _ => ⟨c.rect, rfl⟩

theorem sameParts_arranged (method : Method α) (o : Orientation) (spacing : Spacing α)
    (hids : (g.containers.map (·.id)).Nodup) (hacyclic : Acyclic g.containers) :
    g.SameParts (g.arranged method o spacing) where
  nodes := List.forall₂_map_right_iff.2 (List.forall₂_same.2 fun _ _ => ⟨_, rfl⟩)
  connections := List.forall₂_map_right_iff.2 (List.forall₂_same.2 fun _ _ => ⟨[], false, rfl⟩)
  containers := forall₂_refitContainers hids hacyclic

theorem sameParts_of_arrangeWith (hids : (g.containers.map (·.id)).Nodup) (hacyclic : Acyclic g.containers)
    (hg : g.arrangeWith method o spacing = .ok g') : g.SameParts g' := by
  obtain ⟨-, rfl⟩ | ⟨-, -, rfl⟩ := arrangeWith_cases hg
  · exact SameParts.refl _
  · exact sameParts_arranged method o spacing hids hacyclic

/-- Each node finds a centre if the components hold all vertices. -/
theorem exists_lookup_centers (spacing : Spacing α)
    (hpart : IsPartition (diagramOf o g).ids (method.components (diagramOf o g))) {n : Node α} (hn : n ∈ g.nodes) :
    ∃ c, (centers method spacing (diagramOf o g)).lookup n.id = some c :=
  ⟨_, lookup_centers.2 ⟨hpart.perm.mem_iff.2 ((mem_ids_diagramOf o g).2 (List.mem_map_of_mem hn)), rfl⟩⟩

/-- Whatever the layout of a diagram is, an arranged chart has the parts that it had before. A method that divides the
vertices among its components gives each node a centre, and so there is a result; the layered layout does so for
every chart. -/
theorem arranging_keeps_parts (α : Type) [Scalar α] :
    (∀ (method : Method α) (g g' : Graph α) (o : Orientation) (spacing : Spacing α),
      (g.containers.map (·.id)).Nodup → Acyclic g.containers → g.arrangeWith method o spacing = .ok g' →
        g.SameParts g') ∧
    (∀ (method : Method α) (g : Graph α) (o : Orientation) (spacing : Spacing α),
      IsPartition (diagramOf o g).ids (method.components (diagramOf o g)) →
        (∀ n ∈ g.nodes, ∃ c, (centers method spacing (diagramOf o g)).lookup n.id = some c) ∧
          ∃ g', g.arrangeWith method o spacing = .ok g') ∧
    ∀ (g : Graph α) (o : Orientation) (spacing : Spacing α),
      (∀ n ∈ g.nodes, ∃ c, (centers layeredMethod spacing (diagramOf o g)).lookup n.id = some c) ∧
        ∃ g', g.arrange o spacing = .ok g' := by
  have hfound : ∀ (method : Method α) (g : Graph α) (o : Orientation) (spacing : Spacing α),
      IsPartition (diagramOf o g).ids (method.components (diagramOf o g)) →
        (∀ n ∈ g.nodes, ∃ c, (centers method spacing (diagramOf o g)).lookup n.id = some c) ∧
          ∃ g', g.arrangeWith method o spacing = .ok g' :=
    fun _ _ _ spacing hpart => ⟨fun _ hn => exists_lookup_centers spacing hpart hn, exists_arrangeWith hpart⟩
  refine ⟨fun _ _ _ _ _ hids hacyclic hg => sameParts_of_arrangeWith hids hacyclic hg, hfound, ?_⟩
  intro g o spacing
  exact hfound layeredMethod g o spacing (isPartition_layeredMethod o g)

/-- Two nodes have the same id, one connection leads from a node to itself and one to a node that is not there, and
one container is inside the other. -/
theorem arranging_keeps_parts_repeated :
    ∃ (g g' : Graph Rat) (a a' : Node Rat) (k l : Connection Rat) (p q : Container Rat),
      a = ⟨"a", .known .process, ⟨0, 0, 200, 80⟩, "", .absent, Hook.defaults "a"⟩ ∧
      a' = ⟨"a", .known .process, ⟨0, 0, 100, 40⟩, "", .named "q", Hook.defaults "a"⟩ ∧
      k = { Connection.between "k" "a" "a" with waypoints := [⟨5, 5⟩], custom := true } ∧
      l = Connection.between "l" "a" "x" ∧
      p = ⟨"p", .known .layer, "P", ⟨0, 0, 50, 50⟩, [], ["q"], none, 0, false, false⟩ ∧
      q = ⟨"q", .known .unit, "Q", ⟨0, 0, 50, 50⟩, ["a"], [], some "p", 1, false, false⟩ ∧
      g = ⟨[a, a'], [k, l], [p, q]⟩ ∧ g.arrange .leftToRight .standard = .ok g' ∧ g.SameParts g' ∧
      g'.nodes = [a.movedTo ⟨50, 80⟩, a'.movedTo ⟨100, 100⟩] ∧
      g'.connections = [{ k with waypoints := [], custom := false }, l] ∧
      g'.containers = [{ p with rect := ⟨20, 20, 260, 200⟩ }, { q with rect := ⟨60, 60, 180, 120⟩ }] := by
  let a : Node Rat := ⟨"a", .known .process, ⟨0, 0, 200, 80⟩, "", .absent, Hook.defaults "a"⟩
  let a' : Node Rat := ⟨"a", .known .process, ⟨0, 0, 100, 40⟩, "", .named "q", Hook.defaults "a"⟩
  let k : Connection Rat := { Connection.between "k" "a" "a" with waypoints := [⟨5, 5⟩], custom := true }
  let l : Connection Rat := Connection.between "l" "a" "x"
  let p : Container Rat := ⟨"p", .known .layer, "P", ⟨0, 0, 50, 50⟩, [], ["q"], none, 0, false, false⟩
  let q : Container Rat := ⟨"q", .known .unit, "Q", ⟨0, 0, 50, 50⟩, ["a"], [], some "p", 1, false, false⟩
  let g : Graph Rat := ⟨[a, a'], [k, l], [p, q]⟩
  have hacyclic : Acyclic g.containers := acyclic_of_rank (·.children.length) (by decide)
  obtain ⟨hkeeps, -, hlayered⟩ := arranging_keeps_parts Rat
  obtain ⟨-, g', hg'⟩ := hlayered g .leftToRight .standard
  have hresult : g.arrange .leftToRight .standard =
      .ok ⟨[a.movedTo ⟨50, 80⟩, a'.movedTo ⟨100, 100⟩], [{ k with waypoints := [], custom := false }, l],
        [{ p with rect := ⟨20, 20, 260, 200⟩ }, { q with rect := ⟨60, 60, 180, 120⟩ }]⟩ := by
    decide +kernel
  have hsame : g.SameParts g' := hkeeps layeredMethod g g' .leftToRight .standard (by decide) hacyclic hg'
  obtain rfl := Except.ok.inj (hg'.symm.trans hresult)
  exact ⟨g, _, a, a', k, l, p, q, rfl, rfl, rfl, rfl, rfl, rfl, rfl, hg', hsame, rfl, rfl, rfl⟩

/-- The routes are gone and the containers fitted just when the chart has a node or there was nothing to do. -/
theorem arranging_resets_iff (hg : g.arrangeWith method o spacing = .ok g') :
    ((∀ c ∈ g'.connections, c.waypoints = [] ∧ c.custom = false) ∧
        g'.containers = refitContainers g.containers g'.nodes containerMargin) ↔
      g.nodes ≠ [] ∨
        (∀ c ∈ g.connections, c.waypoints = [] ∧ c.custom = false) ∧
          g.containers = refitContainers g.containers [] containerMargin := by
  obtain ⟨hnil, rfl⟩ | ⟨hne, -, rfl⟩ := arrangeWith_cases hg
  · rw [hnil]
    simp only [ne_eq, not_true_eq_false, false_or]
  · refine iff_of_true ⟨?_, rfl⟩ (.inl hne)
    exact List.forall_mem_map.2 fun c _ => ⟨rfl, rfl⟩

theorem arranging_resets_iff_loop :
    ∃ (g g' : Graph Float) (a : Node Float) (k : Connection Float) (p : Container Float),
      a = ⟨"a", .known .process, ⟨0, 0, 200, 80⟩, "", .absent, Hook.defaults "a"⟩ ∧
      k = { Connection.between "k" "a" "a" with waypoints := [⟨5, 5⟩], custom := true } ∧
      p = ⟨"p", .known .layer, "P", ⟨0, 0, 50, 50⟩, ["a"], [], none, 0, false, false⟩ ∧
      g = ⟨[a], [k], [p]⟩ ∧ g.arrange .leftToRight .standard = .ok g' ∧
      (∀ c ∈ g'.connections, c.waypoints = [] ∧ c.custom = false) ∧
      g'.containers = refitContainers g.containers g'.nodes containerMargin ∧
      g'.containers = [{ p with rect := ⟨60, 60, 280, 160⟩ }] := by
  let a : Node Float := ⟨"a", .known .process, ⟨0, 0, 200, 80⟩, "", .absent, Hook.defaults "a"⟩
  let k : Connection Float := { Connection.between "k" "a" "a" with waypoints := [⟨5, 5⟩], custom := true }
  let p : Container Float := ⟨"p", .known .layer, "P", ⟨0, 0, 50, 50⟩, ["a"], [], none, 0, false, false⟩
  let g : Graph Float := ⟨[a], [k], [p]⟩
  have hg : g.arrange .leftToRight .standard =
      .ok ⟨[a.movedTo ⟨100, 100⟩], [{ k with waypoints := [], custom := false }],
        [{ p with rect := ⟨60, 60, 280, 160⟩ }]⟩ := by
    decide +kernel
  obtain ⟨hroutes, hfitted⟩ := (arranging_resets_iff hg).2 (.inl (List.cons_ne_nil a []))
  exact ⟨g, _, a, k, p, rfl, rfl, rfl, rfl, hg, hroutes, hfitted, rfl⟩

/-- A chart without nodes keeps a drawn route, and a container stays where it is although another one is inside it. -/
theorem arranging_nodeless_resets_nothing :
    ∃ (g g' : Graph Float) (k : Connection Float) (p q : Container Float),
      k = { Connection.between "k" "a" "b" with waypoints := [⟨5, 5⟩], custom := true } ∧
      p = ⟨"p", .known .layer, "P", ⟨0, 0, 50, 50⟩, [], ["q"], none, 0, false, false⟩ ∧
      q = ⟨"q", .known .unit, "Q", ⟨600, 300, 100, 100⟩, [], [], none, 0, false, false⟩ ∧
      g = ⟨[], [k], [p, q]⟩ ∧ Acyclic g.containers ∧ g.arrange .leftToRight .standard = .ok g' ∧
      ¬ (∀ c ∈ g'.connections, c.waypoints = [] ∧ c.custom = false) ∧
      g'.containers ≠ refitContainers g.containers g'.nodes containerMargin ∧
      refitContainers g.containers g'.nodes containerMargin = [{ p with rect := ⟨560, 260, 180, 180⟩ }, q] := by
  let k : Connection Float := { Connection.between "k" "a" "b" with waypoints := [⟨5, 5⟩], custom := true }
  let p : Container Float := ⟨"p", .known .layer, "P", ⟨0, 0, 50, 50⟩, [], ["q"], none, 0, false, false⟩
  let q : Container Float := ⟨"q", .known .unit, "Q", ⟨600, 300, 100, 100⟩, [], [], none, 0, false, false⟩
  let g : Graph Float := ⟨[], [k], [p, q]⟩
  have hacyclic : Acyclic g.containers := acyclic_of_rank (·.children.length) (by decide)
  have hg : g.arrange .leftToRight .standard = .ok g := arrangeWith_of_nodes_eq_nil rfl
  have hroute : ¬ ∀ c ∈ g.connections, c.waypoints = [] ∧ c.custom = false :=
    fun h => absurd (h k List.mem_cons_self).2 Bool.noConfusion
  have hfitted : refitContainers g.containers g.nodes containerMargin =
      [{ p with rect := ⟨560, 260, 180, 180⟩ }, q] := by
    decide +kernel
  have hunfitted : g.containers ≠ refitContainers g.containers g.nodes containerMargin := by
    rw [hfitted]
    decide +kernel
  exact ⟨g, g, k, p, q, rfl, rfl, rfl, rfl, hacyclic, hg, hroute, hunfitted, hfitted⟩

end Graph

end Flowchart
