import Flowchart.Numeric.Double
import Flowchart.Proofs.Interpretation.Containment
import Flowchart.Proofs.Interpretation.Identity

/-!
# Outlines in turn

The containers of a chart get ids that no node has, but a node that is there already may lie in a container with such
an id. This is the case just when it names one of the first free numbers, as many as the outline has opening lines
(`containers_apart_iff`). When outlines are interpreted in turn, the nodes of one chart take no id from the containers
of the next, so all charts number their containers from the same one on (`container_ids_interpretAll`).
-/

namespace Flowchart.Interpretation

open Outline (lineContents)

variable {α : Type} [Scalar α]

theorem Depicts.mem_idsOf_iff {base : List String} {k : Sketch} {g : Graph α} (h : Depicts base k g) {p : Part}
    {id : String} : id ∈ idsOf g p ↔ ∃ i < k.count p, id = p.nthId base i := by
  rw [h.idsOf_eq, List.mem_map]
  simp only [List.mem_range, eq_comm]

variable [Trigonometry α]

/-- There is a container for each opening line, and it has the free id of its number. -/
theorem mem_container_ids_iff {settings : Settings α} {existing : List (Node α)} {outline : String} {g : Graph α}
    (h : interpret settings existing outline = .ok g) {id : String} :
    id ∈ idsOf g .container ↔
      ∃ i < (lineContents settings.labelCap outline.toList).countP (·.name?.isSome),
        id = Part.container.nthId (existing.map (·.id)) i := by
  rw [(depicts_of_interpret h).mem_idsOf_iff, ← Outline.contents_eq,
    ← (bracketed_ofContents (Outline.contents settings.labelCap outline.toList)).frames.length_eq]
  rfl

/-- No container has the id of the one in which a node lies that is there already, unless the node names one of the
ids that are free. -/
theorem containers_apart_iff {settings : Settings α} {existing : List (Node α)} {outline : String} {g : Graph α}
    (h : interpret settings existing outline = .ok g) :
    (∀ c ∈ g.containers, ∀ n ∈ existing, n.container ≠ .named c.id) ↔
      ∀ n ∈ existing, ∀ i < (lineContents settings.labelCap outline.toList).countP (·.name?.isSome),
        n.container ≠ .named (Part.container.nthId (existing.map (·.id)) i) := by
  constructor
  · intro happart n hn i hi hname
    obtain ⟨c, hc, hid⟩ := List.mem_map.1 ((mem_container_ids_iff h).2 ⟨i, hi, rfl⟩)
    exact happart c hc n hn (hname.trans (congrArg Reference.named hid.symm))
  · intro hfree c hc n hn hname
    obtain ⟨i, hi, hid⟩ := (mem_container_ids_iff h).1 (List.mem_map_of_mem hc)
    exact hfree n hn i hi (hname.trans (congrArg Reference.named hid))

/-- The nodes of a chart have no id of a container. -/
private theorem container_id_mem_append {settings : Settings α} {existing : List (Node α)} {outline : String}
    {g : Graph α} (h : interpret settings existing outline = .ok g) (m : Nat) :
    Part.container.idAt m ∈ (existing ++ g.nodes).map (·.id) ↔ Part.container.idAt m ∈ existing.map (·.id) := by
  rw [List.map_append, List.mem_append]
  refine or_iff_left fun hnode => ?_
  obtain ⟨i, hi⟩ := (depicts_of_interpret h).mem_idsOf (p := .node) hnode
  exact absurd (Part.idAt_inj.1 hi).1 (by decide)

/-- The containers of each chart are numbered as if no other chart had any. -/
theorem container_ids_interpretAll {settings : Settings α} {accumulate : Bool} {base : List String}
    {existing : List (Node α)} {outlines : List String} {gs : List (Graph α)}
    (hbase : ∀ m, Part.container.idAt m ∈ existing.map (·.id) ↔ Part.container.idAt m ∈ base)
    (h : interpretAll settings accumulate existing outlines = .ok gs) {g : Graph α} (hg : g ∈ gs) :
    idsOf g .container = (List.range g.containers.length).map (Part.container.nthId base) := by
  induction outlines generalizing existing gs with
  | nil =>
    cases h
    cases hg
  | cons outline rest ih =>
    obtain ⟨first, hfirst, h⟩ := bind_eq_ok.1 h
    obtain ⟨later, hlater, h⟩ := bind_eq_ok.1 h
    cases h
    rcases List.mem_cons.1 hg with rfl | hg
    · have hids := (depicts_of_interpret hfirst).idsOf_eq .container
      have hcount := congrArg List.length hids
      rw [List.length_map, List.length_range] at hcount
      rw [hids, Part.nthId_congr hbase, ← hcount]
      exact congrArg (fun n => (List.range n).map _) (List.length_map _)
    · refine ih (fun m => ?_) hlater hg
      cases accumulate with
      | false => exact hbase m
      | true => exact (container_id_mem_append hfirst m).trans (hbase m)

/-- No node that is there already lies in a container of the chart just when none of these nodes names one of the
first free ids, as many as the outline has opening lines. The charts of outlines in turn do not stay apart: each of them
gives its containers the same ids from the first one on. -/
theorem interpret_apart_iff :
    (∀ (settings : Settings α) (existing : List (Node α)) (outline : String) (g : Graph α),
      interpret settings existing outline = .ok g →
        ((∀ c ∈ g.containers, ∀ n ∈ existing, n.container ≠ .named c.id) ↔
          ∀ n ∈ existing, ∀ i < (lineContents settings.labelCap outline.toList).countP (·.name?.isSome),
            n.container ≠ .named (Part.container.nthId (existing.map (·.id)) i))) ∧
      ∀ (settings : Settings α) (accumulate : Bool) (existing : List (Node α)) (outlines : List String)
        (gs : List (Graph α)), interpretAll settings accumulate existing outlines = .ok gs →
          ∀ g ∈ gs, idsOf g .container =
            (List.range g.containers.length).map (Part.container.nthId (existing.map (·.id))) :=
  ⟨fun _ _ _ _ h => containers_apart_iff h, fun _ _ _ _ _ h _ hg => container_ids_interpretAll (fun _ => .rfl) h hg⟩

/-- The node lies in a container with the second free number, and only one is opened. -/
theorem interpret_apart_iff_second :
    ∃ (m : Node Float) (g : Graph Float) (gs : List (Graph Float)),
      m = ⟨"node-1", .known .process, ⟨340, 140, 200, 80⟩, "Alfa", .named "container-2", Hook.defaults "node-1"⟩ ∧
        interpret Options.none.settings [m] "[Container] B\nBeta" = .ok g ∧ idsOf g .container = ["container-1"] ∧
        (∀ i < 1, m.container ≠ .named (Part.container.nthId ["node-1"] i)) ∧
        interpretAll Options.none.settings true [m] ["[Container] B\nBeta", "[Container] C\nGama"] = .ok gs ∧
        gs.length = 2 ∧
        ∀ g ∈ gs, idsOf g .container = (List.range g.containers.length).map (Part.container.nthId ["node-1"]) := by
  let m : Node Float :=
    ⟨"node-1", .known .process, ⟨340, 140, 200, 80⟩, "Alfa", .named "container-2", Hook.defaults "node-1"⟩
  have hrun : (interpret (Options.none : Options Float).settings [m] "[Container] B\nBeta").map (idsOf · .container) =
      .ok ["container-1"] := by decide +kernel
  obtain ⟨g, hg, hids⟩ := exists_eq_ok_of_map hrun
  have hruns : (interpretAll (Options.none : Options Float).settings true [m]
      ["[Container] B\nBeta", "[Container] C\nGama"]).map (·.length) = .ok 2 := by decide +kernel
  obtain ⟨gs, hgs, hlength⟩ := exists_eq_ok_of_map hruns
  obtain ⟨hiff, hturns⟩ := interpret_apart_iff (α := Float)
  have happart : ∀ c ∈ g.containers, ∀ n ∈ [m], n.container ≠ .named c.id := by
    intro c hc n hn hname
    have hid : c.id ∈ idsOf g .container := List.mem_map_of_mem hc
    rw [hids, List.mem_singleton] at hid
    rw [List.mem_singleton.1 hn, hid] at hname
    exact absurd hname (by decide)
  have hcount : (lineContents (Options.none : Options Float).settings.labelCap "[Container] B\nBeta".toList).countP
      (·.name?.isSome) = 1 := by decide +kernel
  have hfree := (hiff _ [m] _ g hg).1 happart m List.mem_cons_self
  rw [hcount] at hfree
  exact ⟨m, g, gs, rfl, hg, hids, hfree, hgs, hlength, hturns _ true [m] _ gs hgs⟩

/-- The container of the second outline has the id of the one in which the node of the first outline lies. -/
theorem second_outline_captures :
    ∃ (g h : Graph Float) (n : Node Float) (c : Container Float),
      n = ⟨"node-1", .known .process, ⟨340, 140, 200, 80⟩, "Alfa", .named "container-1", Hook.defaults "node-1"⟩ ∧
        interpret Options.none.settings [] "[Container] A\nAlfa" = .ok g ∧ g.nodes = [n] ∧
        interpret Options.none.settings [n] "[Container] B\nBeta" = .ok h ∧ h.containers = [c] ∧ c.name = "B" ∧
        n.container = .named c.id := by
  let n : Node Float :=
    ⟨"node-1", .known .process, ⟨340, 140, 200, 80⟩, "Alfa", .named "container-1", Hook.defaults "node-1"⟩
  have hfirst : (interpret (Options.none : Options Float).settings [] "[Container] A\nAlfa").map (·.nodes) =
      .ok [n] := by decide +kernel
  obtain ⟨g, hg, hnodes⟩ := exists_eq_ok_of_map hfirst
  let c : Container Float :=
    ⟨"container-1", .known .unit, "B", ⟨720, 100, 280, 160⟩, ["node-2"], [], none, 0, false, false⟩
  have hsecond : (interpret (Options.none : Options Float).settings [n] "[Container] B\nBeta").map (·.containers) =
      .ok [c] := by decide +kernel
  obtain ⟨h, hh, hcontainers⟩ := exists_eq_ok_of_map hsecond
  exact ⟨g, h, n, c, rfl, hg, hnodes, hh, hcontainers, rfl, rfl⟩

end Flowchart.Interpretation
