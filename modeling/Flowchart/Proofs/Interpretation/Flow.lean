import Flowchart.Numeric.Double
import Flowchart.Proofs.Interpretation.Answers

/-!
# The flow of a chart

The nodes with their ids, kinds and texts and the connections between them are the flow of a chart. It is told by
the node lines of the outline and by which ids are taken (`interpret_flow`): where the nodes come to lie has no
part in it, and neither have the containers.
-/

namespace Flowchart.Interpretation

open Outline (Content nodeContents)

variable {α : Type}

/-- What is seen of a chart apart from places and containers. -/
structure Flow (α : Type) where
  nodes : List (String × Term NodeKind × String)
  connections : List (Connection α)

def flowOf (g : Graph α) : Flow α :=
  ⟨g.nodes.map fun n => (n.id, n.kind, n.text), g.connections⟩

/-- The links of a sketch are told by its node lines. -/
theorem Answered.links_eq {ns : List Content} {k k' : Sketch} (h : Answered ns k) (h' : Answered ns k')
    (ht : k.Threaded) (ht' : k'.Threaded) : k.links = k'.links := by
  have hlength : k.links.length = ns.length - 1 := by rw [ht.links_length, h.entries_length]
  have hlength' : k'.links.length = ns.length - 1 := by rw [ht'.links_length, h'.entries_length]
  refine List.ext_getElem? fun i => ?_
  by_cases hi : i + 1 < ns.length
  · rw [h.links i hi, h'.links i hi]
  · rw [List.getElem?_eq_none (by omega), List.getElem?_eq_none (by omega)]

/-- So are the kinds and the texts of its nodes. -/
theorem entries_ofContents_eq {cs cs' : List Content}
    (h : cs.filter (·.node?.isSome) = cs'.filter (·.node?.isSome)) :
    (Sketch.ofContents cs).entries.map (fun e => (e.kind, e.text)) =
      (Sketch.ofContents cs').entries.map (fun e => (e.kind, e.text)) := by
  have hfilter : ∀ cs : List Content,
      cs.filterMap (·.node?) = (cs.filter (·.node?.isSome)).filterMap (·.node?) := by
    intro cs
    induction cs with
    | nil => rfl
    | cons c cs ih => cases hc : c.node? <;> simp [hc, ih]
  rw [Sketch.entries_ofContents, Sketch.entries_ofContents, hfilter cs, hfilter cs', h]

variable [Scalar α]

/-- The nodes show the ids in their order, beside the kinds and texts of the sketch. -/
theorem Depicts.flowOf_nodes {base : List String} {k : Sketch} {g : Graph α} (h : Depicts base k g) :
    (flowOf g).nodes = (k.entries.map fun e => (e.kind, e.text)).zipIdx.map fun ((kind, text), i) =>
      (Part.nthId base .node i, .known kind, text) := by
  have hcards := congrArg (List.map fun c : Card => (c.id, c.kind, c.text)) h.nodes
  rw [List.map_map] at hcards
  rw [List.zipIdx_map, List.map_map]
  exact hcards.trans (by simp [Sketch.cards, Function.comp_def])

theorem Depicts.flowOf_eq {base base' : List String} {k k' : Sketch} {g g' : Graph α} (h : Depicts base k g)
    (h' : Depicts base' k' g') (hbase : ∀ x, x ∈ base ↔ x ∈ base')
    (hentries : k.entries.map (fun e => (e.kind, e.text)) = k'.entries.map (fun e => (e.kind, e.text)))
    (hlinks : k.links = k'.links) : flowOf g = flowOf g' := by
  have hnodes : (flowOf g).nodes = (flowOf g').nodes := by
    rw [h.flowOf_nodes, h'.flowOf_nodes, hentries, Part.nthId_congr fun _ => hbase _]
  have hconnections : g.connections = g'.connections := by
    rw [h.connections, h'.connections]
    unfold Sketch.edges Sketch.edge
    rw [hlinks, Part.nthId_congr fun _ => hbase _, Part.nthId_congr fun _ => hbase _]
  exact congrArg₂ Flow.mk hnodes hconnections

variable [Trigonometry α]

/-- Two outlines with the same node lines have the same flow among nodes with the same ids, whatever the settings
are, wherever the nodes lie and whatever containers are opened and closed. -/
theorem interpret_flow {settings settings' : Settings α} {existing existing' : List (Node α)}
    {outline outline' : String} {g g' : Graph α} (h : interpret settings existing outline = .ok g)
    (h' : interpret settings' existing' outline' = .ok g')
    (hids : ∀ id, id ∈ existing.map (·.id) ↔ id ∈ existing'.map (·.id))
    (hlines : nodeContents settings.labelCap outline.toList = nodeContents settings'.labelCap outline'.toList) :
    flowOf g = flowOf g' := by
  rw [Outline.nodeContents_eq, Outline.nodeContents_eq] at hlines
  refine (depicts_of_interpret h).flowOf_eq (depicts_of_interpret h') hids (entries_ofContents_eq hlines) ?_
  have hanswered := answered_ofContents (Outline.contents settings.labelCap outline.toList)
  have hanswered' := answered_ofContents (Outline.contents settings'.labelCap outline'.toList)
  rw [hlines] at hanswered
  exact hanswered.links_eq hanswered' (Sketch.threaded_ofContents _) (Sketch.threaded_ofContents _)

/-- With other containers and wider spaces, and with the node that is there already elsewhere, the answer lies
elsewhere too. -/
theorem interpret_flow_spaced :
    ∃ (m m' : Node Float) (g g' : Graph Float),
      m = ⟨"node-1", .known .process, ⟨300, 600, 200, 80⟩, "", .absent, Hook.defaults "node-1"⟩ ∧
        m' = m.movedTo ⟨0, 900⟩ ∧
        interpret Options.none.settings [m] "[Decisão] A?\n[Container] X\nNão → B" = .ok g ∧
        interpret ({ Options.none with horizontalSpacing := some 400 } : Options Float).settings [m', m']
          "[container-end]\n[Decisão] A?\nNão → B" = .ok g' ∧
        g.nodes.map (·.position) = [⟨300, 100⟩, ⟨550, 260⟩] ∧
        g'.nodes.map (·.position) = [⟨300, 100⟩, ⟨700, 260⟩] ∧ flowOf g = flowOf g' := by
  let m : Node Float := ⟨"node-1", .known .process, ⟨300, 600, 200, 80⟩, "", .absent, Hook.defaults "node-1"⟩
  have hrun : (interpret (Options.none : Options Float).settings [m]
      "[Decisão] A?\n[Container] X\nNão → B").map (fun g => g.nodes.map (·.position)) =
      .ok [⟨300, 100⟩, ⟨550, 260⟩] := by decide +kernel
  have hrun' : (interpret ({ Options.none with horizontalSpacing := some 400 } : Options Float).settings
      [m.movedTo ⟨0, 900⟩, m.movedTo ⟨0, 900⟩] "[container-end]\n[Decisão] A?\nNão → B").map
        (fun g => g.nodes.map (·.position)) =
      .ok [⟨300, 100⟩, ⟨700, 260⟩] := by decide +kernel
  obtain ⟨g, hg, hplaces⟩ := exists_eq_ok_of_map hrun
  obtain ⟨g', hg', hplaces'⟩ := exists_eq_ok_of_map hrun'
  have hids : ∀ id, id ∈ [m].map (·.id) ↔ id ∈ [m.movedTo ⟨0, 900⟩, m.movedTo ⟨0, 900⟩].map (·.id) := by
    simp [m, Node.movedTo]
  exact ⟨m, m.movedTo ⟨0, 900⟩, g, g', rfl, rfl, hg, hg', hplaces, hplaces',
    interpret_flow hg hg' hids (by decide +kernel)⟩

end Flowchart.Interpretation
