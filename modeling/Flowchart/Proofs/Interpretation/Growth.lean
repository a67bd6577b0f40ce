import Flowchart.Numeric.Double
import Flowchart.Proofs.Tree
import Flowchart.Proofs.Interpretation.Rendering

/-!
# The flow of a chart is a tree

The nodes of a chart are the node lines of its outline, one for each and in the same order, and the connections
make a tree of them whose root is the first node (`interpret_nodeLines_tree`). Each node but the first is
connected when it is added, with a node before it: an answer with its decision, any other node with the end of
the chain.
-/

namespace Flowchart.Interpretation

open Outline (Content nodeLines)

variable {α : Type} [Scalar α]

theorem Depicts.grows {base : List String} {k : Sketch} {g : Graph α} (h : Depicts base k g) (ht : k.Threaded) :
    g.Grows where
  ids_nodup := by
    rw [ids_of_cards h.nodes]
    exact List.nodup_range.map (Part.nthId_injective base .node)
  targets := by
    rw [ids_of_cards h.nodes, h.connections]
    refine List.ext_getElem? fun i => ?_
    by_cases hi : i < k.links.length
    · have := ht.links_length
      have hnode : i + 1 < k.entries.length := by omega
      simp [Sketch.edges, Sketch.edge, Connection.between, hi, hnode]
    · have := ht.links_length
      have hnode : ¬ i + 1 < k.entries.length := by omega
      simp [Sketch.edges, hi, hnode]
  source_before i c hc := by
    rw [h.connections, Sketch.edges, List.getElem?_map, List.getElem?_zipIdx] at hc
    obtain ⟨p, hp, rfl⟩ := Option.map_eq_some_iff.1 hc
    obtain ⟨l, hl, rfl⟩ := Option.map_eq_some_iff.1 hp
    have hle := ht.source_le i l hl
    have hlt := (List.getElem?_eq_some_iff.1 hl).1
    have hnodes := ht.links_length
    refine ⟨l.source, hle, ?_⟩
    rw [ids_of_cards h.nodes, List.getElem?_map, List.getElem?_range (by omega)]
    rfl

/-- The nodes show the kinds and the texts of the node lines. -/
theorem Depicts.map_shown {base : List String} {maxLength : Int} {text : List Char} {g : Graph α}
    (h : Depicts base (.ofContents (Outline.contents maxLength text)) g) :
    g.nodes.map (fun n => (n.kind.name, n.text)) =
      (nodeLines maxLength text).map fun line => (line.kindName, line.text) := by
  have hcards := congrArg (List.map fun c : Card => (c.kind.name, c.text)) h.nodes
  rw [List.map_map] at hcards
  rw [Outline.nodeLines_map_shown, ← Sketch.entries_ofContents, List.map_map]
  refine hcards.trans ?_
  rw [Sketch.cards, List.map_map]
  conv_rhs => rw [← List.zipIdx_map_fst 0 (Sketch.ofContents _).entries, List.map_map]
  rfl

variable [Trigonometry α]

/-- A chart has one node for each node line, with the kind and the text of the line, in the order of the lines,
and its connections make a tree of them in which each node hangs below an earlier one. -/
theorem interpret_nodeLines_tree {settings : Settings α} {existing : List (Node α)} {outline : String}
    {g : Graph α} (h : interpret settings existing outline = .ok g) :
    g.nodes.map (fun n => (n.kind.name, n.text)) =
        (nodeLines settings.labelCap outline.toList).map (fun line => (line.kindName, line.text)) ∧
      g.IsTree := by
  have hdepicts := depicts_of_interpret h
  exact ⟨hdepicts.map_shown, (hdepicts.grows (Sketch.threaded_ofContents _)).isTree⟩

/-- Two answers and the end of the chain hang below the decision. -/
theorem interpret_nodeLines_tree_decision :
    ∃ g : Graph Float,
      interpret Options.none.settings [] "[Decisão] A?\n[Container] X\nSim → B\nNão → C\n[Fim] D" = .ok g ∧
        g.nodes.map (·.text) = ["A?", "B", "C", "D"] ∧
        g.connections.map (·.source) = ["node-1", "node-1", "node-1"] ∧ g.IsTree := by
  have hrun : (interpret (Options.none : Options Float).settings []
      "[Decisão] A?\n[Container] X\nSim → B\nNão → C\n[Fim] D").map
        (fun g => (g.nodes.map (·.text), g.connections.map (·.source))) =
      .ok (["A?", "B", "C", "D"], ["node-1", "node-1", "node-1"]) := by decide +kernel
  obtain ⟨g, hg, hshown⟩ := exists_eq_ok_of_map hrun
  obtain ⟨htexts, hsources⟩ := Prod.mk.inj hshown
  exact ⟨g, hg, htexts, hsources, (interpret_nodeLines_tree hg).2⟩

end Flowchart.Interpretation
