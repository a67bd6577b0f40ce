import Flowchart.Numeric.Double
import Flowchart.Proofs.Interpretation.Closing
import Flowchart.Proofs.Interpretation.Containment

/-!
# Outlines that go on

An outline can be interpreted as far as it has been written. If lines are added at its end, its chart is taken up
by the new one: no node or connection changes, and neither does a container that is closed by a line of its own
(`interpret_append`). Only the containers that were left open may take up more.
-/

namespace Flowchart.Interpretation

open Outline (Content lineContents opensBefore)

variable {α : Type}

/-- The chart of some lines is taken up by the chart of an outline that begins with them. -/
structure TakenUp (cs : List Content) (g g' : Graph α) : Prop where
  nodes : g.nodes <+: g'.nodes
  connections : g.connections <+: g'.connections
  container_ids : g.containers.map (·.id) <+: g'.containers.map (·.id)
  /-- A container that a line closes is the same in both. -/
  closed : ∀ p q : Nat, cs[q]? = some .closing → Nesting.innermost? (cs.map Content.framing) q = some p →
    ∃ c, g.containers[opensBefore cs p]? = some c ∧ g'.containers[opensBefore cs p]? = some c

/-- A container that a line has closed is not among the open ones. -/
private theorem not_mem_openFrames {cs : List Content} {k : Sketch} (hk : Bracketed cs k) {p q : Nat}
    (hq : cs[q]? = some .closing) (hp : Nesting.innermost? (cs.map Content.framing) q = some p) :
    opensBefore cs p ∉ k.openFrames := by
  have hbracket : (cs.map Content.framing)[q]? = some .closes := by rw [List.getElem?_map, hq]; rfl
  obtain ⟨-, name, hopening⟩ := Outline.opening_of_innermost? hp
  rw [hk.openFrames]
  intro hmem
  obtain ⟨p', hp', hsame⟩ := List.mem_map.1 hmem
  have hopen := (Nesting.mem_openAfter _ p').1 hp'
  obtain ⟨name', hopening'⟩ := Outline.opening_of_isOpen hopen
  obtain rfl : p' = p := Outline.countBefore_inj Content.name? hopening' rfl hopening rfl hsame
  have hlt : q < (cs.map Content.framing).length := (List.getElem?_eq_some_iff.1 hbracket).1
  exact Nesting.not_isOpen_of_closes hbracket hp hlt hopen

variable [Scalar α]

/-- A container that a line has closed is found in the state behind the lines. -/
private theorem Renders.exists_closed {base : List String} {k : Sketch} {s : State α} {cs : List Content}
    (h : Renders base k s) (hk : Bracketed cs k) {p q : Nat} (hq : cs[q]? = some .closing)
    (hp : Nesting.innermost? (cs.map Content.framing) q = some p) :
    ∃ id c, s.opened[opensBefore cs p]? = some id ∧ closedContainer s id = .ok c := by
  obtain ⟨-, name, hopening⟩ := Outline.opening_of_innermost? hp
  have hlt : opensBefore cs p < k.frames.length :=
    (List.getElem?_eq_some_iff.1 (hk.frames.getElem?_eq p _ name hopening rfl)).1
  obtain ⟨c, hc⟩ := h.exists_closedContainer hlt (not_mem_openFrames hk hq hp)
  refine ⟨_, c, ?_, hc⟩
  rw [h.opened, List.getElem?_map, List.getElem?_range hlt]
  rfl

variable [Trigonometry α] {ctx : Context α}

theorem exists_takenUp {cs ds : List Content} {g' : Graph α} (h : interpretContents ctx (cs ++ ds) = .ok g') :
    ∃ g, interpretContents ctx cs = .ok g ∧ TakenUp cs g g' := by
  obtain ⟨hboard, t, t', hrun, ht', hg'⟩ := interpretContents_eq_ok.1 h
  rw [List.foldlM_append] at hrun
  obtain ⟨s, hs, ht⟩ := bind_eq_ok.1 hrun
  have hrenders := Renders.run hs
  obtain ⟨s', g, hs', hg⟩ :=
    hrenders.exists_chart (Sketch.framed_ofContents cs) (Sketch.stacked_ofContents cs) ctx
  refine ⟨g, interpretContents_eq_ok.2 ⟨hboard, s, s', hs, hs', hg⟩, ?_⟩
  -- both charts go on from the state behind the lines; the first one only closes what is open there
  have hlonger : Continues s t' := (run_continues ht).trans (closeAll_continues ht')
  obtain ⟨hnodes, hconnections, hids, -⟩ := chart_eq_ok hg
  obtain ⟨hnodes', hconnections', hids', -⟩ := chart_eq_ok hg'
  obtain ⟨hsnodes, hsconnections, hsopened⟩ := closeAll_keeps hs'
  refine ⟨?_, ?_, ?_, ?_⟩
  · rw [hnodes, hsnodes, hnodes']
    exact hlonger.nodes
  · rw [hconnections, hsconnections, hconnections']
    exact hlonger.connections
  · rw [hids, hsopened, hids']
    exact hlonger.opened
  · intro p q hq hp
    obtain ⟨id, c, hid, hc⟩ := hrenders.exists_closed (bracketed_ofContents cs) hq hp
    refine ⟨c, ?_, ?_⟩
    · exact getElem?_containers_of_chart hg (hsopened ▸ hid) ((closeAll_continues hs').closedContainer hc)
    · obtain ⟨hlt, rfl⟩ := List.getElem?_eq_some_iff.1 hid
      exact getElem?_containers_of_chart hg' (List.prefix_iff_getElem?.1 hlonger.opened _ hlt)
        (hlonger.closedContainer hc)

/-- The chart of an outline is taken up by that of every outline that begins with it. -/
theorem interpret_append {settings : Settings α} {existing : List (Node α)} {a b : String} {g' : Graph α}
    (h : interpret settings existing (a ++ "\n" ++ b) = .ok g') :
    ∃ g, interpret settings existing a = .ok g ∧ TakenUp (lineContents settings.labelCap a.toList) g g' := by
  have hlines : Outline.contents settings.labelCap (a ++ "\n" ++ b).toList =
      Outline.contents settings.labelCap a.toList ++ Outline.contents settings.labelCap b.toList := by
    rw [← Outline.contents_append]
    simp
  unfold interpret at h ⊢
  rw [hlines] at h
  rw [← Outline.contents_eq]
  exact exists_takenUp h

/-- The container that is closed stays as it is; the other one takes up what follows. -/
theorem interpret_append_open :
    ∃ (g g' : Graph Float) (c : Container Float),
      interpret Options.none.settings []
          ("[Container] X\n[Início] A\n[container-end]\n[Container] Y\n[Decisão] B?" ++ "\n" ++ "Sim → C") =
            .ok g' ∧
        interpret Options.none.settings []
          "[Container] X\n[Início] A\n[container-end]\n[Container] Y\n[Decisão] B?" = .ok g ∧
        g'.containers.map (·.nodeIds) = [["node-1"], ["node-2", "node-3"]] ∧ g.nodes <+: g'.nodes ∧
        g.containers[0]? = some c ∧ g'.containers[0]? = some c := by
  have hrun : (interpret (Options.none : Options Float).settings []
      ("[Container] X\n[Início] A\n[container-end]\n[Container] Y\n[Decisão] B?" ++ "\n" ++ "Sim → C")).map
        (fun g => g.containers.map (·.nodeIds)) = .ok [["node-1"], ["node-2", "node-3"]] := by decide +kernel
  obtain ⟨g', hg', hnodeIds⟩ := exists_eq_ok_of_map hrun
  obtain ⟨g, hg, htakenUp⟩ := interpret_append hg'
  obtain ⟨c, hc, hc'⟩ := htakenUp.closed 0 2 (by decide +kernel) (by decide +kernel)
  exact ⟨g, g', c, hg', hg, hnodeIds, htakenUp.nodes, hc, hc'⟩

end Flowchart.Interpretation
