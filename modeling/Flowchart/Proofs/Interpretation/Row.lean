import Flowchart.Proofs.Placement.Clearance
import Flowchart.Proofs.Interpretation.Answers

/-!
# Plain chains

In exact coordinates the nodes of an outline without decisions and containers lie in a straight row, one spacing after
the other, and each is connected with the next one (`interpret_row`). The places are never sought: where a node is
proposed, it is behind the end of the row and clear of every node in it (`InRow.isFree_cursor`). `InRow.step` is the
case of one line.
-/

namespace Flowchart

open Placement (Board Clear Config)

/-- The standard widths. -/
theorem NodeKind.width_mem (kind : NodeKind) : 140 ≤ (kind.width : Rat) ∧ (kind.width : Rat) ≤ 200 := by
  cases kind <;> decide +kernel

namespace Outline.Content

/-- Whether a line has its place in a plain chain: it adds no decision and opens no container. -/
def IsPlain : Content → Prop
  | node .decision _ => False
  | opening _ => False
  | _ => True

end Outline.Content

namespace Interpretation

open Outline (Content lineContents nodeLines attachment? previous?)

/-- The place in a row, counted from zero. -/
def rowPlace (settings : Settings Rat) (i : Nat) : Point Rat :=
  ⟨settings.origin.x + i * settings.horizontalSpacing, settings.origin.y⟩

/-- The nodes lie in a row and the next one is proposed at its end; nothing is open. -/
structure InRow (settings : Settings Rat) (s : State Rat) : Prop where
  position : ∀ (i : Nat) (n : Node Rat), s.nodes[i]? = some n → n.position = rowPlace settings i
  width : ∀ n ∈ s.nodes, ∃ kind : NodeKind, n.rect.width = kind.width
  cursor : s.cursor = rowPlace settings s.nodes.length
  decisions : s.decisions = []
  drafts : s.drafts = []
  opened : s.opened = []

theorem InRow.initial (settings : Settings Rat) : InRow settings (State.initial settings []) where
  position i n hn := by cases hn
  width n hn := by cases hn
  cursor := by simp [State.initial, rowPlace]
  decisions := rfl
  drafts := rfl
  opened := rfl

section Row

variable [Trigonometry Rat] (hlengths : SpanningLengths) {settings : Settings Rat}
  (hspacing : 200 < settings.horizontalSpacing)
  (hlimit : settings.placement.minSpacing * settings.placement.proximity ≤ settings.horizontalSpacing - 30)
  {s : State Rat}
include hlengths hspacing hlimit

/-- A node of a standard width at a later place of the row is clear of one at an earlier place. -/
theorem clear_in_row {r t : Rect Rat} {kind kind' : NodeKind} {i j : Nat} (hij : i < j)
    (hr : r.corner = rowPlace settings j) (ht : t.corner = rowPlace settings i) (hwidth : r.width = kind.width)
    (hwidth' : t.width = kind'.width) : Clear settings.placement r t := by
  have hstep : ((i + 1 : Nat) : Rat) * settings.horizontalSpacing ≤ j * settings.horizontalSpacing :=
    mul_le_mul_of_nonneg_right (Nat.cast_le.2 hij) (by linarith)
  push_cast at hstep
  have hx : r.x = settings.origin.x + j * settings.horizontalSpacing := congrArg Point.x hr
  have hx' : t.x = settings.origin.x + i * settings.horizontalSpacing := congrArg Point.x ht
  obtain ⟨hnarrow, hwide⟩ := kind.width_mem
  obtain ⟨hnarrow', hwide'⟩ := kind'.width_mem
  rw [← hwidth] at hnarrow hwide
  rw [← hwidth'] at hnarrow' hwide'
  refine Placement.clear_of_gap_x hlengths (.inr ?_) (le_abs.2 (.inl ?_))
  · unfold Rect.right Rect.left
    linarith
  · unfold Rect.center
    linarith

namespace InRow

theorem isFree_cursor (h : InRow settings s) {b : Board Rat} (hb : Board.ofNodes settings.placement s.nodes = .ok b)
    (kind : NodeKind) (text : String) : b.isFree s.cursor (proposal (entering s kind) kind text s.cursor) = true := by
  obtain ⟨hconfig, hnodes⟩ := Board.ofNodes_eq_ok hb
  refine Board.isFree_iff.2 fun _ m hm _ => ?_
  rw [hnodes] at hm
  obtain ⟨i, hi⟩ := List.mem_iff_getElem?.1 hm
  obtain ⟨kind', hwidth'⟩ := h.width m hm
  have hwidth : ((proposal (entering s kind) kind text s.cursor).rect.movedTo s.cursor).width = kind.width := by
    simp [Rect.movedTo, proposal]
  rw [hconfig]
  exact clear_in_row hlengths hspacing hlimit (List.getElem?_eq_some_iff.1 hi).1 h.cursor (h.position i m hi)
    hwidth hwidth'

theorem placeInSequence (h : InRow settings s) {kind : NodeKind} (hkind : kind ≠ .decision) (text : String) :
    ∃ s', placeInSequence ⟨settings, []⟩ s kind text = .ok s' ∧ InRow settings s' := by
  obtain ⟨b, hb⟩ := Board.exists_ofNodes settings.placement s.nodes
  have hfree := h.isFree_cursor hlengths hspacing hlimit hb kind text
  have hboard : Board.ofNodes (Context.mk settings []).settings.placement
      ((Context.mk settings []).existing ++ (entering s kind).nodes) = .ok b := by
    simpa using hb
  rw [placeInSequence_eq, emit_of_isFree hboard hfree]
  have hplace := proposal_position (entering s kind) kind text s.cursor
  refine ⟨_, rfl, ⟨fun i n hn => ?_, fun n hn => ?_, ?_, ?_, ?_, ?_⟩⟩
  · simp only [endingWith, linked_nodes, entering_nodes] at hn
    rcases getElem?_concat_eq_some.1 hn with hn | ⟨rfl, rfl⟩
    · exact h.position i n hn
    · rw [hplace, h.cursor]
  · simp only [endingWith, linked_nodes, entering_nodes] at hn
    rcases List.mem_append.1 hn with hn | hn
    · exact h.width n hn
    · obtain rfl := List.mem_singleton.1 hn
      exact ⟨kind, by simp [proposal]⟩
  · have hx := congrArg Point.x (hplace.trans h.cursor)
    have hy := congrArg Point.y (hplace.trans h.cursor)
    simp only [endingWith, hkind, ↓reduceIte, linked_nodes, entering_nodes, List.length_append, List.length_singleton]
    unfold rowPlace at hx hy ⊢
    refine congrArg₂ Point.mk (?_ : _ + _ = _) hy
    rw [show (proposal (entering s kind) kind text s.cursor).rect.x = _ from hx]
    push_cast
    ring
  · have hdecisions : (entering s kind).decisions = [] := by simp [entering, hkind, h.decisions]
    simp only [endingWith, hkind, ↓reduceIte, linked_decisions]
    exact hdecisions
  · have hdrafts : (entering s kind).drafts = [] := (entering_drafts s kind).trans h.drafts
    simp only [endingWith, linked_drafts, hdrafts]
    rfl
  · have hopened : (entering s kind).opened = [] := (entering_opened s kind).trans h.opened
    simp only [endingWith, linked_opened]
    exact hopened

/-- A line of a plain chain goes on with the row. -/
theorem step (h : InRow settings s) {c : Content} (hc : c.IsPlain) :
    ∃ s', step ⟨settings, []⟩ s c = .ok s' ∧ InRow settings s' := by
  cases c with
  | nothing => exact ⟨s, rfl, h⟩
  | opening name => exact hc.elim
  | closing => exact ⟨s, by simp [Interpretation.step, h.drafts], h⟩
  | node kind label =>
    refine h.placeInSequence hlengths hspacing hlimit (fun hkind => ?_) label
    rw [hkind] at hc
    exact hc
  | answer a label =>
    simp only [Interpretation.step, h.decisions]
    exact h.placeInSequence hlengths hspacing hlimit (by decide) label

theorem run (h : InRow settings s) {cs : List Content} (hcs : ∀ c ∈ cs, c.IsPlain) :
    ∃ s', cs.foldlM (Interpretation.step ⟨settings, []⟩) s = .ok s' ∧ InRow settings s' := by
  induction cs generalizing s with
  | nil => exact ⟨s, rfl, h⟩
  | cons c cs ih =>
    obtain ⟨hc, hcs⟩ := List.forall_mem_cons.1 hcs
    obtain ⟨s₁, hs₁, h₁⟩ := h.step hlengths hspacing hlimit hc
    obtain ⟨s', hs', h'⟩ := ih h₁ hcs
    refine ⟨s', ?_, h'⟩
    rw [List.foldlM_cons, hs₁]
    exact hs'

end InRow

/-- The chart of a plain chain is the row of its nodes. -/
theorem exists_row {outline : String} (hplain : ∀ c ∈ lineContents settings.labelCap outline.toList, c.IsPlain) :
    ∃ g, interpret settings [] outline = .ok g ∧
      ∀ (i : Nat) (n : Node Rat), g.nodes[i]? = some n → n.position = rowPlace settings i := by
  rw [← Outline.contents_eq] at hplain
  obtain ⟨b, hb⟩ := Board.exists_ofNodes settings.placement []
  obtain ⟨s, hs, hrow⟩ := (InRow.initial settings).run hlengths hspacing hlimit hplain
  refine ⟨⟨s.nodes, s.connections, []⟩, ?_, hrow.position⟩
  refine interpretContents_eq_ok.2 ⟨⟨b, hb⟩, s, s, hs, ?_, ?_⟩
  · rw [hrow.drafts]
    rfl
  · unfold chart
    rw [hrow.opened]
    rfl

end Row

section Connections

variable {ns : List Content}

/-- Where no decision is added, no node is attached to one. -/
theorem attachment?_of_no_decision (h : ∀ c ∈ ns, c.branching ≠ .opens) (i : Nat) : attachment? ns i = none := by
  have hopen : Nesting.innermost? (ns.map Content.branching) i = none := by
    refine Option.eq_none_iff_forall_ne_some.2 fun j hj => ?_
    have hopens := (Nesting.isOpen_of_innermost? hj).2.1
    rw [List.getElem?_map] at hopens
    obtain ⟨c, hc, hbranching⟩ := Option.map_eq_some_iff.1 hopens
    exact h c (List.mem_of_getElem? hc) hbranching
  unfold attachment?
  rw [hopen]
  cases ns[i]?.bind Content.answer? <;> rfl

/-- Where no decision is added, each node follows the one before it. -/
theorem link?_of_no_decision (h : ∀ c ∈ ns, c.branching ≠ .opens) (i : Nat) : link? ns (i + 1) = some ⟨i, none⟩ := by
  unfold link?
  rw [attachment?_of_no_decision h, Outline.previous?_succ, attachment?_of_no_decision h]
  rfl

/-- Where no decision is added, the connections lead from each node to the next one. -/
theorem Depicts.ends_of_no_decision {α : Type} [Scalar α] {base : List String} {k : Sketch} {g : Graph α}
    (hg : Depicts base k g) (ht : k.Threaded) (ha : Answered ns k) (h : ∀ c ∈ ns, c.branching ≠ .opens) :
    g.connections.map (fun c => (c.source, c.target)) =
      (g.nodes.map (·.id)).zip ((g.nodes.map (·.id)).drop 1) := by
  have hlength := ha.entries_length
  have hlinks := ht.links_length
  rw [ids_of_cards hg.nodes, hg.connections]
  refine List.ext_getElem? fun i => ?_
  by_cases hi : i + 1 < ns.length
  · have hlink := (ha.links i hi).trans (link?_of_no_decision h i)
    have hnode : i < k.entries.length ∧ i + 1 < k.entries.length := by omega
    simp [Sketch.edges, Sketch.edge, Connection.between, List.zip_eq_zipWith, List.getElem?_zipWith, hlink, hnode]
  · rw [List.getElem?_eq_none (by simp [Sketch.edges]; omega), List.getElem?_eq_none (by simp; omega)]

end Connections

/-- With exact numbers an outline without decisions and containers has a straight row of nodes, one for each node line:
each lies one spacing behind the one before it, where it was proposed, and is connected with the next one. -/
theorem interpret_row [Trigonometry Rat] (hlengths : SpanningLengths) {settings : Settings Rat}
    (hspacing : 200 < settings.horizontalSpacing)
    (hlimit : settings.placement.minSpacing * settings.placement.proximity ≤ settings.horizontalSpacing - 30)
    {outline : String} (hplain : ∀ c ∈ lineContents settings.labelCap outline.toList, c.IsPlain) :
    ∃ g, interpret settings [] outline = .ok g ∧
      g.nodes.length = (nodeLines settings.labelCap outline.toList).length ∧
      (∀ (i : Nat) (n : Node Rat), g.nodes[i]? = some n →
        n.position = ⟨settings.origin.x + i * settings.horizontalSpacing, settings.origin.y⟩) ∧
      g.connections.map (fun c => (c.source, c.target)) =
        (g.nodes.map (·.id)).zip ((g.nodes.map (·.id)).drop 1) := by
  obtain ⟨g, hg, hrow⟩ := exists_row hlengths hspacing hlimit hplain
  have hdepicts := depicts_of_interpret hg
  refine ⟨g, hg, by simpa using congrArg List.length hdepicts.map_shown, hrow, ?_⟩
  refine hdepicts.ends_of_no_decision (Sketch.threaded_ofContents _) (answered_ofContents _) fun c hc hbranching => ?_
  rw [Outline.contents_eq] at hc
  have hc' := hplain c (List.mem_of_mem_filter hc)
  cases c with
  | node kind label =>
    cases kind with
    | decision => exact hc'
    | _ => cases hbranching
  | _ => cases hbranching

/-- An answer to nothing and a closing of nothing lie in a chain whose spaces are as narrow as they may be. A ring has
no steps, so no place could be sought for a node. -/
theorem interpret_row_narrow :
    ∃ (settings : Settings Rat) (g : Graph Rat),
      settings = ({ Options.none with
        originX := some (-7)
        horizontalSpacing := some 201
        placement := some { Placement.Config.standard with minSpacing := 342, proximity := 0.5, angleStep := 0 } } :
          Options Rat).settings ∧
        200 < settings.horizontalSpacing ∧
        settings.placement.minSpacing * settings.placement.proximity ≤ settings.horizontalSpacing - 30 ∧
        @interpret Rat _ axisParallel settings [] "Sim → A\n[Container-end]\nPedido\n[Fim] B" = .ok g ∧
        g.nodes.length = 3 ∧
        (∀ (i : Nat) (n : Node Rat), g.nodes[i]? = some n → n.position = ⟨-7 + i * 201, 100⟩) ∧
        g.connections.map (fun c => (c.source, c.target)) =
          (g.nodes.map (·.id)).zip ((g.nodes.map (·.id)).drop 1) := by
  let settings : Settings Rat := ({ Options.none with
    originX := some (-7)
    horizontalSpacing := some 201
    placement := some { Placement.Config.standard with minSpacing := 342, proximity := 0.5, angleStep := 0 } } :
      Options Rat).settings
  have hspacing : 200 < settings.horizontalSpacing := by decide +kernel
  have hlimit : settings.placement.minSpacing * settings.placement.proximity ≤ settings.horizontalSpacing - 30 := by
    decide +kernel
  have hcontents : lineContents settings.labelCap "Sim → A\n[Container-end]\nPedido\n[Fim] B".toList =
      [.answer .yes "A", .closing, .node .process "Pedido", .node .finish "B"] := by decide +kernel
  have hplain : ∀ c ∈ lineContents settings.labelCap "Sim → A\n[Container-end]\nPedido\n[Fim] B".toList,
      c.IsPlain := by
    rw [hcontents]
    simp [Content.IsPlain]
  obtain ⟨g, hg, hlength, hrow, hends⟩ :=
    @interpret_row axisParallel spanningLengths_axisParallel settings hspacing hlimit _ hplain
  exact ⟨settings, g, rfl, hspacing, hlimit, hg, hlength.trans (by decide +kernel), hrow, hends⟩

end Interpretation

end Flowchart
