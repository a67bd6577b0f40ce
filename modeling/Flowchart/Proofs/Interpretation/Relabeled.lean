import Flowchart.Numeric.Double
import Flowchart.Proofs.Interpretation.Emission
import Flowchart.Proofs.Lookup
import Flowchart.Proofs.Outline.Cap
import Flowchart.Proofs.Placement.Footprint

/-!
# Other labels

Labels are carried into the chart and never looked at. So if every label of an outline is replaced, the same replacement
turns its chart into the new one, and nothing else of the chart changes (`interpretContents_relabeled`). The replacement
commutes with each operation of a step, hence with a step and with a run.

The cap of the labels is used when the outline is read and not afterwards (`interpretContents_withCap`). Both together
tell what a tighter cap changes: it caps the labels of the chart once more (`interpret_withCap`).
-/

namespace Flowchart

variable {α : Type}

/-- The node with its text replaced. -/
def Node.relabeled (f : String → String) (n : Node α) : Node α :=
  { n with text := f n.text }

@[simp] theorem Node.relabeled_id (f : String → String) (n : Node α) : (n.relabeled f).id = n.id := rfl

@[simp] theorem Node.footprint_relabeled (f : String → String) (n : Node α) :
    (n.relabeled f).footprint = n.footprint := rfl

theorem Node.withSomeHook_relabeled [Scalar α] (f : String → String) (n : Node α) :
    (n.relabeled f).withSomeHook = n.withSomeHook.relabeled f := by
  have hhooks : (n.relabeled f).hooks = n.hooks := rfl
  unfold withSomeHook
  rw [hhooks]
  split <;> rfl

theorem Node.make_relabeled [Scalar α] (f : String → String) (n : Node α) :
    (n.relabeled f).make = n.make.map (Node.relabeled f) := by
  unfold make
  rw [withSomeHook_relabeled]
  by_cases hsize : n.rect.width ≤ 0 ∨ n.rect.height ≤ 0
  · rw [if_pos hsize]
    exact if_pos hsize
  · rw [if_neg hsize]
    exact if_neg hsize

/-- The chart with the texts of its nodes replaced. -/
def Graph.relabeled (f : String → String) (g : Graph α) : Graph α :=
  { g with nodes := g.nodes.map (Node.relabeled f) }

theorem nodeWithId?_relabeled (f : String → String) (nodes : List (Node α)) (id : String) :
    nodeWithId? (nodes.map (Node.relabeled f)) id = (nodeWithId? nodes id).map (Node.relabeled f) :=
  find?_reverse_map Node.id (Node.relabeled_id f) nodes id

theorem requireNode_relabeled (f : String → String) (nodes : List (Node α)) (id : String) :
    requireNode (nodes.map (Node.relabeled f)) id = (requireNode nodes id).map (Node.relabeled f) := by
  unfold requireNode
  rw [nodeWithId?_relabeled]
  cases nodeWithId? nodes id <;> rfl

namespace Interpretation

open Placement (Board placeAmong placeAmong_congr)
open Outline (Content)

variable (f : String → String)

/-- The state with the texts of its nodes replaced. -/
def State.relabeled (s : State α) : State α :=
  { s with nodes := s.nodes.map (Node.relabeled f) }

variable [Scalar α]

theorem proposal_relabeled (s : State α) (kind : NodeKind) (text : String) (p : Point α) :
    proposal (s.relabeled f) kind (f text) p = (proposal s kind text p).relabeled f := rfl

theorem settled_relabeled (n : Node α) (place : Point α) :
    settled (n.relabeled f) place = (settled n place).relabeled f := by
  have hposition : (n.relabeled f).position = n.position := rfl
  unfold settled
  rw [hposition]
  split <;> rfl

omit [Scalar α] in
theorem entering_relabeled (s : State α) (kind : NodeKind) :
    entering (s.relabeled f) kind = (entering s kind).relabeled f := by
  unfold entering
  split <;> rfl

theorem linked_relabeled (s : State α) (previous : Option (Node α)) (n : Node α) :
    linked (s.relabeled f) (previous.map (Node.relabeled f)) (n.relabeled f) = (linked s previous n).relabeled f := by
  cases previous <;> rfl

variable (ctx : Context α)

theorem endingWith_relabeled (s : State α) (kind : NodeKind) (n : Node α) :
    endingWith ctx (s.relabeled f) kind (n.relabeled f) = (endingWith ctx s kind n).relabeled f := rfl

theorem openContainer_relabeled (s : State α) (name : String) :
    openContainer ctx (s.relabeled f) name = (openContainer ctx s name).relabeled f := rfl

omit [Scalar α] in
theorem closedContainer_relabeled (s : State α) : closedContainer (s.relabeled f) = closedContainer s := rfl

theorem closeContainer_relabeled (s : State α) :
    closeContainer ctx (s.relabeled f) = (closeContainer ctx s).map (State.relabeled f) := by
  have hdrafts : (s.relabeled f).drafts = s.drafts := rfl
  unfold closeContainer
  rw [hdrafts]
  cases s.drafts with
  | nil => rfl
  | cons d ds =>
    have hnodes : d.nodeIds.mapM (requireNode (s.relabeled f).nodes) =
        (d.nodeIds.mapM (requireNode s.nodes)).map (List.map (Node.relabeled f)) := by
      rw [map_mapM]
      exact congrArg (fun find => d.nodeIds.mapM find) (funext (requireNode_relabeled f s.nodes))
    simp only [hnodes, closedContainer_relabeled]
    cases d.nodeIds.mapM (requireNode s.nodes) with
    | error e => rfl
    | ok nodes =>
      have hrects : (nodes.map (Node.relabeled f)).map (·.rect) = nodes.map (·.rect) := by
        rw [List.map_map]
        rfl
      simp only [Except.map, bind, Except.bind, hrects]
      cases d.children.mapM (closedContainer s) <;> rfl

variable [Trigonometry α]

/-- The place that is found for a node does not depend on labels. -/
theorem emit_relabeled (s : State α) (kind : NodeKind) (text : String) (p : Point α) (anchor : Option (Node α)) :
    emit ctx (s.relabeled f) kind (f text) p (anchor.map (Node.relabeled f)) =
      (emit ctx s kind text p anchor).map (Prod.map (Node.relabeled f) (State.relabeled f)) := by
  have hplace : ∀ n : Node α,
      placeAmong ctx.settings.placement (ctx.existing ++ (s.relabeled f).nodes) (n.relabeled f)
          (anchor.map (Node.relabeled f)) =
        placeAmong ctx.settings.placement (ctx.existing ++ s.nodes) n anchor := by
    intro n
    refine placeAmong_congr ?_ rfl ?_
    · simp [State.relabeled, Function.comp_def]
    · simp [Function.comp_def]
  rw [emit_eq, emit_eq, proposal_relabeled, Node.make_relabeled]
  cases (proposal s kind text p).make with
  | error e => rfl
  | ok n =>
    simp only [Except.map, bind, Except.bind, hplace, settled_relabeled]
    cases placeAmong ctx.settings.placement (ctx.existing ++ s.nodes) n anchor with
    | error e => rfl
    | ok place =>
      simp [numeric, State.relabeled, State.freshId]

theorem placeInSequence_relabeled (s : State α) (kind : NodeKind) (text : String) :
    placeInSequence ctx (s.relabeled f) kind (f text) = (placeInSequence ctx s kind text).map (State.relabeled f) := by
  have hprevious : (s.relabeled f).last.bind (nodeWithId? (s.relabeled f).nodes) =
      (s.last.bind (nodeWithId? s.nodes)).map (Node.relabeled f) := by
    rw [Option.map_bind]
    exact congrArg s.last.bind (funext (nodeWithId?_relabeled f s.nodes))
  have hcursor : (s.relabeled f).cursor = s.cursor := rfl
  rw [placeInSequence_eq, placeInSequence_eq, hprevious, hcursor, entering_relabeled, emit_relabeled]
  cases emit ctx (entering s kind) kind text s.cursor (s.last.bind (nodeWithId? s.nodes)) with
  | error e => rfl
  | ok added => simp only [Except.map, Prod.map, linked_relabeled, endingWith_relabeled]

theorem placeAnswer_relabeled (s : State α) (d : OpenDecision α) (a : Outline.Answer) (text : String) :
    placeAnswer ctx (s.relabeled f) d a (f text) = (placeAnswer ctx s d a text).map (State.relabeled f) := by
  have hanchor : nodeWithId? (s.relabeled f).nodes d.nodeId =
      (nodeWithId? s.nodes d.nodeId).map (Node.relabeled f) := nodeWithId?_relabeled f s.nodes d.nodeId
  rw [placeAnswer_eq, placeAnswer_eq, hanchor, emit_relabeled]
  cases emit ctx s .process text (answerPlace ctx d a) (nodeWithId? s.nodes d.nodeId) <;> rfl

theorem step_relabeled (s : State α) (c : Content) :
    step ctx (s.relabeled f) (c.relabeled f) = (step ctx s c).map (State.relabeled f) := by
  have hdrafts : (s.relabeled f).drafts = s.drafts := rfl
  have hdecisions : (s.relabeled f).decisions = s.decisions := rfl
  cases c with
  | nothing => rfl
  | opening name => exact congrArg Except.ok (openContainer_relabeled f ctx s name)
  | closing =>
    simp only [Content.relabeled, step, hdrafts, closeContainer_relabeled]
    split <;> rfl
  | node kind label => exact placeInSequence_relabeled f ctx s kind label
  | answer a label =>
    simp only [Content.relabeled, step, hdecisions]
    cases s.decisions with
    | nil => exact placeInSequence_relabeled f ctx s .process label
    | cons d ds => exact placeAnswer_relabeled f ctx s d a label

theorem run_relabeled (s : State α) (cs : List Content) :
    (cs.map (Content.relabeled f)).foldlM (step ctx) (s.relabeled f) =
      (cs.foldlM (step ctx) s).map (State.relabeled f) := by
  induction cs generalizing s with
  | nil => rfl
  | cons c cs ih =>
    rw [List.map_cons, List.foldlM_cons, List.foldlM_cons, step_relabeled]
    cases step ctx s c with
    | error e => rfl
    | ok s' => exact ih s'

omit [Trigonometry α] in
theorem closeAll_relabeled (count : Nat) (s : State α) :
    closeAll ctx count (s.relabeled f) = (closeAll ctx count s).map (State.relabeled f) := by
  induction count generalizing s with
  | zero => rfl
  | succ count ih =>
    unfold closeAll
    rw [closeContainer_relabeled]
    cases closeContainer ctx s with
    | error e => rfl
    | ok s' => exact ih s'

omit [Scalar α] [Trigonometry α] in
theorem chart_relabeled (s : State α) : chart (s.relabeled f) = (chart s).map (Graph.relabeled f) := by
  unfold chart
  rw [closedContainer_relabeled]
  have hopened : (s.relabeled f).opened = s.opened := rfl
  rw [hopened]
  cases s.opened.mapM (closedContainer s) <;> rfl

/-- Replacing the labels before the interpretation or after it comes to the same. -/
theorem interpretContents_relabeled (cs : List Content) :
    interpretContents ctx (cs.map (Content.relabeled f)) = (interpretContents ctx cs).map (Graph.relabeled f) := by
  have hrun : (cs.map (Content.relabeled f)).foldlM (step ctx) (.initial ctx.settings ctx.existing) =
      (cs.foldlM (step ctx) (.initial ctx.settings ctx.existing)).map (State.relabeled f) :=
    run_relabeled f ctx (.initial ctx.settings ctx.existing) cs
  unfold interpretContents
  rw [hrun]
  cases Board.ofNodes ctx.settings.placement ctx.existing with
  | error e => rfl
  | ok b =>
    cases cs.foldlM (step ctx) (.initial ctx.settings ctx.existing) with
    | error e => rfl
    | ok s =>
      have hclosed : closeAll ctx s.drafts.length (s.relabeled f) =
          (closeAll ctx s.drafts.length s).map (State.relabeled f) := closeAll_relabeled f ctx s.drafts.length s
      have hdrafts : (s.relabeled f).drafts = s.drafts := rfl
      simp only [numeric, bind, Except.bind, Except.map, hdrafts, hclosed]
      cases closeAll ctx s.drafts.length s with
      | error e => rfl
      | ok s' => exact chart_relabeled f s'

/-! ### The cap -/

/-- The settings with another cap of the labels. -/
def Settings.withCap (settings : Settings α) (cap : Int) : Settings α :=
  { settings with labelCap := cap }

omit [Trigonometry α] in
theorem closeAll_withCap (settings : Settings α) (existing : List (Node α)) (cap : Int) (count : Nat) (s : State α) :
    closeAll ⟨settings.withCap cap, existing⟩ count s = closeAll ⟨settings, existing⟩ count s := by
  induction count generalizing s with
  | zero => rfl
  | succ count ih =>
    unfold closeAll
    have hclose : closeContainer ⟨settings.withCap cap, existing⟩ s = closeContainer ⟨settings, existing⟩ s := rfl
    rw [hclose]
    cases closeContainer ⟨settings, existing⟩ s with
    | error e => rfl
    | ok s' => exact ih s'

/-- Once the outline has been read, the cap plays no part. -/
theorem interpretContents_withCap (settings : Settings α) (existing : List (Node α)) (cap : Int) (cs : List Content) :
    interpretContents ⟨settings.withCap cap, existing⟩ cs = interpretContents ⟨settings, existing⟩ cs := by
  have hstep : step ⟨settings.withCap cap, existing⟩ = step ⟨settings, existing⟩ := by
    funext s c
    cases c <;> rfl
  unfold interpretContents
  simp only [hstep, closeAll_withCap]
  rfl

/-- The label cap touches labels only, and caps compose: what a wide cap leaves of a label is cut by a tighter one as
the whole label would be, and the chart under the tighter cap is that under the wide one with the text of each node
capped once more. A cap that is not positive leaves labels whole and is the widest. -/
theorem interpret_withCap {cap wide : Int} (hcap : 1 ≤ cap) (hwide : cap ≤ wide ∨ wide ≤ 0) :
    (∀ label, Outline.capLabel cap (Outline.capLabel wide label) = Outline.capLabel cap label) ∧
    ∀ (settings : Settings α) (existing : List (Node α)) (outline : String),
      interpret (settings.withCap cap) existing outline =
        (interpret (settings.withCap wide) existing outline).map (Graph.relabeled (Outline.capLabel cap)) := by
  refine ⟨Outline.capLabel_capLabel hcap hwide.symm, fun settings existing outline => ?_⟩
  unfold interpret
  rw [interpretContents_withCap, interpretContents_withCap, ← interpretContents_relabeled]
  exact congrArg _ (Outline.contents_capped hcap hwide.symm outline.toList)

/-- A cut at eight characters takes blanks with it and leaves four, fewer than a cut at six would allow. The name of the
container stays whole. -/
theorem interpret_withCap_blanks :
    ∃ (settings : Settings Float) (outline : String) (g g' : Graph Float), settings = Options.none.settings ∧
      outline = "[Container] Uma etapa longa\n[Início] abcd    efghij\n[Processo] Conferir" ∧
      (1 : Int) ≤ 7 ∧ ((7 : Int) ≤ 9 ∨ (9 : Int) ≤ 0) ∧
      Outline.capLabel 9 "abcd    efghij" = "abcd…" ∧
      Outline.capLabel 7 (Outline.capLabel 9 "abcd    efghij") = Outline.capLabel 7 "abcd    efghij" ∧
      interpret (settings.withCap 9) [] outline = .ok g ∧ interpret (settings.withCap 7) [] outline = .ok g' ∧
      g' = g.relabeled (Outline.capLabel 7) ∧
      g.nodes.map (·.text) = ["abcd…", "Conferir"] ∧ g'.nodes.map (·.text) = ["abcd…", "Confer…"] ∧
      g'.containers.map (·.name) = ["Uma etapa longa"] := by
  let settings : Settings Float := Options.none.settings
  let outline : String := "[Container] Uma etapa longa\n[Início] abcd    efghij\n[Processo] Conferir"
  have hrun : (interpret (settings.withCap 9) [] outline).map (fun g => (g.nodes.map (·.text),
      (g.relabeled (Outline.capLabel 7)).nodes.map (·.text), g.containers.map (·.name))) =
        .ok (["abcd…", "Conferir"], ["abcd…", "Confer…"], ["Uma etapa longa"]) := by
    decide +kernel
  obtain ⟨g, hg, hshown⟩ := exists_eq_ok_of_map hrun
  obtain ⟨htexts, htexts', hnames⟩ := by simpa only [Prod.mk.injEq] using hshown
  have hwide : (7 : Int) ≤ 9 ∨ (9 : Int) ≤ 0 := by decide
  obtain ⟨hlabel, hcharts⟩ := @interpret_withCap Float _ _ 7 9 (by decide) hwide
  have hg' : interpret (settings.withCap 7) [] outline = .ok (g.relabeled (Outline.capLabel 7)) := by
    rw [hcharts, hg]
    rfl
  exact ⟨settings, outline, g, g.relabeled (Outline.capLabel 7), rfl, rfl, by decide, hwide, by decide +kernel,
    hlabel _, hg, hg', rfl, htexts, htexts', hnames⟩

end Interpretation

end Flowchart
