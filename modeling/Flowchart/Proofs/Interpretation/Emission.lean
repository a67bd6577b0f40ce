import Flowchart.Interpretation.Run
import Flowchart.Proofs.Concat
import Flowchart.Proofs.Node
import Flowchart.Proofs.Placement.Found

/-!
# What a line adds

`emit_eq_ok` says all that is known of a node that was added: which node was proposed, among which nodes its place
was sought, and how the state has changed. A line adds at most one node (`step_nodes`).
-/

namespace Flowchart.Interpretation

open Placement (Board placeAmong)

variable {α : Type}

variable [Scalar α]

/-- The node that is proposed for a place, in the innermost open container. -/
def proposal (s : State α) (kind : NodeKind) (text : String) (p : Point α) : Node α :=
  Node.withSomeHook
    ⟨(s.freshId .node).1, .known kind, ⟨p.x, p.y, kind.width, nodeHeight⟩, text,
      Reference.ofName? (s.drafts.head?.map (·.id)), []⟩

/-- A node at the place that was found for it, unless it lies there already. -/
def settled (n : Node α) (place : Point α) : Node α :=
  if place.same n.position then n else n.movedTo place

@[simp] theorem settled_id (n : Node α) (p : Point α) : (settled n p).id = n.id := by
  unfold settled; split <;> rfl

@[simp] theorem settled_kind (n : Node α) (p : Point α) : (settled n p).kind = n.kind := by
  unfold settled; split <;> rfl

@[simp] theorem settled_text (n : Node α) (p : Point α) : (settled n p).text = n.text := by
  unfold settled; split <;> rfl

@[simp] theorem settled_container (n : Node α) (p : Point α) : (settled n p).container = n.container := by
  unfold settled; split <;> rfl

@[simp] theorem settled_position (n : Node α) : settled n n.position = n := by
  unfold settled; split <;> rfl

@[simp] theorem proposal_position (s : State α) (kind : NodeKind) (text : String) (p : Point α) :
    (proposal s kind text p).position = p := by
  unfold proposal Node.position
  rw [Node.withSomeHook_rect]
  rfl

/-- The state in which a node enters the chain: every node but a decision has closed the innermost decision. -/
def entering (s : State α) (kind : NodeKind) : State α :=
  if kind = .decision then s else { s with decisions := s.decisions.drop 1 }

omit [Scalar α] in
@[simp] theorem entering_nodes (s : State α) (kind : NodeKind) : (entering s kind).nodes = s.nodes := by
  unfold entering; split <;> rfl

omit [Scalar α] in
@[simp] theorem entering_last (s : State α) (kind : NodeKind) : (entering s kind).last = s.last := by
  unfold entering; split <;> rfl

omit [Scalar α] in
@[simp] theorem entering_drafts (s : State α) (kind : NodeKind) : (entering s kind).drafts = s.drafts := by
  unfold entering; split <;> rfl

omit [Scalar α] in
@[simp] theorem entering_opened (s : State α) (kind : NodeKind) : (entering s kind).opened = s.opened := by
  unfold entering; split <;> rfl

/-- The state in which a node has been linked with the node before it in the chain, if there is one. -/
def linked (s : State α) (previous : Option (Node α)) (n : Node α) : State α :=
  match previous with
  | some p => connect s p.id n.id
  | none => s

@[simp] theorem linked_nodes (s : State α) (previous : Option (Node α)) (n : Node α) :
    (linked s previous n).nodes = s.nodes := by
  unfold linked; split <;> rfl

@[simp] theorem linked_decisions (s : State α) (previous : Option (Node α)) (n : Node α) :
    (linked s previous n).decisions = s.decisions := by
  unfold linked; split <;> rfl

@[simp] theorem linked_drafts (s : State α) (previous : Option (Node α)) (n : Node α) :
    (linked s previous n).drafts = s.drafts := by
  unfold linked; split <;> rfl

@[simp] theorem linked_opened (s : State α) (previous : Option (Node α)) (n : Node α) :
    (linked s previous n).opened = s.opened := by
  unfold linked; split <;> rfl

/-- The state in which the chain ends with a node. -/
def endingWith (ctx : Context α) (s : State α) (kind : NodeKind) (n : Node α) : State α :=
  { s with
    last := some n.id
    decisions := if kind = .decision then ⟨n.id, n.position⟩ :: s.decisions else s.decisions
    cursor :=
      if kind = .decision then n.position
      else ⟨n.rect.x + ctx.settings.horizontalSpacing, n.rect.y⟩ }

/-! ### What has happened -/

variable [Trigonometry α] {ctx : Context α} {s s' : State α}

/-- The proposed node is checked and settled at the place that is found for it among all nodes before it. -/
theorem emit_eq (ctx : Context α) (s : State α) (kind : NodeKind) (text : String) (p : Point α)
    (anchor : Option (Node α)) :
    emit ctx s kind text p anchor = (do
      let n ← (proposal s kind text p).make
      let place ← numeric (placeAmong ctx.settings.placement (ctx.existing ++ s.nodes) n anchor)
      .ok (settled n place, { (s.freshId .node).2 with
        nodes := s.nodes ++ [settled n place], drafts := enlist (s.freshId .node).1 s.drafts })) := by
  unfold proposal
  rw [Node.make_withSomeHook]
  simp only [placeAmong, numeric_bind, bind_assoc]
  rfl

/-- A node was added: it is the proposed one, settled at the place that was found among all nodes before it. -/
theorem emit_eq_ok {kind : NodeKind} {text : String} {p : Point α} {anchor : Option (Node α)} {n : Node α}
    (h : emit ctx s kind text p anchor = .ok (n, s')) :
    (∃ b place, Board.ofNodes ctx.settings.placement (ctx.existing ++ s.nodes) = .ok b ∧
      b.resolve (proposal s kind text p) anchor = .ok place ∧ n = settled (proposal s kind text p) place) ∧
    s' = { (s.freshId .node).2 with
      nodes := s.nodes ++ [n], drafts := enlist (s.freshId .node).1 s.drafts } := by
  unfold emit at h
  obtain ⟨candidate, hmake, h⟩ := bind_eq_ok.1 h
  obtain ⟨b, hb, h⟩ := bind_eq_ok.1 h
  obtain ⟨place, hplace, h⟩ := bind_eq_ok.1 h
  obtain rfl : candidate = proposal s kind text p := (Node.make_eq_ok.1 hmake).2
  obtain ⟨rfl, rfl⟩ := Prod.mk.inj (Except.ok.inj h)
  exact ⟨⟨b, place, numeric_eq_ok.1 hb, numeric_eq_ok.1 hplace, rfl⟩, rfl⟩

/-- A node stays where it is proposed if that place is free. -/
theorem emit_of_isFree [StandardSizes α] {kind : NodeKind} {text : String} {p : Point α} {anchor : Option (Node α)}
    {b : Board α} (hb : Board.ofNodes ctx.settings.placement (ctx.existing ++ s.nodes) = .ok b)
    (hfree : b.isFree p (proposal s kind text p) = true) :
    emit ctx s kind text p anchor = .ok (proposal s kind text p,
      { (s.freshId .node).2 with
        nodes := s.nodes ++ [proposal s kind text p], drafts := enlist (s.freshId .node).1 s.drafts }) := by
  have hmake : (proposal s kind text p).make = .ok (proposal s kind text p) :=
    (Node.sound_of_defaults kind rfl rfl rfl).make_eq
  have hplace : placeAmong ctx.settings.placement (ctx.existing ++ s.nodes) (proposal s kind text p) anchor =
      .ok (proposal s kind text p).position := by
    unfold placeAmong Board.resolve Board.resolveSpot
    rw [hb, proposal_position]
    simp only [bind, Except.bind, hfree, ↓reduceIte]
    rfl
  rw [emit_eq, hmake]
  simp only [bind, Except.bind, hplace, numeric, settled_position]

/-- A node that enters the chain is added, linked with the one before it, and ends the chain. -/
theorem placeInSequence_eq (ctx : Context α) (s : State α) (kind : NodeKind) (text : String) :
    placeInSequence ctx s kind text =
      (emit ctx (entering s kind) kind text s.cursor (s.last.bind (nodeWithId? s.nodes))).map fun (n, s₁) =>
        endingWith ctx (linked s₁ (s.last.bind (nodeWithId? s.nodes)) n) kind n := by
  unfold placeInSequence entering endingWith
  by_cases hk : kind = .decision
  · simp only [hk, ↓reduceIte]
    cases emit ctx s .decision text s.cursor (s.last.bind (nodeWithId? s.nodes)) <;> rfl
  · simp only [hk, ↓reduceIte]
    cases emit ctx { s with decisions := s.decisions.drop 1 } kind text s.cursor
      (s.last.bind (nodeWithId? s.nodes)) <;> rfl

/-- A node has entered the chain. -/
theorem placeInSequence_eq_ok {kind : NodeKind} {text : String}
    (h : placeInSequence ctx s kind text = .ok s') :
    ∃ n s₁, emit ctx (entering s kind) kind text s.cursor (s.last.bind (nodeWithId? s.nodes)) = .ok (n, s₁) ∧
      s' = endingWith ctx (linked s₁ (s.last.bind (nodeWithId? s.nodes)) n) kind n := by
  rw [placeInSequence_eq] at h
  obtain ⟨⟨n, s₁⟩, hemit, hs'⟩ := exists_eq_ok_of_map h
  exact ⟨n, s₁, hemit, hs'.symm⟩

omit [Trigonometry α] in
/-- Where an answer to a decision is proposed. -/
def answerPlace (ctx : Context α) (d : OpenDecision α) : Outline.Answer → Point α
  | .yes => ⟨d.position.x + ctx.settings.horizontalSpacing, d.position.y⟩
  | .no => ⟨d.position.x + ctx.settings.horizontalSpacing, d.position.y + ctx.settings.verticalSpacing⟩

/-- An answer is added and connected with its decision. -/
theorem placeAnswer_eq (ctx : Context α) (s : State α) (d : OpenDecision α) (a : Outline.Answer) (text : String) :
    placeAnswer ctx s d a text =
      (emit ctx s .process text (answerPlace ctx d a) (nodeWithId? s.nodes d.nodeId)).map fun (n, s₁) =>
        connectAnswer s₁ d.nodeId n.id a.variant (some a.label) := by
  have hlabel : placeAnswer ctx s d a text =
      (do let (n, s₁) ← emit ctx s .process text (answerPlace ctx d a) (nodeWithId? s.nodes d.nodeId)
          .ok (connectAnswer s₁ d.nodeId n.id a.variant (some a.label))) := by
    cases a <;> rfl
  rw [hlabel]
  cases emit ctx s .process text (answerPlace ctx d a) (nodeWithId? s.nodes d.nodeId) <;> rfl

/-- An answer was added and connected with its decision. -/
theorem placeAnswer_eq_ok {d : OpenDecision α} {a : Outline.Answer} {text : String}
    (h : placeAnswer ctx s d a text = .ok s') :
    ∃ p n s₁, emit ctx s .process text p (nodeWithId? s.nodes d.nodeId) = .ok (n, s₁) ∧
      s' = connectAnswer s₁ d.nodeId n.id a.variant (some a.label) := by
  rw [placeAnswer_eq] at h
  obtain ⟨⟨n, s₁⟩, hemit, hs'⟩ := exists_eq_ok_of_map h
  exact ⟨_, n, s₁, hemit, hs'.symm⟩

omit [Trigonometry α] in
/-- A container was closed: it has become what its draft was, around the members that were found for it. -/
theorem closeContainer_eq_ok (h : closeContainer ctx s = .ok s') :
    ∃ d ds nodes children c, s.drafts = d :: ds ∧
      d.nodeIds.mapM (requireNode s.nodes) = .ok nodes ∧ d.children.mapM (closedContainer s) = .ok children ∧
      c = (finished d).around ctx.settings.containerMargin (nodes.map (·.rect) ++ children.map (·.rect)) ∧
      s' = { s with
        drafts := ds
        closed := s.closed ++ [c]
        cursor := ⟨c.rect.x + c.rect.width + ctx.settings.containerMargin, d.resumeY⟩ } := by
  unfold closeContainer at h
  split at h
  · cases h
  · next d ds hd =>
    obtain ⟨nodes, hnodes, h⟩ := bind_eq_ok.1 h
    obtain ⟨children, hchildren, h⟩ := bind_eq_ok.1 h
    exact ⟨d, ds, nodes, children, _, hd, hnodes, hchildren, rfl, (Except.ok.inj h).symm⟩

omit [Trigonometry α] in
theorem closeContainer_drafts (h : closeContainer ctx s = .ok s') : s.drafts.length = s'.drafts.length + 1 := by
  obtain ⟨d, ds, nodes, children, c, hd, -, -, -, rfl⟩ := closeContainer_eq_ok h
  rw [hd]
  rfl

/-- What taking up a line comes to. -/
inductive Outcome (ctx : Context α) (s : State α) : Outline.Content → State α → Prop
  | nothing : Outcome ctx s .nothing s
  | opening (name : String) : Outcome ctx s (.opening name) (openContainer ctx s name)
  | idle : s.drafts = [] → Outcome ctx s .closing s
  | closing {s' : State α} : closeContainer ctx s = .ok s' → Outcome ctx s .closing s'
  | chain {kind : NodeKind} {text : String} {s' : State α} :
      placeInSequence ctx s kind text = .ok s' → Outcome ctx s (.node kind text) s'
  | answer {a : Outline.Answer} {text : String} {d : OpenDecision α} {ds : List (OpenDecision α)} {s' : State α} :
      s.decisions = d :: ds → placeAnswer ctx s d a text = .ok s' → Outcome ctx s (.answer a text) s'
  | stray {a : Outline.Answer} {text : String} {s' : State α} :
      s.decisions = [] → placeInSequence ctx s .process text = .ok s' → Outcome ctx s (.answer a text) s'

theorem outcome_of_step {c : Outline.Content} (h : step ctx s c = .ok s') : Outcome ctx s c s' := by
  cases c with
  | nothing => cases h; exact .nothing
  | opening name => cases h; exact .opening name
  | closing =>
    simp only [step] at h
    split at h
    · next hd => cases h; exact .idle (List.isEmpty_iff.1 hd)
    · exact .closing h
  | node kind text => exact .chain h
  | answer a text =>
    simp only [step] at h
    split at h
    · next d ds hd => exact .answer hd h
    · next hd => exact .stray hd h

/-- A chart is that of the state to which the lines lead, when all its containers have been closed. -/
theorem interpretContents_eq_ok {cs : List Outline.Content} {g : Graph α} :
    interpretContents ctx cs = .ok g ↔
      (∃ b, Board.ofNodes ctx.settings.placement ctx.existing = .ok b) ∧
        ∃ s s', cs.foldlM (step ctx) (.initial ctx.settings ctx.existing) = .ok s ∧
          closeAll ctx s.drafts.length s = .ok s' ∧ chart s' = .ok g := by
  unfold interpretContents
  simp only [bind_eq_ok, numeric_eq_ok]
  constructor
  · rintro ⟨b, hb, s, hs, s', hs', hg⟩
    exact ⟨⟨b, hb⟩, s, s', hs, hs', hg⟩
  · rintro ⟨⟨b, hb⟩, s, s', hs, hs', hg⟩
    exact ⟨b, hb, s, hs, s', hs', hg⟩

/-- The nodes after a line: the same as before, or one more that was added among them. -/
theorem step_nodes {c : Outline.Content} (h : step ctx s c = .ok s') :
    s'.nodes = s.nodes ∨ ∃ s₀ kind text p anchor n s₁, s₀.nodes = s.nodes ∧
      emit ctx s₀ kind text p anchor = .ok (n, s₁) ∧ s'.nodes = s.nodes ++ [n] := by
  have hchain : ∀ {kind text}, placeInSequence ctx s kind text = .ok s' →
      ∃ s₀ kind text p anchor n s₁, s₀.nodes = s.nodes ∧
        emit ctx s₀ kind text p anchor = .ok (n, s₁) ∧ s'.nodes = s.nodes ++ [n] := by
    intro kind text h
    obtain ⟨n, s₁, hemit, rfl⟩ := placeInSequence_eq_ok h
    refine ⟨_, kind, text, _, _, n, s₁, entering_nodes s kind, hemit, ?_⟩
    obtain ⟨-, rfl⟩ := emit_eq_ok hemit
    simp [endingWith]
  cases outcome_of_step h with
  | nothing => exact .inl rfl
  | opening name => exact .inl rfl
  | idle _ => exact .inl rfl
  | closing h =>
    obtain ⟨d, ds, nodes, children, c, -, -, -, -, rfl⟩ := closeContainer_eq_ok h
    exact .inl rfl
  | chain h => exact .inr (hchain h)
  | stray _ h => exact .inr (hchain h)
  | @answer a text d ds _ _ h =>
    obtain ⟨p, n, s₁, hemit, rfl⟩ := placeAnswer_eq_ok h
    refine .inr ⟨s, .process, text, p, _, n, s₁, rfl, hemit, ?_⟩
    obtain ⟨-, rfl⟩ := emit_eq_ok hemit
    rfl

end Flowchart.Interpretation
