import Flowchart.Proofs.Interpretation.Emission

/-!
# Going on

Taking up lines and closing containers only adds to a chart. The nodes, the connections and the closed containers
that are there stay as they are, and what is new comes behind them (`run_continues`, `closeAll_continues`).
-/

namespace Flowchart.Interpretation

variable {α : Type}

/-- The second state goes on from the first one. -/
structure Continues (s s' : State α) : Prop where
  nodes : s.nodes <+: s'.nodes
  connections : s.connections <+: s'.connections
  opened : s.opened <+: s'.opened
  closed : s.closed <+: s'.closed

namespace Continues

variable {s t u : State α}

theorem refl (s : State α) : Continues s s :=
  ⟨List.prefix_rfl, List.prefix_rfl, List.prefix_rfl, List.prefix_rfl⟩

theorem trans (h : Continues s t) (h' : Continues t u) : Continues s u :=
  ⟨h.nodes.trans h'.nodes, h.connections.trans h'.connections, h.opened.trans h'.opened,
    h.closed.trans h'.closed⟩

end Continues

variable [Scalar α] {ctx : Context α} {s s' : State α}

omit [Scalar α] in
@[simp] theorem entering_closed (s : State α) (kind : NodeKind) : (entering s kind).closed = s.closed := by
  unfold entering; split <;> rfl

@[simp] theorem linked_closed (s : State α) (previous : Option (Node α)) (n : Node α) :
    (linked s previous n).closed = s.closed := by
  unfold linked; split <;> rfl

omit [Scalar α] in
theorem entering_continues (s : State α) (kind : NodeKind) : Continues s (entering s kind) := by
  unfold entering
  split
  · exact .refl s
  · exact ⟨List.prefix_rfl, List.prefix_rfl, List.prefix_rfl, List.prefix_rfl⟩

theorem linked_continues (s : State α) (previous : Option (Node α)) (n : Node α) :
    Continues s (linked s previous n) := by
  unfold linked
  split
  · exact ⟨List.prefix_rfl, List.prefix_append _ _, List.prefix_rfl, List.prefix_rfl⟩
  · exact .refl s

theorem openContainer_continues (ctx : Context α) (s : State α) (name : String) :
    Continues s (openContainer ctx s name) :=
  ⟨List.prefix_rfl, List.prefix_rfl, List.prefix_append _ _, List.prefix_rfl⟩

theorem closeContainer_continues (h : closeContainer ctx s = .ok s') : Continues s s' := by
  obtain ⟨d, ds, nodes, children, c, -, -, -, -, rfl⟩ := closeContainer_eq_ok h
  exact ⟨List.prefix_rfl, List.prefix_rfl, List.prefix_rfl, List.prefix_append _ _⟩

/-- Closing containers changes neither the nodes nor the connections, and opens nothing. -/
theorem closeAll_keeps {count : Nat} (h : closeAll ctx count s = .ok s') :
    s'.nodes = s.nodes ∧ s'.connections = s.connections ∧ s'.opened = s.opened := by
  induction count generalizing s with
  | zero =>
    cases h
    exact ⟨rfl, rfl, rfl⟩
  | succ count ih =>
    obtain ⟨s₁, hs₁, h⟩ := bind_eq_ok.1 h
    obtain ⟨d, ds, nodes, children, c, -, -, -, -, rfl⟩ := closeContainer_eq_ok hs₁
    have hrest := ih h
    exact hrest

theorem closeAll_continues {count : Nat} (h : closeAll ctx count s = .ok s') : Continues s s' := by
  induction count generalizing s with
  | zero =>
    cases h
    exact .refl _
  | succ count ih =>
    obtain ⟨s₁, hs₁, h⟩ := bind_eq_ok.1 h
    exact (closeContainer_continues hs₁).trans (ih h)

variable [Trigonometry α]

theorem emit_continues {kind : NodeKind} {text : String} {p : Point α} {anchor : Option (Node α)} {n : Node α}
    (h : emit ctx s kind text p anchor = .ok (n, s')) : Continues s s' := by
  obtain ⟨-, rfl⟩ := emit_eq_ok h
  exact ⟨List.prefix_append _ _, List.prefix_rfl, List.prefix_rfl, List.prefix_rfl⟩

theorem placeInSequence_continues {kind : NodeKind} {text : String}
    (h : placeInSequence ctx s kind text = .ok s') : Continues s s' := by
  obtain ⟨n, s₁, hemit, rfl⟩ := placeInSequence_eq_ok h
  have hlinked := linked_continues s₁ (s.last.bind (nodeWithId? s.nodes)) n
  exact ((entering_continues s kind).trans (emit_continues hemit)).trans
    ⟨hlinked.nodes, hlinked.connections, hlinked.opened, hlinked.closed⟩

theorem placeAnswer_continues {d : OpenDecision α} {a : Outline.Answer} {text : String}
    (h : placeAnswer ctx s d a text = .ok s') : Continues s s' := by
  obtain ⟨p, n, s₁, hemit, rfl⟩ := placeAnswer_eq_ok h
  exact (emit_continues hemit).trans
    ⟨List.prefix_rfl, List.prefix_append _ _, List.prefix_rfl, List.prefix_rfl⟩

theorem step_continues {c : Outline.Content} (h : step ctx s c = .ok s') : Continues s s' := by
  cases outcome_of_step h with
  | nothing => exact .refl s
  | opening name => exact openContainer_continues ctx s name
  | idle _ => exact .refl s
  | closing h => exact closeContainer_continues h
  | chain h => exact placeInSequence_continues h
  | answer _ h => exact placeAnswer_continues h
  | stray _ h => exact placeInSequence_continues h

theorem run_continues {cs : List Outline.Content} (h : cs.foldlM (step ctx) s = .ok s') : Continues s s' :=
  foldlM_keeps (fun _ _ _ hs hstep => hs.trans (step_continues hstep)) (.refl s) h

/-- A line closes a container, or leaves the closed containers as they are. -/
theorem step_closed {c : Outline.Content} (h : step ctx s c = .ok s') :
    s'.closed = s.closed ∨ closeContainer ctx s = .ok s' := by
  have hchain : ∀ {kind text}, placeInSequence ctx s kind text = .ok s' → s'.closed = s.closed := by
    intro kind text h
    obtain ⟨n, s₁, hemit, rfl⟩ := placeInSequence_eq_ok h
    obtain ⟨-, rfl⟩ := emit_eq_ok hemit
    rw [endingWith, linked_closed]
    exact entering_closed s kind
  cases outcome_of_step h with
  | nothing => exact .inl rfl
  | opening name => exact .inl rfl
  | idle _ => exact .inl rfl
  | closing h => exact .inr h
  | chain h => exact .inl (hchain h)
  | stray _ h => exact .inl (hchain h)
  | answer _ h =>
    obtain ⟨p, n, s₁, hemit, rfl⟩ := placeAnswer_eq_ok h
    obtain ⟨-, rfl⟩ := emit_eq_ok hemit
    exact .inl rfl

end Flowchart.Interpretation
