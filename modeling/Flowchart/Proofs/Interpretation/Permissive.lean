import Flowchart.Proofs.Interpretation.Fitted
import Flowchart.Proofs.Node
import Flowchart.Proofs.Placement.Failing

/-!
# Outlines are always understood

No outline is refused. Whatever its lines say, all members of a container are found when it is closed, no container
is closed that is not open, and every node passes the checks that are made when it is built. So an interpretation
fails only where a placement does (`interpret_permissive`), and with exact numbers it has a chart for every outline.

`Renders.placementFault_of_step` is the case of one line: a state that has been reached by taking up lines goes on
with any other line, or there is no place for the node of that line.
-/

namespace Flowchart

open Placement (Unplaceable RoundsBack)

variable {α : Type} [Scalar α]

namespace Interpretation

open Outline (Content)

section Sound

variable [StandardSizes α] [Trigonometry α] {ctx : Context α} {s s' : State α}

/-- A node that was added is sound wherever it has been moved to. -/
theorem sound_of_emit {kind : NodeKind} {text : String} {p : Point α} {anchor : Option (Node α)} {n : Node α}
    (h : emit ctx s kind text p anchor = .ok (n, s')) : n.Sound := by
  obtain ⟨⟨b, place, -, -, rfl⟩, -⟩ := emit_eq_ok h
  unfold settled
  split <;> exact Node.sound_of_defaults kind rfl rfl rfl

theorem sound_of_run {cs : List Content} (h : cs.foldlM (step ctx) (.initial ctx.settings ctx.existing) = .ok s) :
    ∀ n ∈ s.nodes, n.Sound := by
  refine foldlM_keeps (p := fun s : State α => ∀ n ∈ s.nodes, n.Sound) ?_ ?_ h
  · intro s c s' hs hc n hn
    rcases step_nodes hc with hsame | ⟨s₀, kind, text, p, anchor, m, s₁, -, hemit, hnodes⟩
    · exact hs n (hsame ▸ hn)
    · rw [hnodes] at hn
      rcases List.mem_append.1 hn with hn | hn
      · exact hs n hn
      · obtain rfl := List.mem_singleton.1 hn
        exact sound_of_emit hemit
  · intro n hn
    cases hn

end Sound

/-- The fault of a node for which there is no place among those of a state. -/
def PlacementFault (ctx : Context α) (s : State α) (e : Fault α) : Prop :=
  ∃ cause, e = .number cause ∧ Unplaceable ctx.settings.placement (ctx.existing ++ s.nodes) cause

variable [RoundsBack α] [StandardSizes α] [Trigonometry α] {ctx : Context α} {s : State α} {e : Fault α}

theorem placementFault_of_emit {kind : NodeKind} {text : String} {p : Point α} {anchor : Option (Node α)}
    (h : emit ctx s kind text p anchor = .error e) : PlacementFault ctx s e := by
  unfold emit at h
  rcases bind_eq_error.1 h with h | ⟨candidate, -, h⟩
  · unfold Node.make at h
    rw [if_neg (not_or.2 ⟨StandardSizes.width_pos kind, StandardSizes.height_pos⟩)] at h
    cases h
  rcases bind_eq_error.1 h with h | ⟨b, hb, h⟩
  · obtain ⟨cause, rfl, hboard⟩ := numeric_eq_error.1 h
    exact ⟨cause, rfl, Placement.Board.unplaceable_of_ofNodes hboard⟩
  rcases bind_eq_error.1 h with h | ⟨place, -, h⟩
  · obtain ⟨cause, rfl, hresolve⟩ := numeric_eq_error.1 h
    obtain ⟨hconfig, -⟩ := Placement.Board.ofNodes_eq_ok (numeric_eq_ok.1 hb)
    refine ⟨cause, rfl, ?_⟩
    rw [← hconfig]
    exact Placement.Board.unplaceable_of_placesPerRing _ (Placement.Board.placesPerRing_of_resolve hresolve)
  · cases h

theorem placementFault_of_placeInSequence {kind : NodeKind} {text : String}
    (h : placeInSequence ctx s kind text = .error e) : PlacementFault ctx s e := by
  unfold placeInSequence at h
  rcases bind_eq_error.1 h with h | ⟨⟨n, s₁⟩, -, h⟩
  · have hfault := placementFault_of_emit h
    split at hfault <;> exact hfault
  · simp only at h
    split at h <;> cases h

theorem placementFault_of_placeAnswer {d : OpenDecision α} {a : Outline.Answer} {text : String}
    (h : placeAnswer ctx s d a text = .error e) : PlacementFault ctx s e := by
  unfold placeAnswer at h
  rcases bind_eq_error.1 h with h | ⟨⟨n, s₁⟩, -, h⟩
  · exact placementFault_of_emit h
  · rcases bind_eq_error.1 h with h | ⟨label, -, h⟩ <;> cases h

theorem Renders.placementFault_of_step {base : List String} {k : Sketch} (hs : Renders base k s) (hk : k.Framed)
    (hstacked : k.Stacked) {c : Content} (h : Interpretation.step ctx s c = .error e) : PlacementFault ctx s e := by
  cases c with
  | nothing => cases h
  | opening name => cases h
  | closing =>
    simp only [Interpretation.step] at h
    split at h
    · cases h
    · next hdrafts =>
      obtain ⟨s', hs'⟩ := hs.exists_closeContainer hk hstacked ctx (by simpa using hdrafts)
      rw [hs'] at h
      cases h
  | node kind text => exact placementFault_of_placeInSequence h
  | answer a text =>
    simp only [Interpretation.step] at h
    split at h
    · exact placementFault_of_placeAnswer h
    · exact placementFault_of_placeInSequence h

/-- If there is no chart, then at some line there was no place for a node. -/
theorem exists_placementFault {cs : List Content} (h : interpretContents ctx cs = .error e) :
    ∃ before s, before <+: cs ∧ before.foldlM (step ctx) (.initial ctx.settings ctx.existing) = .ok s ∧
      PlacementFault ctx s e := by
  unfold interpretContents at h
  rcases bind_eq_error.1 h with h | ⟨b, -, h⟩
  · obtain ⟨cause, rfl, hboard⟩ := numeric_eq_error.1 h
    refine ⟨[], .initial ctx.settings ctx.existing, List.nil_prefix, rfl, cause, rfl, ?_⟩
    rw [show (State.initial ctx.settings ctx.existing).nodes = [] from rfl, List.append_nil]
    exact Placement.Board.unplaceable_of_ofNodes hboard
  rcases bind_eq_error.1 h with h | ⟨s, hs, h⟩
  · obtain ⟨before, c, after, s, rfl, hs, hstep⟩ := exists_of_foldlM_eq_error h
    exact ⟨before, s, List.prefix_append before _, hs,
      (Renders.run hs).placementFault_of_step (Sketch.framed_ofContents _) (Sketch.stacked_ofContents _) hstep⟩
  · obtain ⟨s', g, hs', hg⟩ :=
      (Renders.run hs).exists_chart (Sketch.framed_ofContents _) (Sketch.stacked_ofContents _) ctx
    rw [hs'] at h
    rcases bind_eq_error.1 h with h | ⟨t, ht, h⟩
    · cases h
    · cases ht
      rw [hg] at h
      cases h

/-- An interpretation fails only at a line for whose node there is no place: where a coordinate that is counted in
grid steps, or the number of steps on a ring, is no number or infinite, or the step is zero. Until then every node is
sound. With exact coordinates only the step of zero is left, and without it every outline has a chart. -/
theorem interpret_permissive :
    (∀ (settings : Settings Float) (existing : List (Node Float)) (outline : String) (e : Fault Float),
      interpret settings existing outline = .error e →
        ∃ before s, before <+: Outline.contents settings.labelCap outline.toList ∧
          before.foldlM (step ⟨settings, existing⟩) (.initial settings existing) = .ok s ∧
            ∃ cause, e = .number cause ∧ Unplaceable settings.placement (existing ++ s.nodes) cause) ∧
    (∀ (x : Float) (cause : NumberFault), Scalar.round x = .error cause ↔ Double.Unroundable x cause) ∧
    (∀ (ctx : Context Float) (cs : List Content) (s : State Float),
      cs.foldlM (step ctx) (.initial ctx.settings ctx.existing) = .ok s → ∀ n ∈ s.nodes, n.Sound) ∧
    ∀ [Trigonometry Rat] (settings : Settings Rat) (existing : List (Node Rat)) (outline : String),
      settings.placement.angleStep ≠ 0 → ∃ g, interpret settings existing outline = .ok g := by
  refine ⟨fun settings existing outline e h => exists_placementFault h, fun x cause => Double.round_eq_error,
    fun ctx cs s h => sound_of_run h, fun settings existing outline hstep => ?_⟩
  cases h : interpret settings existing outline with
  | ok g => exact ⟨g, rfl⟩
  | error e =>
    obtain ⟨before, s, -, -, cause, -, hfault⟩ := exists_placementFault h
    cases hfault with
    | offGrid n v _ _ _ hround => cases hround
    | noStep hzero _ => exact absurd (beq_iff_eq.1 hzero) hstep
    | offRing _ hround => cases hround

/-- Beside a node that is nowhere there is no place for another one. Without it an answer to nothing has a sound
node, and with exact numbers there is a chart. -/
theorem interpret_permissive_nowhere :
    ∃ (m : Node Float) (s s' : State Float) (m' : Node Rat) (g : Graph Rat),
      m = ⟨"m", .known .process, ⟨0 / 0, 0, 200, 80⟩, "", .absent, Hook.defaults "m"⟩ ∧
        interpret Options.none.settings [m] "Sim → A" = .error (.number .notANumber) ∧
        Unplaceable (Options.none : Options Float).settings.placement ([m] ++ s.nodes) .notANumber ∧
        Double.Unroundable (0 / 0) .notANumber ∧
        step ⟨Options.none.settings, []⟩ (.initial Options.none.settings []) (.answer .yes "A") = .ok s' ∧
        (∀ n ∈ s'.nodes, n.Sound) ∧
        m' = ⟨"m", .known .process, ⟨0, 0, 200, 80⟩, "", .absent, Hook.defaults "m"⟩ ∧
        (Options.none : Options Rat).settings.placement.angleStep ≠ 0 ∧
        @interpret Rat _ horizontal Options.none.settings [m'] "Sim → A\n[Container-end]" = .ok g := by
  obtain ⟨hfails, hround, hsound, hexact⟩ := interpret_permissive
  let m : Node Float := ⟨"m", .known .process, ⟨0 / 0, 0, 200, 80⟩, "", .absent, Hook.defaults "m"⟩
  let m' : Node Rat := ⟨"m", .known .process, ⟨0, 0, 200, 80⟩, "", .absent, Hook.defaults "m"⟩
  have hrun : interpret (Options.none : Options Float).settings [m] "Sim → A" = .error (.number .notANumber) := by
    decide +kernel
  obtain ⟨before, s, -, -, cause, hcause, hnowhere⟩ := hfails _ _ _ _ hrun
  obtain rfl := Fault.number.inj hcause
  have hstep : (step ⟨(Options.none : Options Float).settings, []⟩ (.initial Options.none.settings [])
      (.answer .yes "A")).map (·.nodes.length) = .ok 1 := by decide +kernel
  obtain ⟨s', hs', -⟩ := exists_eq_ok_of_map hstep
  have hcontents : [.answer .yes "A"].foldlM (step ⟨(Options.none : Options Float).settings, []⟩)
      (.initial Options.none.settings []) = .ok s' := by
    rw [List.foldlM_cons, hs']
    rfl
  have hturn : (Options.none : Options Rat).settings.placement.angleStep ≠ 0 := by decide +kernel
  obtain ⟨g, hg⟩ := @hexact horizontal _ [m'] "Sim → A\n[Container-end]" hturn
  exact ⟨m, s, s', m', g, rfl, hrun, hnowhere, (hround _ _).1 (by decide +kernel), hs',
    hsound ⟨_, _⟩ _ s' hcontents, rfl, hturn, hg⟩

end Interpretation

end Flowchart
