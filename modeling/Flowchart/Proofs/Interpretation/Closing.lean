import Flowchart.Proofs.Interpretation.Continuing
import Flowchart.Proofs.Interpretation.Rendering

/-!
# Containers can be closed

The containers that are open lie inside each other, and a container is closed before the one around it is. So all
members of the innermost open container are found when it is closed: closing never fails in a state that has been
reached by taking up lines (`Renders.exists_closeAll`), and in the end there is a chart (`Renders.exists_chart`).
It shows what the state holds (`chart_eq_ok`).
-/

namespace Flowchart.Interpretation

open Outline (Content)

namespace Sketch

/-- A container lies in an earlier one, and each open container lies in the next one that is open. -/
structure Stacked (k : Sketch) : Prop where
  parent_lt : ∀ (j : Nat) (f : Frame), k.frames[j]? = some f → ∀ i, f.parent = some i → i < j
  open_parent : ∀ (n j : Nat), k.openFrames[n]? = some j →
    ∃ f, k.frames[j]? = some f ∧ f.parent = k.openFrames[n + 1]?

theorem Stacked.closeFrame {k : Sketch} (h : k.Stacked) : k.closeFrame.Stacked where
  parent_lt := h.parent_lt
  open_parent n j hj := by
    simp only [Sketch.closeFrame, List.getElem?_drop] at hj ⊢
    rw [Nat.add_comm] at hj
    obtain ⟨f, hf, hparent⟩ := h.open_parent (n + 1) j hj
    exact ⟨f, hf, hparent.trans (by rw [Nat.add_comm 1])⟩

theorem Stacked.openFrame {k : Sketch} (h : k.Stacked) (hk : k.Framed) (name : String) :
    (k.openFrame name).Stacked where
  parent_lt j f hf i hi := by
    rcases getElem?_concat_eq_some.1 hf with hf | ⟨rfl, rfl⟩
    · exact h.parent_lt j f hf i hi
    · exact hk.open_lt i (List.mem_of_mem_head? hi)
  open_parent n j hj := by
    cases n with
    | zero =>
      obtain rfl := Option.some.inj hj
      refine ⟨_, List.getElem?_concat_length, ?_⟩
      exact List.head?_eq_getElem?
    | succ n =>
      obtain ⟨f, hf, hparent⟩ := h.open_parent n j hj
      refine ⟨f, ?_, hparent⟩
      exact (List.getElem?_append_left (List.getElem?_eq_some_iff.1 hf).1).trans hf

theorem Stacked.step {k : Sketch} (h : k.Stacked) (hk : k.Framed) (c : Content) : (k.step c).Stacked := by
  rcases k.step_frames c with ⟨name, -, hc⟩ | ⟨-, hc⟩ | ⟨hf, ho, -⟩
  · rw [hc]
    exact h.openFrame hk name
  · rw [hc]
    exact h.closeFrame
  · exact ⟨by rw [hf]; exact h.parent_lt, by rw [hf, ho]; exact h.open_parent⟩

theorem stacked_ofContents (cs : List Content) : (ofContents cs).Stacked := by
  induction cs using List.reverseRecOn with
  | nil => exact ⟨fun j f hf => (by cases hf), fun n j hj => (by cases hj)⟩
  | append_singleton cs c ih => rw [ofContents_concat]; exact ih.step (framed_ofContents cs) c

theorem mem_children {k : Sketch} {i j : Nat} :
    i ∈ k.children j ↔ ∃ f, k.frames[i]? = some f ∧ f.parent = some j := by
  simp [children, List.mem_zipIdx_iff_getElem?]

theorem lt_of_mem_members {k : Sketch} {i j : Nat} (h : i ∈ k.members j) : i < k.entries.length := by
  simp only [members, List.mem_map, List.mem_filter] at h
  obtain ⟨⟨e, i⟩, ⟨he, -⟩, rfl⟩ := h
  exact (List.getElem?_eq_some_iff.1 (List.mk_mem_zipIdx_iff_getElem?.1 he)).1

/-- The containers inside the innermost open one are closed. -/
theorem Stacked.child_closed {k : Sketch} (h : k.Stacked) (hk : k.Framed) {i j : Nat}
    (hj : k.openFrames[0]? = some j) (hi : i ∈ k.children j) : i < k.frames.length ∧ i ∉ k.openFrames := by
  obtain ⟨f, hf, hparent⟩ := mem_children.1 hi
  refine ⟨(List.getElem?_eq_some_iff.1 hf).1, fun hopen => ?_⟩
  obtain ⟨n, hn⟩ := List.mem_iff_getElem?.1 hopen
  obtain ⟨f', hf', hnext⟩ := h.open_parent n i hn
  obtain rfl : f = f' := Option.some.inj (hf.symm.trans hf')
  -- then `j` would lie further out than itself
  obtain ⟨h₀, hj⟩ := List.getElem?_eq_some_iff.1 hj
  obtain ⟨h₁, hj'⟩ := List.getElem?_eq_some_iff.1 (hnext.symm.trans hparent)
  have := List.pairwise_iff_getElem.1 hk.open_falls 0 (n + 1) h₀ h₁ (by omega)
  omega

end Sketch

section Charts

variable {α : Type} {s : State α} {g : Graph α}

theorem closedContainer_eq_ok {id : String} {c : Container α} :
    closedContainer s id = .ok c ↔ s.closed.find? (·.id = id) = some c := by
  unfold closedContainer
  split <;> simp [*]

theorem closedContainer_id {id : String} {c : Container α} (h : closedContainer s id = .ok c) : c.id = id := by
  simpa using List.find?_some (closedContainer_eq_ok.1 h)

/-- A container that is closed is found ever after. -/
theorem Continues.closedContainer {s' : State α} (h : Continues s s') {id : String} {c : Container α}
    (hc : closedContainer s id = .ok c) : closedContainer s' id = .ok c := by
  rw [closedContainer_eq_ok] at hc ⊢
  obtain ⟨later, hlater⟩ := h.closed
  rw [← hlater, List.find?_append, hc, Option.some_or]

/-- A chart shows what the state holds, the closed containers in the order in which they were opened. -/
theorem chart_eq_ok (h : chart s = .ok g) :
    g.nodes = s.nodes ∧ g.connections = s.connections ∧ g.containers.map (·.id) = s.opened ∧
      ∀ c ∈ g.containers, closedContainer s c.id = .ok c := by
  obtain ⟨containers, hcontainers, h⟩ := bind_eq_ok.1 h
  cases h
  rw [mapM_eq_ok] at hcontainers
  have hids : containers.map (·.id) = s.opened := by
    rw [← List.forall₂_eq_eq_eq, List.forall₂_map_left_iff]
    exact (hcontainers.imp fun _ _ => closedContainer_id).flip
  rw [← hids, List.forall₂_map_left_iff, List.forall₂_same] at hcontainers
  exact ⟨rfl, rfl, hids, hcontainers⟩

/-- A container has the place in the chart at which it was opened. -/
theorem getElem?_containers_of_chart (h : chart s = .ok g) {j : Nat} {id : String} {c : Container α}
    (hj : s.opened[j]? = some id) (hc : closedContainer s id = .ok c) : g.containers[j]? = some c := by
  obtain ⟨-, -, hids, hcontainers⟩ := chart_eq_ok h
  rw [← hids, List.getElem?_map] at hj
  obtain ⟨d, hd, rfl⟩ := Option.map_eq_some_iff.1 hj
  have hsame := hcontainers d (List.mem_of_getElem? hd)
  rw [hc] at hsame
  rw [hd, Except.ok.inj hsame]

end Charts

variable {α : Type} [Scalar α] {base : List String} {k : Sketch} {s : State α}

namespace Renders

theorem exists_requireNode (h : Renders base k s) {i : Nat} (hi : i < k.entries.length) :
    ∃ n, requireNode s.nodes (Part.nthId base .node i) = .ok n := by
  obtain ⟨n, hn, -⟩ := Option.map_eq_some_iff.1 (h.nodeWithId?_id hi)
  exact ⟨n, by rw [requireNode, hn]⟩

theorem exists_closedContainer (h : Renders base k s) {i : Nat} (hi : i < k.frames.length)
    (hopen : i ∉ k.openFrames) :
    ∃ c, closedContainer s (Part.nthId base .container i) = .ok c := by
  obtain ⟨c, hc, -⟩ := h.closed i hi hopen
  exact ⟨c, by rw [closedContainer, hc]⟩

/-- The innermost open container can be closed. -/
theorem exists_closeContainer (h : Renders base k s) (hk : k.Framed) (hstacked : k.Stacked) (ctx : Context α)
    (hdrafts : s.drafts ≠ []) : ∃ s', Interpretation.closeContainer ctx s = .ok s' := by
  obtain ⟨d, ds, hd⟩ := List.exists_cons_of_ne_nil hdrafts
  have hrosters := h.drafts
  rw [hd] at hrosters
  obtain ⟨j, js, hj, -, hjs⟩ := List.forall₂_cons_right_iff.1 hrosters
  obtain ⟨f, -, hroster⟩ := Option.map_eq_some_iff.1 hj
  have hnodeIds : d.nodeIds = (k.members j).map (Part.nthId base .node) := (congrArg Roster.nodeIds hroster).symm
  have hchildren : d.children = (k.children j).map (Part.nthId base .container) :=
    (congrArg Roster.children hroster).symm
  obtain ⟨nodes, hnodes⟩ : ∃ nodes, d.nodeIds.mapM (requireNode s.nodes) = .ok nodes := by
    refine exists_mapM_eq_ok fun id hid => ?_
    rw [hnodeIds] at hid
    obtain ⟨i, hi, rfl⟩ := List.mem_map.1 hid
    exact h.exists_requireNode (Sketch.lt_of_mem_members hi)
  obtain ⟨inner, hinner⟩ : ∃ inner, d.children.mapM (closedContainer s) = .ok inner := by
    refine exists_mapM_eq_ok fun id hid => ?_
    rw [hchildren] at hid
    obtain ⟨i, hi, rfl⟩ := List.mem_map.1 hid
    obtain ⟨hlt, hopen⟩ := hstacked.child_closed hk (by rw [hjs]; rfl) hi
    exact h.exists_closedContainer hlt hopen
  unfold Interpretation.closeContainer
  rw [hd]
  exact ⟨_, bind_eq_ok.2 ⟨nodes, hnodes, bind_eq_ok.2 ⟨inner, hinner, rfl⟩⟩⟩

theorem exists_closeAll {n : Nat} (h : Renders base k s) (hk : k.Framed) (hstacked : k.Stacked)
    (ctx : Context α) (hn : n ≤ s.drafts.length) : ∃ s', Interpretation.closeAll ctx n s = .ok s' := by
  induction n generalizing k s with
  | zero => exact ⟨s, rfl⟩
  | succ n ih =>
    have hdrafts : s.drafts ≠ [] := List.ne_nil_of_length_pos (by omega)
    obtain ⟨s₁, hs₁⟩ := h.exists_closeContainer hk hstacked ctx hdrafts
    have hlength := closeContainer_drafts hs₁
    obtain ⟨s', hs'⟩ := ih (h.closeContainer hk hs₁) hk.closeFrame hstacked.closeFrame (by omega)
    exact ⟨s', bind_eq_ok.2 ⟨s₁, hs₁, hs'⟩⟩

/-- When all containers have been closed, there is a chart. -/
theorem exists_chart (h : Renders base k s) (hk : k.Framed) (hstacked : k.Stacked) (ctx : Context α) :
    ∃ s' g, Interpretation.closeAll ctx s.drafts.length s = .ok s' ∧ chart s' = .ok g := by
  obtain ⟨s', hs'⟩ := h.exists_closeAll hk hstacked ctx (Nat.le_refl _)
  have hs := h.closeAll hk hs'
  have hopen : k.openFrames.drop s.drafts.length = [] := by rw [← h.drafts.length_eq, List.drop_length]
  obtain ⟨containers, hcontainers⟩ : ∃ containers, s'.opened.mapM (closedContainer s') = .ok containers := by
    refine exists_mapM_eq_ok fun id hid => ?_
    rw [hs.opened] at hid
    obtain ⟨i, hi, rfl⟩ := List.mem_map.1 hid
    exact hs.exists_closedContainer (List.mem_range.1 hi) (by rw [hopen]; exact List.not_mem_nil)
  exact ⟨s', _, hs', bind_eq_ok.2 ⟨containers, hcontainers, rfl⟩⟩

end Renders

end Flowchart.Interpretation
