import Flowchart.Proofs.Numeric.Zero
import Flowchart.Proofs.Placement.Found
import Flowchart.Proofs.Interpretation.Continuing
import Flowchart.Proofs.Interpretation.Growth

/-!
# Nodes keep clear of each other

Where overlaps are avoided, a node keeps clear of the nodes that are there already and of those added before it,
unless it lies at the last resort (`interpret_clear`). The place of a node is sought among all of these nodes
(`emitted_of_interpret`), and none of them is left out of account, since none has the id of the new node.

A node that is proposed at the place that is found for it stays where it is. The two places may differ in the
sign of a zero, which makes no difference to a rectangle that has a width and a height (`clear_of_same`).
-/

namespace Flowchart.Interpretation

open Placement (Board Clear Config)

section Emitted

variable {α : Type} [Scalar α] [Trigonometry α]

/-- A node of a standard size was settled at the place that was found for it among some others. -/
def Emitted (config : Config α) (others : List (Node α)) (n : Node α) : Prop :=
  ∃ (b : Board α) (candidate : Node α) (kind : NodeKind) (anchor : Option (Node α)) (place : Point α),
    Board.ofNodes config others = .ok b ∧ b.resolve candidate anchor = .ok place ∧
      candidate.rect.width = kind.width ∧ candidate.rect.height = nodeHeight ∧ n = settled candidate place

variable {ctx : Context α}

private theorem emitted_of_foldlM {cs : List Outline.Content} {s : State α}
    (h : cs.foldlM (step ctx) (.initial ctx.settings ctx.existing) = .ok s) :
    ∀ (i : Nat) (n : Node α), s.nodes[i]? = some n →
      Emitted ctx.settings.placement (ctx.existing ++ s.nodes.take i) n := by
  refine foldlM_keeps (p := fun s => ∀ (i : Nat) (n : Node α), s.nodes[i]? = some n →
    Emitted ctx.settings.placement (ctx.existing ++ s.nodes.take i) n) ?_ ?_ h
  · intro s c s' hs hc
    rcases step_nodes hc with hnodes | ⟨s₀, kind, text, p, anchor, n, s₁, hnodes₀, hemit, hnodes⟩
    · rw [hnodes]
      exact hs
    · intro i m hm
      rw [hnodes] at hm ⊢
      rcases getElem?_concat_eq_some.1 hm with hm | ⟨rfl, rfl⟩
      · have hlt := (List.getElem?_eq_some_iff.1 hm).1
        rw [List.take_append_of_le_length (by omega)]
        exact hs i m hm
      · obtain ⟨⟨b, place, hb, hplace, hn⟩, -⟩ := emit_eq_ok hemit
        rw [hnodes₀] at hb
        rw [List.take_left' rfl]
        exact ⟨b, _, kind, anchor, place, hb, hplace, by simp [proposal], by simp [proposal], hn⟩
  · intro i n hn
    cases hn

theorem emitted_of_interpret {settings : Settings α} {existing : List (Node α)} {outline : String} {g : Graph α}
    (h : interpret settings existing outline = .ok g) {i : Nat} {n : Node α} (hn : g.nodes[i]? = some n) :
    Emitted settings.placement (existing ++ g.nodes.take i) n := by
  obtain ⟨-, s, s', hs, hs', h⟩ := interpretContents_eq_ok.1 h
  obtain ⟨containers, -, hg⟩ := bind_eq_ok.1 h
  obtain rfl := Except.ok.inj hg
  have hnodes := (closeAll_keeps hs').1
  simp only [hnodes] at hn ⊢
  exact emitted_of_foldlM hs i n hn

end Emitted

private theorem overlaps_movedTo {r : Rect Float} {p : Point Float} (hp : p.same r.corner = true)
    (hwidth : (r.width == 0) = false) (hheight : (r.height == 0) = false) (s : Rect Float) :
    (r.movedTo p).overlaps s = r.overlaps s := by
  obtain ⟨hx, hy⟩ := Bool.and_eq_true_iff.1 hp
  have hright : (r.movedTo p).right = r.right := Double.add_congr hx hwidth
  have hbottom : (r.movedTo p).bottom = r.bottom := Double.add_congr hy hheight
  have hleft : s.right < (r.movedTo p).left ↔ s.right < r.left := Double.lt_congr hx s.right
  have htop : s.bottom < (r.movedTo p).top ↔ s.bottom < r.top := Double.lt_congr hy s.bottom
  unfold Rect.overlaps
  rw [hright, hbottom, decide_eq_decide.2 hleft, decide_eq_decide.2 htop]

private theorem center_movedTo {r : Rect Float} {p : Point Float} (hp : p.same r.corner = true)
    (hwidth : (r.width / 2 == 0) = false) (hheight : (r.height / 2 == 0) = false) :
    (r.movedTo p).center = r.center := by
  obtain ⟨hx, hy⟩ := Bool.and_eq_true_iff.1 hp
  exact congrArg₂ Point.mk (Double.add_congr hx hwidth) (Double.add_congr hy hheight)

private theorem width_ne_zero (kind : NodeKind) :
    ((kind.width : Float) == 0) = false ∧ ((kind.width : Float) / 2 == 0) = false := by
  cases kind <;> decide +kernel

private theorem height_ne_zero :
    ((nodeHeight : Float) == 0) = false ∧ ((nodeHeight : Float) / 2 == 0) = false := by
  decide +kernel

/-- A rectangle of a standard size that lies at a clear place is clear. -/
private theorem clear_of_same {config : Config Float} {kind : NodeKind} {r s : Rect Float} {p : Point Float}
    (hwidth : r.width = kind.width) (hheight : r.height = nodeHeight) (hp : p.same r.corner = true)
    (h : Clear config (r.movedTo p) s) : Clear config r s := by
  obtain ⟨hw, hw'⟩ := width_ne_zero kind
  obtain ⟨hh, hh'⟩ := height_ne_zero
  rw [← hwidth] at hw hw'
  rw [← hheight] at hh hh'
  obtain ⟨hoverlaps, hclose⟩ := h
  rw [overlaps_movedTo hp hw hh] at hoverlaps
  rw [center_movedTo hp hw' hh'] at hclose
  exact ⟨hoverlaps, hclose⟩

/-- Whether a node lies at a place; a coordinate that is no number is at the place where it is written. -/
def LiesAt (n : Node Float) (p : Point Float) : Prop :=
  n.position = p ∨ p.same n.position = true

/-- The place past the right edge of the canvas. -/
def lastResortOf (config : Config Float) : Point Float :=
  ⟨config.canvasWidth + config.minSpacing, config.origin.y⟩

private theorem clear_or_liesAt_of_emitted {config : Config Float} {others : List (Node Float)} {n m : Node Float}
    (h : Emitted config others n) (havoid : config.avoidOverlap = true) (hm : m ∈ others) (hid : m.id ≠ n.id) :
    Clear config n.rect m.rect ∨ LiesAt n (lastResortOf config) := by
  obtain ⟨b, candidate, kind, anchor, place, hb, hplace, hwidth, hheight, rfl⟩ := h
  obtain ⟨rfl, hnodes⟩ := Board.ofNodes_eq_ok hb
  rw [settled_id] at hid
  cases Board.found_of_resolve hplace with
  | free hfree =>
    left
    -- what is free is the place that was found, and the candidate may stay where it is instead
    have hclear := Board.clear_of_isFree hfree havoid (hnodes ▸ hm) hid
    unfold settled
    split
    · next hsame => exact clear_of_same hwidth hheight hsame hclear
    · exact hclear
  | lastResort hp =>
    right
    subst hp
    unfold settled
    split
    · next hsame => exact .inr hsame
    · exact .inl rfl
  | alone hnone =>
    rw [hnodes] at hnone
    rw [hnone] at hm
    cases hm

/-- Where overlaps are avoided, no node is left out of account: each node has an id of its own, and it keeps clear
of the nodes that were there before it unless it lies at the last resort. -/
theorem interpret_clear {settings : Settings Float} {existing : List (Node Float)} {outline : String}
    {g : Graph Float} (h : interpret settings existing outline = .ok g)
    (havoid : settings.placement.avoidOverlap = true) {i : Nat} {n m : Node Float} (hn : g.nodes[i]? = some n)
    (hm : m ∈ existing ++ g.nodes.take i) :
    m.id ≠ n.id ∧ (Clear settings.placement n.rect m.rect ∨ LiesAt n (lastResortOf settings.placement)) := by
  have hdepicts := depicts_of_interpret h
  have hid : m.id ≠ n.id := by
    rw [hdepicts.id_of_getElem? hn]
    rcases List.mem_append.1 hm with hm | hm
    · intro hid
      have hmem : m.id ∈ existing.map (·.id) := List.mem_map_of_mem hm
      rw [hid] at hmem
      exact Part.nthId_not_mem _ _ _ hmem
    · obtain ⟨j, hj⟩ := List.mem_iff_getElem?.1 hm
      rw [List.getElem?_take] at hj
      split at hj
      · next hlt =>
        rw [hdepicts.id_of_getElem? hj]
        intro hid
        have := (Part.nthId_inj.1 hid).2
        omega
      · cases hj
  exact ⟨hid, clear_or_liesAt_of_emitted (emitted_of_interpret h hn) havoid hm hid⟩

/-- A node gives way to one that is there already. -/
theorem interpret_clear_existing :
    ∃ (g : Graph Float) (m n : Node Float),
      m = ⟨"node-1", .known .process, ⟨300, 100, 200, 80⟩, "", .absent, Hook.defaults "node-1"⟩ ∧
        interpret Options.none.settings [m] "[Início] A" = .ok g ∧ g.nodes[0]? = some n ∧
        n.id = "node-2" ∧ m.id ≠ n.id ∧ Clear .standard n.rect m.rect := by
  let m : Node Float := ⟨"node-1", .known .process, ⟨300, 100, 200, 80⟩, "", .absent, Hook.defaults "node-1"⟩
  have hrun : (interpret (Options.none : Options Float).settings [m] "[Início] A").map
        (fun g => g.nodes[0]?.map fun n => (n.id, n.position)) = .ok (some ("node-2", ⟨720, 100⟩)) := by
    decide +kernel
  obtain ⟨g, hg, hshown⟩ := exists_eq_ok_of_map hrun
  obtain ⟨n, hn, hshown⟩ := Option.map_eq_some_iff.1 hshown
  obtain ⟨hid, hposition⟩ := Prod.mk.inj hshown
  obtain ⟨hne, hclear | hlast⟩ := interpret_clear hg rfl hn (List.mem_append_left _ List.mem_cons_self)
  · exact ⟨g, m, n, rfl, hg, hn, hid, hne, hclear⟩
  · unfold LiesAt at hlast
    rw [hposition] at hlast
    exact absurd hlast (by decide +kernel)

end Flowchart.Interpretation
