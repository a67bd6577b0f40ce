import Flowchart.Proofs.Placement.Clearance
import Flowchart.Proofs.Placement.Order

/-!
# Straight places

The five straight places keep a node clear of the reference node whatever the sizes of the two are
(`clear_of_mem_straightPlaces`): each leaves a gap as wide as the space that is asked for, and the centres only have to
keep a part of it. So a straight place is refused only for the sake of a third node, and beside the reference node
alone the first straight place is taken (`straight_places_clear`).
-/

namespace Flowchart.Placement

section Spaced

variable [Trigonometry Rat] (hlengths : SpanningLengths) {config : Config Rat} (hspacing : 0 < config.minSpacing)
  (hproximity : config.proximity ≤ 1) {r s : Rect Rat}
include hlengths hspacing hproximity

/-- Rectangles with a gap of the asked width between them along the x axis. -/
theorem clear_of_spaced_x (hr : 0 < r.width) (hs : 0 < s.width)
    (h : r.right + config.minSpacing = s.left ∨ s.right + config.minSpacing = r.left) : Clear config r s := by
  have hlimit : config.minSpacing * config.proximity ≤ config.minSpacing :=
    mul_le_of_le_one_right hspacing.le hproximity
  unfold Rect.right Rect.left at h
  refine clear_of_gap_x hlengths ?_ (hlimit.trans (le_abs.2 ?_))
  · unfold Rect.right Rect.left
    rcases h with h | h
    · left; linarith
    · right; linarith
  · unfold Rect.center
    rcases h with h | h
    · right; linarith
    · left; linarith

/-- Rectangles with a gap of the asked width between them along the y axis. -/
theorem clear_of_spaced_y (hr : 0 < r.height) (hs : 0 < s.height)
    (h : r.bottom + config.minSpacing = s.top ∨ s.bottom + config.minSpacing = r.top) : Clear config r s := by
  have hlimit : config.minSpacing * config.proximity ≤ config.minSpacing :=
    mul_le_of_le_one_right hspacing.le hproximity
  unfold Rect.bottom Rect.top at h
  refine clear_of_gap_y hlengths ?_ (hlimit.trans (le_abs.2 ?_))
  · unfold Rect.bottom Rect.top
    rcases h with h | h
    · left; linarith
    · right; linarith
  · unfold Rect.center
    rcases h with h | h
    · right; linarith
    · left; linarith

end Spaced

namespace Board

section Places

variable {α : Type} [Scalar α] (b : Board α) (n reference : Node α) (axis : Term Axis)

theorem length_straightPlaces : (b.straightPlaces n reference axis).length = 5 := by
  unfold straightPlaces straightSpots
  split <;> rfl

theorem head?_straightPlaces : (b.straightPlaces n reference axis).head? =
    some (if axis = .known .horizontal then
      ⟨reference.rect.x + reference.rect.width + b.config.minSpacing, reference.rect.y⟩
    else ⟨reference.rect.x, reference.rect.y + reference.rect.height + b.config.minSpacing⟩) := by
  unfold straightPlaces straightSpots
  split <;> rfl

variable {b n reference axis} {p : Point α}

theorem mem_straightPlaces : p ∈ b.straightPlaces n reference axis ↔
    p = ⟨reference.rect.x + reference.rect.width + b.config.minSpacing, reference.rect.y⟩ ∨
    p = ⟨reference.rect.x, reference.rect.y + reference.rect.height + b.config.minSpacing⟩ ∨
    p = ⟨reference.rect.x + reference.rect.width + b.config.minSpacing,
      reference.rect.y + reference.rect.height + b.config.minSpacing⟩ ∨
    p = ⟨reference.rect.x - n.rect.width - b.config.minSpacing, reference.rect.y⟩ ∨
    p = ⟨reference.rect.x, reference.rect.y - n.rect.height - b.config.minSpacing⟩ := by
  unfold straightPlaces straightSpots
  split
  · simp [newPlaced, newSpot]
  · simp [newPlaced, newSpot, or_left_comm]

end Places

variable [Trigonometry Rat] {b : Board Rat} {n reference : Node Rat} {axis : Term Axis} {p : Point Rat}

theorem clear_of_mem_straightPlaces (hlengths : SpanningLengths) (hspacing : 0 < b.config.minSpacing)
    (hproximity : b.config.proximity ≤ 1) (hn : 0 < n.rect.width ∧ 0 < n.rect.height)
    (hreference : 0 < reference.rect.width ∧ 0 < reference.rect.height)
    (hp : p ∈ b.straightPlaces n reference axis) : Clear b.config (n.rect.movedTo p) reference.rect := by
  have hx := clear_of_spaced_x hlengths hspacing hproximity (r := n.rect.movedTo p) hn.1 hreference.1
  have hy := clear_of_spaced_y hlengths hspacing hproximity (r := n.rect.movedTo p) hn.2 hreference.2
  unfold Rect.right Rect.left Rect.movedTo at hx
  unfold Rect.bottom Rect.top Rect.movedTo at hy
  rcases mem_straightPlaces.1 hp with rfl | rfl | rfl | rfl | rfl
  · exact hx (.inr rfl)
  · exact hy (.inr rfl)
  · exact hx (.inr rfl)
  · exact hx (.inl (by ring))
  · exact hy (.inl (by ring))

/-- Where nothing but the reference node stands in the way, the first straight place is found. -/
theorem find_of_alone (hlengths : SpanningLengths) (hspacing : 0 < b.config.minSpacing)
    (hproximity : b.config.proximity ≤ 1) (hn : 0 < n.rect.width ∧ 0 < n.rect.height)
    (hreference : 0 < reference.rect.width ∧ 0 < reference.rect.height) {given : Option (Node Rat)} {last : Node Rat}
    (hlast : b.nodes.getLast? = some last) (hgiven : given.getD last = reference)
    (halone : ∀ m ∈ b.nodes, m ≠ reference → m.id = n.id)
    (hp : (b.straightPlaces n reference b.primaryAxis).head? = some p) : b.find n given = .ok p := by
  have hfree : b.isFree p n = true := by
    refine isFree_iff.2 fun _ m hm hid => ?_
    by_cases hm' : m = reference
    · rw [hm']
      exact clear_of_mem_straightPlaces hlengths hspacing hproximity hn hreference (List.mem_of_mem_head? hp)
    · exact absurd (halone m hm hm') hid
  have hfound : (b.straightPlaces n reference b.primaryAxis).find? (b.isFree · n) = some p := by
    obtain ⟨rest, hrest⟩ := List.head?_eq_some_iff.1 hp
    rw [hrest]
    exact List.find?_cons_of_pos (p := (b.isFree · n)) hfree
  rw [find_eq hlast, hgiven, hfound]

/-- Each of the five straight places is clear of the reference node, so that only another node makes it taken. Beside
the reference node alone a node is placed on the right if the layout runs horizontally and below otherwise; what counts
then is the preferred axis. -/
theorem straight_places_clear (hlengths : SpanningLengths) {config : Config Rat} (hspacing : 0 < config.minSpacing)
    (hproximity : config.proximity ≤ 1) (hn : 0 < n.rect.width ∧ 0 < n.rect.height)
    (hreference : 0 < reference.rect.width ∧ 0 < reference.rect.height) (existing : List (Node Rat)) :
    ∃ b, Board.ofNodes config existing = .ok b ∧
      (∀ axis, (b.straightPlaces n reference axis).length = 5 ∧
        ∀ p ∈ b.straightPlaces n reference axis, Clear config (n.rect.movedTo p) reference.rect ∧
          (b.isFree p n = false →
            ∃ m ∈ existing, m ≠ reference ∧ m.id ≠ n.id ∧ ¬ Clear config (n.rect.movedTo p) m.rect)) ∧
      (∀ given last, existing.getLast? = some last → given.getD last = reference →
        (∀ m ∈ existing, m ≠ reference → m.id = n.id) →
          b.find n given = .ok (if b.primaryAxis = .known .horizontal then
            ⟨reference.rect.x + reference.rect.width + config.minSpacing, reference.rect.y⟩
          else ⟨reference.rect.x, reference.rect.y + reference.rect.height + config.minSpacing⟩)) ∧
      (existing = [reference] → b.primaryAxis = config.preferredAxis) := by
  obtain ⟨b, hb⟩ := exists_ofNodes config existing
  obtain ⟨rfl, rfl⟩ := ofNodes_eq_ok hb
  refine ⟨b, hb, fun axis => ⟨length_straightPlaces b n reference axis, fun p hp => ?_⟩, ?_, fun halone => ?_⟩
  · have hclear := clear_of_mem_straightPlaces hlengths hspacing hproximity hn hreference hp
    refine ⟨hclear, fun htaken => ?_⟩
    have hblocked := mt isFree_iff.2 (Bool.eq_false_iff.1 htaken)
    push Not at hblocked
    obtain ⟨-, m, hm, hid, hnot⟩ := hblocked
    exact ⟨m, hm, fun hsame => hnot (hsame ▸ hclear), hid, hnot⟩
  · intro given last hlast hgiven halone
    exact find_of_alone hlengths hspacing hproximity hn hreference hlast hgiven halone
      (head?_straightPlaces b n reference b.primaryAxis)
  · unfold primaryAxis
    rw [halone]
    rfl

omit [Trigonometry Rat] in
/-- A wide node is clear of a small one on its left, and is placed below it on a board that prefers columns. The node
that bears the id of the new one lies across that place and does not count. -/
theorem straight_places_clear_column :
    ∃ (n m reference : Node Rat) (config : Config Rat) (b : Board Rat),
      n = ⟨"n", .known .process, ⟨0, 0, 500, 20⟩, "", .absent, Hook.defaults "n"⟩ ∧ m = n.movedTo ⟨300, 250⟩ ∧
        reference = ⟨"a", .known .process, ⟨-5, 7, 30, 13⟩, "", .absent, Hook.defaults "a"⟩ ∧
        config = { Config.standard with preferredAxis := .known .vertical } ∧
        0 < config.minSpacing ∧ config.proximity ≤ 1 ∧ Board.ofNodes config [m, reference] = .ok b ∧
        b.primaryAxis = .known .vertical ∧ @Board.find Rat _ axisParallel b n none = .ok ⟨-5, 240⟩ ∧
        @Clear Rat _ axisParallel config (n.rect.movedTo ⟨-725, 7⟩) reference.rect := by
  let n : Node Rat := ⟨"n", .known .process, ⟨0, 0, 500, 20⟩, "", .absent, Hook.defaults "n"⟩
  let m : Node Rat := n.movedTo ⟨300, 250⟩
  let reference : Node Rat := ⟨"a", .known .process, ⟨-5, 7, 30, 13⟩, "", .absent, Hook.defaults "a"⟩
  let config : Config Rat := { Config.standard with preferredAxis := .known .vertical }
  have hrun : (Board.ofNodes config [m, reference]).map (fun b => (b.primaryAxis,
      (b.straightPlaces n reference b.primaryAxis)[3]?)) = .ok (.known .vertical, some ⟨-725, 7⟩) := by
    decide +kernel
  obtain ⟨b, hb, hshown⟩ := exists_eq_ok_of_map hrun
  obtain ⟨haxis, hleft⟩ := Prod.mk.inj hshown
  have hspacing : 0 < config.minSpacing := by decide +kernel
  have hproximity : config.proximity ≤ 1 := by decide +kernel
  obtain ⟨b', hb', hplaces, hfind, -⟩ := @straight_places_clear axisParallel n reference spanningLengths_axisParallel
    config hspacing hproximity (by decide +kernel) (by decide +kernel) [m, reference]
  obtain rfl := Except.ok.inj (hb.symm.trans hb')
  have halone : ∀ k ∈ [m, reference], k ≠ reference → k.id = n.id := by decide +kernel
  refine ⟨n, m, reference, config, b, rfl, rfl, rfl, rfl, hspacing, hproximity, hb, haxis, ?_,
    ((hplaces b.primaryAxis).2 _ (List.mem_of_getElem? hleft)).1⟩
  rw [hfind none reference rfl rfl halone, haxis]
  decide +kernel

end Board

end Flowchart.Placement
