import Flowchart.Placement.Search
import Flowchart.Proofs.Fault

/-!
# The places that are found

A place that is found for a node is free, or it is the last resort, or there is nothing on the board
(`found_of_resolve`). A free place keeps clear of every node on the board but those with the id of the new node
(`clear_of_isFree`).
-/

namespace Flowchart.Placement

variable {α : Type} [Scalar α]

omit [Scalar α] in
theorem Placed.map_node_ofNodes (nodes : List (Node α)) : (Placed.ofNodes nodes).map (·.node) = nodes := by
  simp only [Placed.ofNodes, List.map_map]
  exact List.zipIdx_map_fst 0 nodes

theorem Board.ofNodes_eq_ok {config : Config α} {nodes : List (Node α)} {b : Board α}
    (h : Board.ofNodes config nodes = .ok b) : b.config = config ∧ b.nodes = nodes := by
  obtain ⟨lattice, -, hb⟩ := bind_eq_ok.1 h
  obtain rfl := Except.ok.inj hb
  exact ⟨rfl, Placed.map_node_ofNodes nodes⟩

variable [Trigonometry α]

/-- The place that is found for a node among others. -/
def placeAmong (config : Config α) (nodes : List (Node α)) (n : Node α) (reference : Option (Node α)) :
    Except NumberFault (Point α) := do
  let b ← Board.ofNodes config nodes
  b.resolve n reference

/-- Whether two rectangles have no point in common and their centres keep the distance that is asked for. -/
structure Clear (config : Config α) (r s : Rect α) : Prop where
  not_overlaps : r.overlaps s = false
  not_close : ¬ r.center.distance s.center < config.minSpacing * config.proximity

namespace Board

variable {b : Board α} {n : Node α} {p : Point α}

/-- Where overlaps are avoided, a place is free if it is clear of every other node; elsewhere every place is. -/
theorem isFree_iff : b.isFree p n = true ↔
    (b.config.avoidOverlap = true → ∀ m ∈ b.nodes, m.id ≠ n.id → Clear b.config (n.rect.movedTo p) m.rect) := by
  have hothers : ∀ m, m ∈ b.others n ↔ m ∈ b.nodes ∧ m.id ≠ n.id := by
    intro m
    unfold others
    rw [List.mem_filter, decide_eq_true_iff]
  unfold isFree isTooClose
  cases b.config.avoidOverlap with
  | false => simp
  | true =>
    simp only [Bool.not_true, Bool.false_or, Bool.and_eq_true, Bool.not_eq_true', List.any_eq_false,
      Bool.not_eq_true, decide_eq_false_iff_not, hothers, forall_const]
    constructor
    · rintro ⟨hoverlaps, hclose⟩ m hm hid
      exact ⟨hoverlaps m ⟨hm, hid⟩, hclose m ⟨hm, hid⟩⟩
    · intro h
      exact ⟨fun m hm => (h m hm.1 hm.2).not_overlaps, fun m hm => (h m hm.1 hm.2).not_close⟩

theorem clear_of_isFree (h : b.isFree p n = true) (havoid : b.config.avoidOverlap = true) {m : Node α}
    (hm : m ∈ b.nodes) (hid : m.id ≠ n.id) : Clear b.config (n.rect.movedTo p) m.rect :=
  isFree_iff.1 h havoid m hm hid

private theorem firstSome?_eq_some {β : Type} {f : Nat → Option β} {start count : Nat} {x : β}
    (h : firstSome? f start count = some x) : ∃ i, f i = some x := by
  induction count generalizing start with
  | zero => cases h
  | succ count ih =>
    unfold firstSome? at h
    split at h
    · next y hy =>
      obtain rfl := Option.some.inj h
      exact ⟨start, hy⟩
    · exact ih h

private theorem isFree_of_findOnRings? {reference : Node α} {perRing : Nat}
    (h : b.findOnRings? n reference perRing = some p) : b.isFree p n = true := by
  obtain ⟨ring, h⟩ := firstSome?_eq_some h
  obtain ⟨step, h⟩ := firstSome?_eq_some h
  simp only at h
  split at h
  · next hfree => exact Option.some.inj h ▸ hfree
  · cases h

private theorem isFree_of_findRandom? {attempts : Nat} {g : Twister} (h : b.findRandom? n attempts g = some p) :
    b.isFree p n = true := by
  induction attempts generalizing g with
  | zero => cases h
  | succ attempts ih =>
    unfold findRandom? at h
    simp only at h
    split at h
    · next hfree => exact Option.some.inj h ▸ hfree
    · exact ih h

/-- What a place that is found for a node is. -/
inductive Found (b : Board α) (n : Node α) (p : Point α) : Prop
  | free : b.isFree p n = true → Found b n p
  | lastResort : p = b.lastResort.point → Found b n p
  | alone : b.nodes = [] → Found b n p

private theorem found_of_findAround {reference : Node α} {s : Spot α} (h : b.findAround n reference = .ok s) :
    Found b n s.point := by
  obtain ⟨perRing, -, h⟩ := bind_eq_ok.1 h
  split at h
  · next p hp =>
    obtain rfl := Except.ok.inj h
    exact .free (isFree_of_findOnRings? hp)
  · split at h
    · next p hp =>
      obtain rfl := Except.ok.inj h
      exact .free (isFree_of_findRandom? hp)
    · obtain rfl := Except.ok.inj h
      exact .lastResort rfl

private theorem found_of_findSpot {reference : Option (Node α)} {s : Spot α} (h : b.findSpot n reference = .ok s) :
    Found b n s.point := by
  unfold findSpot at h
  split at h
  · next hlast =>
    refine .alone ?_
    rw [Board.nodes, List.getLast?_eq_none_iff.1 hlast]
    rfl
  · next last hlast =>
    simp only at h
    split at h
    · next s' hs =>
      obtain rfl := Except.ok.inj h
      have hfree := List.find?_some hs
      exact .free hfree
    · exact found_of_findAround h

theorem found_of_resolve {reference : Option (Node α)} (h : b.resolve n reference = .ok p) : Found b n p := by
  obtain ⟨s, hs, hp⟩ := bind_eq_ok.1 h
  obtain rfl := Except.ok.inj hp
  unfold resolveSpot at hs
  split at hs
  · next hfree =>
    obtain rfl := Except.ok.inj hs
    exact .free hfree
  · exact found_of_findSpot hs

end Board

end Flowchart.Placement
