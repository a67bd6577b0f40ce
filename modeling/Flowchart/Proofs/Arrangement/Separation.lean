import Flowchart.Proofs.Arrangement.Arranged
import Flowchart.Proofs.Geometry.Hull
import Flowchart.Proofs.Node
import Flowchart.Proofs.Numeric.Rational
import Mathlib.Data.List.Pairwise
import Mathlib.Order.Bounds.Defs

/-!
# Components apart

The components of an arranged chart lie one behind the other across the layers. A component that is shifted to an
offset begins there and ends before the next offset (`isBand_shifted`), so by induction on the components each of them
begins behind all earlier ones (`isStacked_stack`). Rounding moves a node by at most half of a hundredth, which leaves
the gap between the components open, and it does not move the first ones away from the margin
(`components_separated`).
-/

namespace Flowchart

namespace Orientation

variable {α : Type} [Scalar α]

/-- Where a rectangle begins across the layers. -/
def crossStart : Orientation → Rect α → α
  | .leftToRight, r => r.top
  | .topDown, r => r.left

/-- Where a rectangle ends across the layers. -/
def crossEnd : Orientation → Rect α → α
  | .leftToRight, r => r.bottom
  | .topDown, r => r.right

/-- Where a rectangle begins along the layers. -/
def layerStart : Orientation → Rect α → α
  | .leftToRight, r => r.left
  | .topDown, r => r.top

end Orientation

namespace Arrangement

section

variable {α : Type} [Scalar α] (size : String → α × α) (entry : String × Point α)

/-- Where a vertex begins across the layers. -/
def startAcross : α :=
  entry.2.x - (size entry.1).1 / 2

/-- Where a vertex ends across the layers. -/
def endAcross : α :=
  entry.2.x + (size entry.1).1 / 2

/-- Where a vertex begins along the layers. -/
def startAlong : α :=
  entry.2.y - (size entry.1).2 / 2

end

theorem endAcross_eq (size : String → Rat × Rat) (entry : String × Point Rat) :
    endAcross size entry = startAcross size entry + (size entry.1).1 := by
  unfold endAcross startAcross
  ring

/-- Whether some vertices reach from `offset` to a gap before `next` across the layers, and from zero on along them. -/
structure IsBand (size : String → Rat × Rat) (offset next : Rat) (entries : List (String × Point Rat)) : Prop where
  le_start : ∀ e ∈ entries, offset ≤ startAcross size e
  end_le : ∀ e ∈ entries, endAcross size e + componentGap ≤ next
  nonneg : ∀ e ∈ entries, 0 ≤ startAlong size e
  exists_start : ∃ e ∈ entries, startAcross size e = offset
  exists_zero : ∃ e ∈ entries, startAlong size e = 0

variable {size : String → Rat × Rat}

/-- A vertex with its centre moved. -/
private def movedBy (dx dy : Rat) (entry : String × Point Rat) : String × Point Rat :=
  (entry.1, ⟨entry.2.x + dx, entry.2.y + dy⟩)

private theorem startAcross_movedBy (dx dy : Rat) (entry : String × Point Rat) :
    startAcross size (movedBy dx dy entry) = startAcross size entry + dx := by
  unfold startAcross movedBy
  ring

private theorem endAcross_movedBy (dx dy : Rat) (entry : String × Point Rat) :
    endAcross size (movedBy dx dy entry) = endAcross size entry + dx := by
  unfold endAcross movedBy
  ring

private theorem startAlong_movedBy (dx dy : Rat) (entry : String × Point Rat) :
    startAlong size (movedBy dx dy entry) = startAlong size entry + dy := by
  unfold startAlong movedBy
  ring

/-- A component is shifted by how far its first vertices are from the offset and from zero. -/
private theorem shifted_eq (size : String → Rat × Rat) (component : List String) (centers : List (Point Rat))
    (offset : Rat) :
    let entries := component.zip centers
    let low := Scalar.minimum (entries.map (startAcross size))
    let high := Scalar.maximum (entries.map (endAcross size))
    let base := Scalar.minimum (entries.map (startAlong size))
    component.zip (shifted (component.map size) centers offset).1 = entries.map (movedBy (offset - low) (-base)) ∧
      (shifted (component.map size) centers offset).2 = offset + ((high - low) + componentGap) := by
  have hboth : ∀ f : (Rat × Rat) × Point Rat → Rat, ((component.map size).zip centers).map f =
      (component.zip centers).map fun e => f (size e.1, e.2) := by
    intro f
    rw [List.zip_map_left, List.map_map]
    rfl
  unfold shifted
  simp only [hboth, List.zip_map_right]
  refine ⟨List.map_congr_left fun e _ => ?_, rfl⟩
  refine Prod.ext rfl (congrArg₂ Point.mk ?_ ?_)
  · exact sub_add_eq_add_sub _ _ _ |>.trans (add_sub_assoc _ _ _)
  · exact sub_eq_add_neg _ _

/-- A component fills the band in which it is shifted. -/
theorem isBand_shifted (size : String → Rat × Rat) {component : List String} {centers : List (Point Rat)}
    (hne : component ≠ []) (hlength : centers.length = component.length) (offset : Rat) :
    IsBand size offset (shifted (component.map size) centers offset).2
      (component.zip (shifted (component.map size) centers offset).1) := by
  have hentries : component.zip centers ≠ [] := by
    rw [← List.length_pos_iff, List.length_zip, hlength, Nat.min_self]
    exact List.length_pos_iff.2 hne
  have hsides : ∀ side : String × Point Rat → Rat, (component.zip centers).map side ≠ [] :=
    fun side => by simpa using hentries
  obtain ⟨hlow, hlows⟩ := minimum_spec (hsides (startAcross size))
  obtain ⟨hbase, hbases⟩ := minimum_spec (hsides (startAlong size))
  obtain ⟨-, hhighs⟩ := maximum_spec (hsides (endAcross size))
  obtain ⟨hzip, hnext⟩ := shifted_eq size component centers offset
  rw [hzip, hnext]
  rw [List.forall_mem_map] at hlows hbases hhighs
  constructor
  · rw [List.forall_mem_map]
    intro e he
    rw [startAcross_movedBy]
    linarith [hlows e he]
  · rw [List.forall_mem_map]
    intro e he
    rw [endAcross_movedBy]
    linarith [hhighs e he]
  · rw [List.forall_mem_map]
    intro e he
    rw [startAlong_movedBy]
    linarith [hbases e he]
  · obtain ⟨e, he, heq⟩ := List.mem_map.1 hlow
    refine ⟨_, List.mem_map_of_mem he, ?_⟩
    rw [startAcross_movedBy, heq, add_sub_cancel]
  · obtain ⟨e, he, heq⟩ := List.mem_map.1 hbase
    refine ⟨_, List.mem_map_of_mem he, ?_⟩
    rw [startAlong_movedBy, heq, add_neg_cancel]

theorem IsBand.le {offset next : Rat} {entries : List (String × Point Rat)} (h : IsBand size offset next entries)
    (hsize : ∀ e ∈ entries, 0 ≤ (size e.1).1) : offset ≤ next := by
  obtain ⟨e, he, hstart⟩ := h.exists_start
  have hend := h.end_le e he
  have hpos := hsize e he
  have hgap : (0 : Rat) ≤ componentGap := by decide
  rw [endAcross_eq, hstart] at hend
  linarith

/-- Whether vertices reach from `offset` on across the layers and from zero on along them, each component behind all
earlier ones. -/
structure IsStacked (size : String → Rat × Rat) (offset : Rat) (components : List (List String))
    (entries : List (String × Point Rat)) : Prop where
  le_start : ∀ e ∈ entries, offset ≤ startAcross size e
  apart : components.Pairwise fun c c' => ∀ e ∈ entries, ∀ e' ∈ entries, e.1 ∈ c → e'.1 ∈ c' →
    endAcross size e + componentGap ≤ startAcross size e'
  nonneg : ∀ e ∈ entries, 0 ≤ startAlong size e
  exists_start : ∀ c ∈ components.head?, ∃ e ∈ entries, e.1 ∈ c ∧ startAcross size e = offset
  exists_zero : ∀ c ∈ components, ∃ e ∈ entries, e.1 ∈ c ∧ startAlong size e = 0

theorem IsStacked.nil (size : String → Rat × Rat) (offset : Rat) : IsStacked size offset [] [] where
  le_start := by simp
  apart := .nil
  nonneg := by simp
  exists_start := by simp
  exists_zero := by simp

/-- A component in front of others. -/
theorem IsStacked.cons {offset next : Rat} {component : List String} {components : List (List String)}
    {front rest : List (String × Point Rat)} (hband : IsBand size offset next front)
    (hrest : IsStacked size next components rest) (hle : offset ≤ next) (hfront : front.map (·.1) = component)
    (hkeys : rest.map (·.1) = components.flatten) (hnodup : (component :: components).flatten.Nodup) :
    IsStacked size offset (component :: components) (front ++ rest) := by
  rw [List.flatten_cons, List.nodup_append] at hnodup
  obtain ⟨-, -, hdisjoint⟩ := hnodup
  have hin : ∀ e ∈ front, e.1 ∈ component := fun e he => hfront ▸ List.mem_map_of_mem he
  have hin_rest : ∀ e ∈ rest, e.1 ∈ components.flatten := fun e he => hkeys ▸ List.mem_map_of_mem he
  have hfirst : ∀ e ∈ front ++ rest, e.1 ∈ component → e ∈ front := fun e he hid =>
    (List.mem_append.1 he).resolve_right fun he => hdisjoint _ hid _ (hin_rest e he) rfl
  have hothers : ∀ c ∈ components, ∀ e ∈ front ++ rest, e.1 ∈ c → e ∈ rest := fun c hc e he hid =>
    (List.mem_append.1 he).resolve_left fun he =>
      hdisjoint _ (hin e he) _ (List.mem_flatten.2 ⟨c, hc, hid⟩) rfl
  constructor
  · intro e he
    rcases List.mem_append.1 he with he | he
    · exact hband.le_start e he
    · exact hle.trans (hrest.le_start e he)
  · refine List.pairwise_cons.2 ⟨fun c hc e he e' he' hid hid' => ?_, ?_⟩
    · exact (hband.end_le e (hfirst e he hid)).trans (hrest.le_start e' (hothers c hc e' he' hid'))
    · refine hrest.apart.imp_of_mem fun hc hc' h e he e' he' hid hid' => ?_
      exact h e (hothers _ hc e he hid) e' (hothers _ hc' e' he' hid') hid hid'
  · intro e he
    rcases List.mem_append.1 he with he | he
    · exact hband.nonneg e he
    · exact hrest.nonneg e he
  · intro c hc
    obtain rfl : component = c := by simpa using hc
    obtain ⟨e, he, hstart⟩ := hband.exists_start
    exact ⟨e, List.mem_append_left rest he, hin e he, hstart⟩
  · intro c hc
    rcases List.mem_cons.1 hc with rfl | hc
    · obtain ⟨e, he, hzero⟩ := hband.exists_zero
      exact ⟨e, List.mem_append_left rest he, hin e he, hzero⟩
    · obtain ⟨e, he, hid, hzero⟩ := hrest.exists_zero c hc
      exact ⟨e, List.mem_append_right front he, hid, hzero⟩

theorem isStacked_stack {layout : List String → List (Point Rat)}
    (hlayout : ∀ component, (layout component).length = component.length) {components : List (List String)}
    (hne : ∀ c ∈ components, c ≠ []) (hnodup : components.flatten.Nodup)
    (hsize : ∀ id ∈ components.flatten, 0 ≤ (size id).1) (offset : Rat) :
    IsStacked size offset components (stack size layout offset components) := by
  induction components generalizing offset with
  | nil => exact .nil size offset
  | cons component components ih =>
    have hband := isBand_shifted size (hne _ List.mem_cons_self) (hlayout component) offset
    have hkeys : (component.zip (shifted (component.map size) (layout component) offset).1).map (·.1) = component :=
      List.map_fst_zip (by simp [shifted, hlayout])
    have hle := hband.le fun e he => hsize e.1 <| List.mem_append_left _ <| hkeys ▸ List.mem_map_of_mem he
    have hrest := ih (fun c hc => hne c (List.mem_cons_of_mem _ hc)) (List.nodup_append.1 hnodup).2.1
      (fun id hid => hsize id (List.mem_append_right _ hid)) (shifted (component.map size) (layout component) offset).2
    exact .cons hband hrest hle hkeys (keys_stack hlayout _ components) hnodup

/-! ### The nodes at their places -/

/-- Whether a node stands where the centre of its vertex says. -/
structure StandsAt (o : Orientation) (size : String → Rat × Rat) (entry : String × Point Rat) (n : Node Rat) :
    Prop where
  id_eq : n.id = entry.1
  crossStart_eq : o.crossStart n.rect = Scalar.roundTo 2 (margin + startAcross size entry)
  crossEnd_eq : o.crossEnd n.rect = Scalar.roundTo 2 (margin + startAcross size entry) + (size entry.1).1
  layerStart_eq : o.layerStart n.rect = Scalar.roundTo 2 (margin + startAlong size entry)

variable {o : Orientation}

theorem standsAt_placed {n : Node Rat} (hsize : size n.id = extents o n) (c : Point Rat) :
    StandsAt o size (n.id, c) (placed o n c) := by
  constructor
  · rfl
  · unfold startAcross
    rw [hsize]
    cases o <;> rfl
  · unfold startAcross
    rw [hsize]
    cases o <;> rfl
  · unfold startAlong
    rw [hsize]
    cases o <;> rfl

namespace StandsAt

variable {e e' : String × Point Rat} {a b : Node Rat}

/-- Rounding takes at most a hundredth from the gap between two nodes. -/
theorem apart (ha : StandsAt o size e a) (hb : StandsAt o size e' b)
    (h : endAcross size e + componentGap ≤ startAcross size e') :
    o.crossEnd a.rect + (120 - 0.01) ≤ o.crossStart b.rect := by
  have hround := (abs_le.1 (abs_roundTo_sub_le (margin + startAcross size e))).2
  have hround' := (abs_le.1 (abs_roundTo_sub_le (margin + startAcross size e'))).1
  have hgap : (componentGap : Rat) = 120 := rfl
  rw [endAcross_eq, hgap] at h
  rw [ha.crossEnd_eq, hb.crossStart_eq]
  linarith

end StandsAt

private theorem roundTo_margin : Scalar.roundTo 2 ((margin : Rat) + 0) = 100 := by
  rw [add_zero]
  exact roundTo_intCast 100

private theorem le_roundTo_margin {x : Rat} (h : 0 ≤ x) : 100 ≤ Scalar.roundTo 2 (margin + x) := by
  refine le_roundTo (k := 100) ?_
  have hmargin : (margin : Rat) = ((100 : Int) : Rat) := rfl
  linarith

/-- Rectangles do not overlap if one of them begins behind the other one across the layers. -/
theorem not_overlaps_of_lt {r s : Rect Rat} (h : o.crossEnd r < o.crossStart s) :
    r.overlaps s = false ∧ s.overlaps r = false := by
  unfold Rect.overlaps
  cases o with
  | leftToRight =>
    have hlt : r.bottom < s.top := h
    simp [hlt]
  | topDown =>
    have hlt : r.right < s.left := h
    simp [hlt]

/-- Nodes of different components do not overlap, whichever component comes first. -/
private theorem not_overlaps_of_apart {components : List (List String)} {nodes : List (Node Rat)}
    (hapart : components.Pairwise fun c c' => ∀ a ∈ nodes, ∀ b ∈ nodes, a.id ∈ c → b.id ∈ c' →
      o.crossEnd a.rect + (120 - 0.01) ≤ o.crossStart b.rect)
    {c c' : List String} (hc : c ∈ components) (hc' : c' ∈ components) (hne : c ≠ c') {a b : Node Rat}
    (ha : a ∈ nodes) (hb : b ∈ nodes) (hac : a.id ∈ c) (hbc : b.id ∈ c') : a.rect.overlaps b.rect = false := by
  let clear (c c' : List String) : Prop := ∀ a ∈ nodes, ∀ b ∈ nodes, a.id ∈ c → b.id ∈ c' →
    a.rect.overlaps b.rect = false ∧ b.rect.overlaps a.rect = false
  have : Std.Symm clear := ⟨fun _ _ h a ha b hb hac hbc => (h b hb a ha hbc hac).symm⟩
  have hclear : components.Pairwise clear := by
    refine hapart.imp fun h a ha b hb hac hbc => not_overlaps_of_lt (o := o) ?_
    linarith [h a ha b hb hac hbc]
  exact (hclear.forall hc hc' hne a ha b hb hac hbc).1

section

variable {method : Method Rat} {spacing : Spacing Rat} {g : Graph Rat}

private theorem size_diagramOf_of_nodup (hids : (g.nodes.map (·.id)).Nodup) {n : Node Rat} (hn : n ∈ g.nodes) :
    (diagramOf o g).size n.id = extents o n := by
  rw [size_diagramOf o hn]
  unfold extentsOf nodeWithId?
  rw [(find?_reverse_id Node.id hids).2 ⟨hn, rfl⟩]

variable (hids : (g.nodes.map (·.id)).Nodup)
  (hpart : IsPartition (diagramOf o g).ids (method.components (diagramOf o g)))
include hids hpart

/-- Each node of the arranged chart stands at the centre of a vertex. -/
private theorem exists_entry {a : Node Rat} (ha : a ∈ (g.arranged method o spacing).nodes) :
    ∃ e ∈ centers method spacing (diagramOf o g), StandsAt o (diagramOf o g).size e a := by
  obtain ⟨n, hn, rfl⟩ := List.mem_map.1 ha
  have hmem : n.id ∈ (method.components (diagramOf o g)).flatten :=
    hpart.perm.mem_iff.2 ((mem_ids_diagramOf o g).2 (List.mem_map_of_mem hn))
  exact ⟨(n.id, centerOf method spacing (diagramOf o g) n.id),
    mem_of_lookup_eq_some (lookup_centers.2 ⟨hmem, rfl⟩), standsAt_placed (size_diagramOf_of_nodup hids hn) _⟩

/-- At the centre of each vertex stands a node of the arranged chart. -/
private theorem exists_node {e : String × Point Rat} (he : e ∈ centers method spacing (diagramOf o g)) :
    ∃ a ∈ (g.arranged method o spacing).nodes, StandsAt o (diagramOf o g).size e a := by
  have hmem : e.1 ∈ (method.components (diagramOf o g)).flatten :=
    keys_centers method spacing (diagramOf o g) ▸ List.mem_map_of_mem he
  obtain ⟨n, hn, hid⟩ := List.mem_map.1 ((mem_ids_diagramOf o g).1 (hpart.perm.mem_iff.1 hmem))
  have hcenter := centerOf_of_mem (hpart.nodup_flatten (nodup_ids_diagramOf o g)) he
  have hstands := standsAt_placed (size_diagramOf_of_nodup (o := o) hids hn) e.2
  refine ⟨_, List.mem_map_of_mem hn, ?_⟩
  rw [hid] at hstands ⊢
  rwa [hcenter]

/-- The vertices of the arranged chart lie in stacked components. -/
private theorem isStacked_centers (hnodes : ∀ n ∈ g.nodes, n.make = .ok n) :
    IsStacked (diagramOf o g).size 0 (method.components (diagramOf o g)) (centers method spacing (diagramOf o g)) := by
  refine isStacked_stack (length_componentCenters method spacing _) hpart.nonempty
    (hpart.nodup_flatten (nodup_ids_diagramOf o g)) (fun id hid => ?_) 0
  obtain ⟨n, hn, rfl⟩ := List.mem_map.1 ((mem_ids_diagramOf o g).1 (hpart.perm.mem_iff.1 hid))
  rw [size_diagramOf_of_nodup hids hn]
  obtain ⟨hwidth, hheight⟩ := not_or.1 (Node.make_eq_self.1 (hnodes n hn)).1
  cases o with
  | leftToRight => exact (not_le.1 hheight).le
  | topDown => exact (not_le.1 hwidth).le

/-- The first nodes of a component lie at the margin if its first vertices lie at zero. -/
private theorem isLeast_start {side : Rect Rat → Rat} {start : String × Point Rat → Rat}
    (hside : ∀ e a, StandsAt o (diagramOf o g).size e a → side a.rect = Scalar.roundTo 2 (margin + start e))
    (hnonneg : ∀ e ∈ centers method spacing (diagramOf o g), 0 ≤ start e) {c : List String}
    (hzero : ∃ e ∈ centers method spacing (diagramOf o g), e.1 ∈ c ∧ start e = 0) :
    IsLeast {x | ∃ n ∈ (g.arranged method o spacing).nodes, n.id ∈ c ∧ side n.rect = x} 100 := by
  constructor
  · obtain ⟨e, he, hec, hzero⟩ := hzero
    obtain ⟨a, ha, hae⟩ := exists_node hids hpart he
    refine ⟨a, ha, hae.id_eq ▸ hec, ?_⟩
    rw [hside e a hae, hzero, roundTo_margin]
  · rintro x ⟨a, ha, -, rfl⟩
    obtain ⟨e, he, hae⟩ := exists_entry hids hpart ha
    rw [hside e a hae]
    exact le_roundTo_margin (hnonneg e he)

end

/-- However the vertices of each component are laid out, the components of the arranged chart follow each other across
the layers with a gap, so nodes of different components do not overlap. Every component begins at the margin along the
layers, and the first one begins there across them, too. The components of the layered layout divide the vertices among
them, which is all that is asked for. -/
theorem components_separated :
    (∀ (method : Method Rat) (g : Graph Rat) (o : Orientation) (spacing : Spacing Rat),
      g.nodes ≠ [] → (g.nodes.map (·.id)).Nodup → (∀ n ∈ g.nodes, n.make = .ok n) →
      IsPartition (diagramOf o g).ids (method.components (diagramOf o g)) →
      ∃ g', g.arrangeWith method o spacing = .ok g' ∧
        List.Forall₂ (fun n n' => ∃ p, n' = n.movedTo p) g.nodes g'.nodes ∧
        ((method.components (diagramOf o g)).Pairwise fun c c' => ∀ a ∈ g'.nodes, ∀ b ∈ g'.nodes,
          a.id ∈ c → b.id ∈ c' → o.crossEnd a.rect + (120 - 0.01) ≤ o.crossStart b.rect) ∧
        (∀ a ∈ g'.nodes, ∀ b ∈ g'.nodes, (∀ c ∈ method.components (diagramOf o g), a.id ∈ c → b.id ∉ c) →
          a.rect.overlaps b.rect = false) ∧
        (∀ c ∈ method.components (diagramOf o g),
          IsLeast {x | ∃ n ∈ g'.nodes, n.id ∈ c ∧ o.layerStart n.rect = x} 100) ∧
        ∀ c ∈ (method.components (diagramOf o g)).head?,
          IsLeast {x | ∃ n ∈ g'.nodes, n.id ∈ c ∧ o.crossStart n.rect = x} 100) ∧
    ∀ (g : Graph Rat) (o : Orientation),
      IsPartition (diagramOf o g).ids ((layeredMethod : Method Rat).components (diagramOf o g)) := by
  refine ⟨fun method g o spacing hne hids hnodes hpart => ?_, fun g o => isPartition_layeredMethod o g⟩
  have hstacked : IsStacked _ _ _ (centers method spacing (diagramOf o g)) := isStacked_centers hids hpart hnodes
  have hapart : (method.components (diagramOf o g)).Pairwise fun c c' => ∀ a ∈ (g.arranged method o spacing).nodes,
      ∀ b ∈ (g.arranged method o spacing).nodes, a.id ∈ c → b.id ∈ c' →
        o.crossEnd a.rect + (120 - 0.01) ≤ o.crossStart b.rect := by
    refine hstacked.apart.imp fun h a ha b hb hac hbc => ?_
    obtain ⟨e, he, hae⟩ := exists_entry hids hpart ha
    obtain ⟨e', he', hbe⟩ := exists_entry hids hpart hb
    exact hae.apart hbe (h e he e' he' (hae.id_eq ▸ hac) (hbe.id_eq ▸ hbc))
  refine ⟨_, Graph.arrangeWith_of_isPartition hne hpart, ?_, hapart, ?_, ?_, ?_⟩
  · exact List.forall₂_map_right_iff.2 (List.forall₂_same.2 fun n _ => ⟨_, rfl⟩)
  · intro a ha b hb hdifferent
    have hcomponent : ∀ n ∈ (g.arranged method o spacing).nodes, ∃ c ∈ method.components (diagramOf o g), n.id ∈ c := by
      intro n hn
      obtain ⟨m, hm, rfl⟩ := List.mem_map.1 hn
      exact hpart.exists_component ((mem_ids_diagramOf o g).2 (List.mem_map.2 ⟨m, hm, rfl⟩))
    obtain ⟨c, hc, hac⟩ := hcomponent a ha
    obtain ⟨c', hc', hbc⟩ := hcomponent b hb
    have hne : c ≠ c' := fun h => hdifferent c hc hac (h ▸ hbc)
    exact not_overlaps_of_apart hapart hc hc' hne ha hb hac hbc
  · exact fun c hc => isLeast_start hids hpart (fun _ _ h => h.layerStart_eq) hstacked.nonneg (hstacked.exists_zero c hc)
  · exact fun c hc =>
      isLeast_start hids hpart (fun _ _ h => h.crossStart_eq) hstacked.le_start (hstacked.exists_start c hc)

/-- Two components from left to right, the first one a lone node with a connection to itself. Its height is no multiple
of a hundredth, and rounding narrows the gap below it. -/
theorem components_separated_narrowed :
    ∃ (g g' : Graph Rat) (a b c : Node Rat),
      g = ⟨[⟨"a", .known .process, ⟨7, 7, 100 / 3, 80⟩, "", .absent, Hook.defaults "a"⟩,
          ⟨"c", .known .process, ⟨7, 7, 60, 40 / 3⟩, "", .absent, Hook.defaults "c"⟩,
          ⟨"b", .known .process, ⟨7, 7, 20, 20 / 3⟩, "", .absent, Hook.defaults "b"⟩],
        [Connection.between "k" "b" "a", Connection.between "l" "c" "c", Connection.between "m" "b" "x"], []⟩ ∧
      (layeredMethod : Method Rat).components (diagramOf .leftToRight g) = [["c"], ["b", "a"]] ∧
      g.arrangeWith layeredMethod .leftToRight .standard = .ok g' ∧ g'.nodes = [a, c, b] ∧
      a.rect = ⟨240, 233.33, 100 / 3, 80⟩ ∧ c.rect = ⟨100, 100, 60, 40 / 3⟩ ∧ b.rect = ⟨100, 270, 20, 20 / 3⟩ ∧
      c.rect.bottom + (120 - 0.01) ≤ a.rect.top ∧ a.rect.top < c.rect.bottom + 120 ∧ a.rect.overlaps c.rect = false ∧
      IsLeast {x | ∃ n ∈ g'.nodes, n.id ∈ ["b", "a"] ∧ n.rect.left = x} 100 ∧
      IsLeast {x | ∃ n ∈ g'.nodes, n.id ∈ ["c"] ∧ n.rect.top = x} 100 := by
  let node (id : String) (rect : Rect Rat) : Node Rat := ⟨id, .known .process, rect, "", .absent, Hook.defaults id⟩
  let a := node "a" ⟨240, 233.33, 100 / 3, 80⟩
  let b := node "b" ⟨100, 270, 20, 20 / 3⟩
  let c := node "c" ⟨100, 100, 60, 40 / 3⟩
  let g : Graph Rat := ⟨[node "a" ⟨7, 7, 100 / 3, 80⟩, node "c" ⟨7, 7, 60, 40 / 3⟩, node "b" ⟨7, 7, 20, 20 / 3⟩],
    [Connection.between "k" "b" "a", Connection.between "l" "c" "c", Connection.between "m" "b" "x"], []⟩
  have hcomponents : (layeredMethod : Method Rat).components (diagramOf .leftToRight g) = [["c"], ["b", "a"]] := by
    decide +kernel
  have hresult : (g.arrangeWith layeredMethod .leftToRight .standard).map (·.nodes) = .ok [a, c, b] := by
    decide +kernel
  obtain ⟨g', hg', -, hapart, hclear, hlayers, hfirst⟩ := components_separated.1 layeredMethod g .leftToRight .standard
    (by decide) (by decide) (by decide +kernel) (components_separated.2 g .leftToRight)
  rw [hcomponents] at hapart hclear hlayers hfirst
  have hnodes : g'.nodes = [a, c, b] := by
    rw [hg'] at hresult
    exact Except.ok.inj hresult
  have ha : a ∈ g'.nodes := by rw [hnodes]; exact List.mem_cons_self
  have hc : c ∈ g'.nodes := by rw [hnodes]; exact List.mem_cons_of_mem _ List.mem_cons_self
  refine ⟨g, g', a, b, c, rfl, hcomponents, hg', hnodes, rfl, rfl, rfl, ?_, by decide +kernel, ?_, ?_, ?_⟩
  · exact (List.pairwise_cons.1 hapart).1 _ List.mem_cons_self c hc a ha (by decide) (by decide)
  · exact hclear a ha c hc (by decide)
  · exact hlayers _ (by decide)
  · exact hfirst _ rfl

end Arrangement

end Flowchart
