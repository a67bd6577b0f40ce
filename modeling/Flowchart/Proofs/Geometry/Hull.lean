import Flowchart.Geometry.Rect
import Flowchart.Numeric.Exact
import Mathlib.Algebra.Order.Ring.Rat
import Mathlib.Tactic.Linarith

/-!
# Hulls of rectangles

In exact coordinates the bounding box of some rectangles is the smallest rectangle that contains all of them,
each grown by the margin (`isHull_of_boundingBox?`). There is only one such rectangle (`IsHull.unique`).
-/

namespace Flowchart

theorem minimum_spec {xs : List Rat} (h : xs ≠ []) :
    Scalar.minimum xs ∈ xs ∧ ∀ x ∈ xs, Scalar.minimum xs ≤ x := by
  have hmin : (Scalar.min : Rat → Rat → Rat) = min := by
    funext a b
    exact ((min_comm a b).trans (min_def_lt b a)).symm
  obtain ⟨x, xs, rfl⟩ := List.exists_cons_of_ne_nil h
  refine List.min?_eq_some_iff.1 ?_
  rw [Scalar.minimum, hmin, List.min?_cons']

theorem maximum_spec {xs : List Rat} (h : xs ≠ []) :
    Scalar.maximum xs ∈ xs ∧ ∀ x ∈ xs, x ≤ Scalar.maximum xs := by
  have hmax : (Scalar.max : Rat → Rat → Rat) = max := by
    funext a b
    exact (max_def_lt a b).symm
  obtain ⟨x, xs, rfl⟩ := List.exists_cons_of_ne_nil h
  refine List.max?_eq_some_iff.1 ?_
  rw [Scalar.maximum, hmax, List.max?_cons']

namespace Rect

/-- The rectangle grown by a margin on every side. -/
def grown {α : Type} [Scalar α] (r : Rect α) (margin : α) : Rect α :=
  ⟨r.x - margin, r.y - margin, r.width + 2 * margin, r.height + 2 * margin⟩

theorem contains_iff {r s : Rect Rat} :
    r.contains s = true ↔ r.left ≤ s.left ∧ s.right ≤ r.right ∧ r.top ≤ s.top ∧ s.bottom ≤ r.bottom := by
  unfold contains
  simp only [Bool.and_eq_true, decide_eq_true_eq, and_assoc]

/-- A rectangle contains another one with a margin if each of its sides keeps the margin from the other's. -/
theorem contains_grown_iff {r s : Rect Rat} {margin : Rat} :
    r.contains (s.grown margin) = true ↔ r.left + margin ≤ s.left ∧ s.right + margin ≤ r.right ∧
      r.top + margin ≤ s.top ∧ s.bottom + margin ≤ r.bottom := by
  rw [contains_iff]
  unfold grown left right top bottom
  constructor
  · rintro ⟨hleft, hright, htop, hbottom⟩
    refine ⟨?_, ?_, ?_, ?_⟩ <;> linarith
  · rintro ⟨hleft, hright, htop, hbottom⟩
    refine ⟨?_, ?_, ?_, ?_⟩ <;> linarith

/-- The margins of rectangles inside each other add up. -/
theorem contains_grown_trans {r s t : Rect Rat} {m m' : Rat} (hs : r.contains (s.grown m) = true)
    (ht : s.contains (t.grown m') = true) : r.contains (t.grown (m + m')) = true := by
  rw [contains_grown_iff] at hs ht ⊢
  obtain ⟨hleft, hright, htop, hbottom⟩ := hs
  obtain ⟨hleft', hright', htop', hbottom'⟩ := ht
  refine ⟨?_, ?_, ?_, ?_⟩ <;> linarith

theorem contains_antisymm {r s : Rect Rat} (hrs : r.contains s = true) (hsr : s.contains r = true) : r = s := by
  obtain ⟨rx, ry, rw, rh⟩ := r
  obtain ⟨sx, sy, sw, sh⟩ := s
  rw [contains_iff] at hrs hsr
  unfold left right top bottom at hrs hsr
  obtain ⟨hleft, hright, htop, hbottom⟩ := hrs
  obtain ⟨hleft', hright', htop', hbottom'⟩ := hsr
  simp only at *
  have hx : rx = sx := by linarith
  have hy : ry = sy := by linarith
  have hwidth : rw = sw := by linarith
  have hheight : rh = sh := by linarith
  rw [hx, hy, hwidth, hheight]

end Rect

/-- The box is the smallest rectangle that contains some rectangles, each grown by the margin. -/
structure IsHull (margin : Rat) (rects : List (Rect Rat)) (box : Rect Rat) : Prop where
  contains_grown : ∀ r ∈ rects, box.contains (r.grown margin) = true
  least : ∀ s : Rect Rat, (∀ r ∈ rects, s.contains (r.grown margin) = true) → s.contains box = true

theorem IsHull.unique {margin : Rat} {rects : List (Rect Rat)} {box box' : Rect Rat} (h : IsHull margin rects box)
    (h' : IsHull margin rects box') : box = box' :=
  Rect.contains_antisymm (h'.least box h.contains_grown) (h.least box' h'.contains_grown)

/-- The box is a hull if its sides are the extreme ones among the sides of the rectangles, moved by the margin. -/
private theorem isHull_of_extremes {margin : Rat} {rects : List (Rect Rat)} {left top right bottom : Rat}
    (hleft : left ∈ rects.map Rect.left ∧ ∀ x ∈ rects.map Rect.left, left ≤ x)
    (htop : top ∈ rects.map Rect.top ∧ ∀ y ∈ rects.map Rect.top, top ≤ y)
    (hright : right ∈ rects.map Rect.right ∧ ∀ x ∈ rects.map Rect.right, x ≤ right)
    (hbottom : bottom ∈ rects.map Rect.bottom ∧ ∀ y ∈ rects.map Rect.bottom, y ≤ bottom) :
    IsHull margin rects
      ⟨left - margin, top - margin, (right - left) + 2 * margin, (bottom - top) + 2 * margin⟩ where
  contains_grown r hr := by
    have h₁ := hleft.2 r.left (List.mem_map_of_mem hr)
    have h₂ := hright.2 r.right (List.mem_map_of_mem hr)
    have h₃ := htop.2 r.top (List.mem_map_of_mem hr)
    have h₄ := hbottom.2 r.bottom (List.mem_map_of_mem hr)
    rw [Rect.contains_grown_iff]
    simp only [Rect.left, Rect.right, Rect.top, Rect.bottom] at h₁ h₂ h₃ h₄ ⊢
    refine ⟨?_, ?_, ?_, ?_⟩ <;> linarith
  least s hs := by
    obtain ⟨r₁, hr₁, rfl⟩ := List.mem_map.1 hleft.1
    obtain ⟨r₂, hr₂, rfl⟩ := List.mem_map.1 hright.1
    obtain ⟨r₃, hr₃, rfl⟩ := List.mem_map.1 htop.1
    obtain ⟨r₄, hr₄, rfl⟩ := List.mem_map.1 hbottom.1
    have h₁ := (Rect.contains_grown_iff.1 (hs r₁ hr₁)).1
    have h₂ := (Rect.contains_grown_iff.1 (hs r₂ hr₂)).2.1
    have h₃ := (Rect.contains_grown_iff.1 (hs r₃ hr₃)).2.2.1
    have h₄ := (Rect.contains_grown_iff.1 (hs r₄ hr₄)).2.2.2
    rw [Rect.contains_iff]
    simp only [Rect.left, Rect.right, Rect.top, Rect.bottom] at h₁ h₂ h₃ h₄ ⊢
    refine ⟨?_, ?_, ?_, ?_⟩ <;> linarith

theorem isHull_of_boundingBox? {margin : Rat} {rects : List (Rect Rat)} {box : Rect Rat}
    (h : boundingBox? margin rects = some box) : IsHull margin rects box := by
  unfold boundingBox? at h
  split at h
  · cases h
  · next hrects =>
    obtain rfl := Option.some.inj h
    have hne : ∀ side : Rect Rat → Rat, rects.map side ≠ [] := fun side => by simpa using hrects
    exact isHull_of_extremes (minimum_spec (hne _)) (minimum_spec (hne _)) (maximum_spec (hne _))
      (maximum_spec (hne _))

end Flowchart
