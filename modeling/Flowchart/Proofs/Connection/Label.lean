import Flowchart.Connection.Route
import Flowchart.Proofs.Geometry.Plane

/-!
# Labels

In exact coordinates the label of a route that was not drawn by hand sits midway between the ends of the route,
whatever its shape (`labelPosition?_buildPath`, `label_midway`). A curve passes there at one half whatever its
curvature. The way that turns twice has a middle part between two parts of equal length
(`Polyline.midpoint?_turning`), so half of the length is used up in the middle of the middle part, or where the first
part ends if there is no middle part.
-/

namespace Flowchart

theorem Point.between_self {p : Point Rat} (ratio : Rat) : p.between p ratio = p := by
  simp [Point.between]

namespace Polyline

variable [Trigonometry Rat] {p a b q : Point Rat} {u v : Rat}

theorem midpoint?_segment (hlength : 0 ≤ p.distance q) (hzero : p.distance q = 0 → p = q) :
    midpoint? [p, q] = some (p.between q (1 / 2)) := by
  have htotal : Scalar.sum (lengths [p, q]) = p.distance q := zero_add _
  unfold midpoint?
  simp only [htotal, segments]
  by_cases hsame : p.distance q = 0
  · rw [if_pos (by simpa using hsame), hzero hsame, Point.between_self]
  · have hpos : 0 < p.distance q := lt_of_le_of_ne hlength (Ne.symm hsame)
    have hratio : p.distance q / 2 / p.distance q = 1 / 2 := by field_simp
    have halong : along? (p.distance q / 2) [(p, q)] = some (p.between q (1 / 2)) := by
      rw [along?, if_pos ⟨by linarith, hpos⟩, hratio]
    rw [if_neg (by simpa using hsame), halong, Option.some_or]

/-- Half of the length of a way that turns twice, with a first and a last part of the same length. -/
theorem midpoint?_turning (hfirst : p.distance a = u) (hmiddle : a.distance b = v) (hlast : b.distance q = u)
    (hu : 0 ≤ u) (hv : 0 ≤ v) :
    midpoint? [p, a, b, q] = some (if 0 < v then a.between b (1 / 2) else if 0 < u then a else p) := by
  have htotal : Scalar.sum (lengths [p, a, b, q]) = u + v + u := by
    change 0 + p.distance a + a.distance b + b.distance q = u + v + u
    rw [hfirst, hmiddle, hlast, zero_add]
  unfold midpoint?
  simp only [htotal, segments]
  by_cases hmid : 0 < v
  · have hratio : v / 2 / v = 1 / 2 := by field_simp
    have hrest : (u + v + u) / 2 - u = v / 2 := by ring
    have halong : along? ((u + v + u) / 2) [(p, a), (a, b), (b, q)] = some (a.between b (1 / 2)) := by
      rw [along?, hfirst, if_neg (fun h => by linarith [h.1]), along?, hmiddle, hrest,
        if_pos ⟨by linarith, hmid⟩, hratio]
    rw [if_neg (by simp; linarith), halong, if_pos hmid, Option.some_or]
  · obtain rfl : v = 0 := by linarith
    by_cases hends : 0 < u
    · have hratio : (u + 0 + u) / 2 / u = 1 := by field_simp; ring
      have halong : along? ((u + 0 + u) / 2) [(p, a), (a, b), (b, q)] = some (p.between a 1) := by
        rw [along?, hfirst, if_pos ⟨by linarith, hends⟩, hratio]
      have hend : p.between a 1 = a := by simp [Point.between]
      rw [if_neg (by simp; linarith), halong, hend, if_neg (lt_irrefl 0), if_pos hends, Option.some_or]
    · obtain rfl : u = 0 := by linarith
      simp

end Polyline

/-- The middle of a curve, whatever its curvature. -/
theorem cubicPoint_half (p q : Point Rat) (c : Rat) :
    cubicPoint p ⟨p.x + (q.x - p.x) * c, p.y⟩ ⟨p.x + (q.x - p.x) * (1 - c), q.y⟩ q 0.5 = p.between q (1 / 2) := by
  have hhalf : Scalar.clampUnit (0.5 : Rat) = 1 / 2 := by decide +kernel
  unfold cubicPoint Point.between
  rw [hhalf]
  refine congrArg₂ Point.mk ?_ ?_ <;> ring

section

variable [Trigonometry Rat] (hlengths : ExactLengths) (p q : Point Rat)
include hlengths

/-- The way that turns halfway between two points, first along the x axis. -/
theorem midpoint?_elbow : Polyline.midpoint? [p, ⟨(p.x + q.x) / 2, p.y⟩, ⟨(p.x + q.x) / 2, q.y⟩, q] =
    some (p.between q (1 / 2)) := by
  have hfirst : p.distance ⟨(p.x + q.x) / 2, p.y⟩ = |p.x - (p.x + q.x) / 2| := by
    rw [Point.distance, sub_self, hlengths.along_x]
  have hmiddle : Point.distance ⟨(p.x + q.x) / 2, p.y⟩ ⟨(p.x + q.x) / 2, q.y⟩ = |p.y - q.y| := by
    rw [Point.distance, sub_self, hlengths.along_y]
  have hlast : Point.distance ⟨(p.x + q.x) / 2, q.y⟩ q = |p.x - (p.x + q.x) / 2| := by
    have hhalf : (p.x + q.x) / 2 - q.x = p.x - (p.x + q.x) / 2 := by ring
    rw [Point.distance, sub_self, hlengths.along_x, hhalf]
  rw [Polyline.midpoint?_turning hfirst hmiddle hlast (abs_nonneg _) (abs_nonneg _)]
  congr 1
  unfold Point.between
  split
  · refine congrArg₂ Point.mk ?_ ?_ <;> ring
  · next hlevel =>
    have hy : p.y - q.y = 0 := abs_nonpos_iff.1 (not_lt.1 hlevel)
    split
    · refine congrArg₂ Point.mk ?_ ?_ <;> linarith
    · next hshort =>
      have hx : p.x - (p.x + q.x) / 2 = 0 := abs_nonpos_iff.1 (not_lt.1 hshort)
      refine congrArg₂ Point.mk ?_ ?_ <;> linarith

theorem labelPosition?_buildPath (style : Term PathStyle) (curvature : Rat) :
    labelPosition? (buildPath p q style curvature) style = some (p.between q (1 / 2)) := by
  match style with
  | .known .straight =>
    refine Polyline.midpoint?_segment (hlengths.nonneg _ _) fun hzero => ?_
    obtain ⟨hx, hy⟩ := hlengths.eq_zero _ _ hzero
    exact congrArg₂ Point.mk (sub_eq_zero.1 hx) (sub_eq_zero.1 hy)
  | .known .curved => exact congrArg some (cubicPoint_half p q _)
  | .known .elbow => exact midpoint?_elbow hlengths p q
  | .foreign _ => exact midpoint?_elbow hlengths p q

/-- In exact coordinates the label of a route that was not drawn by hand sits midway between its two anchors, whatever
its shape and also where the anchors coincide or lie on one line along an axis. -/
theorem label_midway (style : Term PathStyle) (curvature : Rat) :
    labelPosition? (buildPath p q style curvature) style = some ⟨(p.x + q.x) / 2, (p.y + q.y) / 2⟩ ∧
      (⟨p, q, [], style, curvature, false⟩ : Route Rat).labelPosition? =
        some ⟨(p.x + q.x) / 2, (p.y + q.y) / 2⟩ := by
  have hmiddle : p.between q (1 / 2) = ⟨(p.x + q.x) / 2, (p.y + q.y) / 2⟩ := by
    refine congrArg₂ Point.mk ?_ ?_ <;> ring
  have hlabel := labelPosition?_buildPath hlengths p q style curvature
  rw [hmiddle] at hlabel
  exact ⟨hlabel, hlabel⟩

end

/-- Anchors at the same height: the middle part of the way that turns has no length, and half of the way ends where it
would turn. -/
theorem label_midway_level :
    ∃ (p q : Point Rat) (style : Term PathStyle), p = ⟨0, 7⟩ ∧ q = ⟨100, 7⟩ ∧ style = .known .elbow ∧
      @ExactLengths compass ∧ buildPath p q style 0.5 = [⟨0, 7⟩, ⟨50, 7⟩, ⟨50, 7⟩, ⟨100, 7⟩] ∧
      @labelPosition? Rat _ compass (buildPath p q style 0.5) style = some ⟨50, 7⟩ := by
  have hmidway := @label_midway compass exactLengths_compass ⟨0, 7⟩ ⟨100, 7⟩ (.known .elbow) 0.5
  have hmiddle : (⟨(0 + 100) / 2, (7 + 7) / 2⟩ : Point Rat) = ⟨50, 7⟩ := by decide +kernel
  rw [hmiddle] at hmidway
  exact ⟨_, _, _, rfl, rfl, rfl, exactLengths_compass, by decide +kernel, hmidway.1⟩

end Flowchart
