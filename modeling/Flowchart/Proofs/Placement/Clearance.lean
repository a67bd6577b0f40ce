import Flowchart.Proofs.Numeric.Rational
import Flowchart.Proofs.Placement.Failing

/-!
# Clearance in exact coordinates

Rectangles are clear of each other if there is a gap between them along one of the axes and their centres lie far
enough apart along that axis (`clear_of_gap_x`, `clear_of_gap_y`). Of lengths nothing more is asked for than that no
displacement is shorter than its extent along an axis (`SpanningLengths`).

In exact coordinates a board can be set up with any nodes (`exists_ofNodes`).
-/

namespace Flowchart

/-- No displacement is shorter than its extent along either axis. -/
structure SpanningLengths [Trigonometry Rat] : Prop where
  abs_dx_le : ∀ dx dy : Rat, |dx| ≤ Trigonometry.hypot dx dy
  abs_dy_le : ∀ dx dy : Rat, |dy| ≤ Trigonometry.hypot dx dy

theorem spanningLengths_axisParallel : @SpanningLengths axisParallel := by
  refine @SpanningLengths.mk axisParallel (fun dx dy => ?_) (fun dx dy => ?_)
  · rw [hypot_axisParallel]
    linarith [abs_nonneg dy]
  · rw [hypot_axisParallel]
    linarith [abs_nonneg dx]

namespace Placement

section Clear

variable [Trigonometry Rat] (hlengths : SpanningLengths) {config : Config Rat} {r s : Rect Rat}
include hlengths

/-- Rectangles with a gap between them along the x axis. -/
theorem clear_of_gap_x (hgap : r.right < s.left ∨ s.right < r.left)
    (hcenters : config.minSpacing * config.proximity ≤ |r.center.x - s.center.x|) : Clear config r s where
  not_overlaps := by
    unfold Rect.overlaps
    rcases hgap with h | h <;> simp [h]
  not_close := not_lt.2 (hcenters.trans (hlengths.abs_dx_le _ _))

/-- Rectangles with a gap between them along the y axis. -/
theorem clear_of_gap_y (hgap : r.bottom < s.top ∨ s.bottom < r.top)
    (hcenters : config.minSpacing * config.proximity ≤ |r.center.y - s.center.y|) : Clear config r s where
  not_overlaps := by
    unfold Rect.overlaps
    rcases hgap with h | h <;> simp [h]
  not_close := not_lt.2 (hcenters.trans (hlengths.abs_dy_le _ _))

end Clear

theorem Board.exists_ofNodes (config : Config Rat) (nodes : List (Node Rat)) :
    ∃ b, Board.ofNodes config nodes = .ok b := by
  cases h : Board.ofNodes config nodes with
  | ok b => exact ⟨b, rfl⟩
  | error cause =>
    obtain ⟨n, -, v, -, -, hround⟩ := exists_offGrid_of_ofNodes h
    cases hround

end Placement

end Flowchart
