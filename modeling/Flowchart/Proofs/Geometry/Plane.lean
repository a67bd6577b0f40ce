import Flowchart.Geometry.Rect
import Flowchart.Proofs.Numeric.Field
import Flowchart.Proofs.Numeric.Rational
import Mathlib.Analysis.SpecialFunctions.Complex.Arg

/-!
# Lengths and angles in exact coordinates

Lengths and angles of rational displacements need not be rational, so statements about exact coordinates leave them
open and say what they take for granted: which of the four diagonals an angle lies before (`ExactBearings`), and how
long a displacement along an axis is (`ExactLengths`).

Distances of points in any exact numbers are only said to be distances (`MetricDistances`), as those between points with
real coordinates are (`metricDistances_euclidean`).

Which diagonals an angle lies before can be told from the signs of the sum and the difference of the two coordinates
(`ExactBearings.lt_45` and the three after it).
-/

namespace Flowchart

/-- The angle of a displacement in degrees, above -180 and up to 180, as a real number. -/
noncomputable def exactBearing (dx dy : Rat) : ℝ :=
  Complex.arg ⟨dx, dy⟩ * (180 / Real.pi)

/-- Angles lie before the same diagonals as the exact ones. -/
structure ExactBearings [Trigonometry Rat] : Prop where
  lt_iff_exact : ∀ diagonal ∈ [(-135 : Rat), -45, 45, 135], ∀ dx dy : Rat,
    Trigonometry.bearing dx dy < diagonal ↔ exactBearing dx dy < (diagonal : ℝ)

section Angles

variable {z : ℂ} {θ : ℝ}

/-- The distance of a point from the line with angle `θ` through the origin, by sign. -/
private theorem norm_mul_sin_arg_sub (z : ℂ) (θ : ℝ) :
    ‖z‖ * Real.sin (Complex.arg z - θ) = z.im * Real.cos θ - z.re * Real.sin θ := by
  rw [Real.sin_sub, ← Complex.norm_mul_sin_arg z, ← Complex.norm_mul_cos_arg z]
  ring

private theorem sin_sub_neg_iff (hz : z ≠ 0) (hlow : -Real.pi < Complex.arg z - θ)
    (hhigh : Complex.arg z - θ < Real.pi) : Complex.arg z < θ ↔ z.im * Real.cos θ < z.re * Real.sin θ := by
  have hnorm : 0 < ‖z‖ := norm_pos_iff.2 hz
  have hside := norm_mul_sin_arg_sub z θ
  constructor
  · intro h
    have hsin := Real.sin_neg_of_neg_of_neg_pi_lt (sub_neg.2 h) hlow
    have := mul_neg_of_pos_of_neg hnorm hsin
    linarith
  · intro h
    by_contra hle
    have hsin := Real.sin_nonneg_of_nonneg_of_le_pi (sub_nonneg.2 (not_lt.1 hle)) hhigh.le
    have := mul_nonneg hnorm.le hsin
    linarith

/-- What lies before an angle above zero. -/
private theorem arg_lt_iff_of_pos (hz : z ≠ 0) (hpos : 0 < θ) (hpi : θ < Real.pi) :
    Complex.arg z < θ ↔ z.im < 0 ∨ z.im * Real.cos θ < z.re * Real.sin θ := by
  by_cases him : z.im < 0
  · have harg := Complex.arg_neg_iff.2 him
    exact iff_of_true (harg.trans hpos) (.inl him)
  · have harg := Complex.arg_nonneg_iff.2 (not_lt.1 him)
    have hle := Complex.arg_le_pi z
    rw [sin_sub_neg_iff hz (by linarith) (by linarith)]
    simp [him]

/-- What lies before an angle below zero. -/
private theorem arg_lt_neg_iff_of_pos (hz : z ≠ 0) (hpos : 0 < θ) (hpi : θ < Real.pi) :
    Complex.arg z < -θ ↔ z.im < 0 ∧ z.im * Real.cos θ < -(z.re * Real.sin θ) := by
  by_cases him : z.im < 0
  · have harg := Complex.arg_neg_iff.2 him
    have hlt := Complex.neg_pi_lt_arg z
    rw [sin_sub_neg_iff hz (by linarith) (by linarith), Real.cos_neg, Real.sin_neg, mul_neg]
    simp [him]
  · have harg := Complex.arg_nonneg_iff.2 (not_lt.1 him)
    exact iff_of_false (by linarith) fun h => him h.1

end Angles

variable {dx dy : Rat}

private theorem displacement_ne_zero (h : dx ≠ 0 ∨ dy ≠ 0) : (⟨dx, dy⟩ : ℂ) ≠ 0 := by
  intro hzero
  have hre : (dx : ℝ) = 0 := congrArg Complex.re hzero
  have him : (dy : ℝ) = 0 := congrArg Complex.im hzero
  rcases h with h | h
  · exact h (by exact_mod_cast hre)
  · exact h (by exact_mod_cast him)

private theorem exactBearing_lt_iff (t : ℝ) :
    exactBearing dx dy < t ↔ Complex.arg ⟨dx, dy⟩ < t * (Real.pi / 180) := by
  have hpi := Real.pi_pos
  unfold exactBearing
  rw [← lt_div_iff₀ (by positivity)]
  congr! 1
  field_simp

private theorem scaled_lt_iff {a b : Rat} : (a : ℝ) * (√2 / 2) < b * (√2 / 2) ↔ a < b := by
  have hpos : (0 : ℝ) < √2 / 2 := by positivity
  rw [mul_lt_mul_iff_left₀ hpos]
  exact Rat.cast_lt

theorem exactBearing_lt_45 (h : dx ≠ 0 ∨ dy ≠ 0) : exactBearing dx dy < 45 ↔ dy < 0 ∨ dy < dx := by
  have hpi := Real.pi_pos
  have hangle : (45 : ℝ) * (Real.pi / 180) = Real.pi / 4 := by ring
  rw [exactBearing_lt_iff, hangle, arg_lt_iff_of_pos (displacement_ne_zero h) (by linarith) (by linarith),
    Real.cos_pi_div_four, Real.sin_pi_div_four]
  exact or_congr Rat.cast_lt_zero scaled_lt_iff

theorem exactBearing_lt_neg_45 (h : dx ≠ 0 ∨ dy ≠ 0) : exactBearing dx dy < -45 ↔ dy < 0 ∧ dy < -dx := by
  have hpi := Real.pi_pos
  have hangle : (-45 : ℝ) * (Real.pi / 180) = -(Real.pi / 4) := by ring
  rw [exactBearing_lt_iff, hangle, arg_lt_neg_iff_of_pos (displacement_ne_zero h) (by linarith) (by linarith),
    Real.cos_pi_div_four, Real.sin_pi_div_four, ← neg_mul, ← Rat.cast_neg]
  exact and_congr Rat.cast_lt_zero scaled_lt_iff

/-- The steep diagonals lead to the left. -/
private theorem cos_sin_steep : Real.cos (Real.pi - Real.pi / 4) = -(√2 / 2) ∧
    Real.sin (Real.pi - Real.pi / 4) = √2 / 2 := by
  rw [Real.cos_pi_sub, Real.sin_pi_sub, Real.cos_pi_div_four, Real.sin_pi_div_four]
  exact ⟨rfl, rfl⟩

theorem exactBearing_lt_135 (h : dx ≠ 0 ∨ dy ≠ 0) : exactBearing dx dy < 135 ↔ dy < 0 ∨ -dy < dx := by
  have hpi := Real.pi_pos
  have hangle : (135 : ℝ) * (Real.pi / 180) = Real.pi - Real.pi / 4 := by ring
  rw [exactBearing_lt_iff, hangle, arg_lt_iff_of_pos (displacement_ne_zero h) (by linarith) (by linarith),
    cos_sin_steep.1, cos_sin_steep.2, mul_neg, ← neg_mul, ← Rat.cast_neg]
  exact or_congr Rat.cast_lt_zero scaled_lt_iff

theorem exactBearing_lt_neg_135 (h : dx ≠ 0 ∨ dy ≠ 0) : exactBearing dx dy < -135 ↔ dy < 0 ∧ dx < dy := by
  have hpi := Real.pi_pos
  have hangle : (-135 : ℝ) * (Real.pi / 180) = -(Real.pi - Real.pi / 4) := by ring
  rw [exactBearing_lt_iff, hangle, arg_lt_neg_iff_of_pos (displacement_ne_zero h) (by linarith) (by linarith),
    cos_sin_steep.1, cos_sin_steep.2, mul_neg, neg_lt_neg_iff]
  exact and_congr Rat.cast_lt_zero scaled_lt_iff

namespace ExactBearings

variable [Trigonometry Rat] (hbearings : ExactBearings)
include hbearings

theorem lt_45 (h : dx ≠ 0 ∨ dy ≠ 0) : Trigonometry.bearing dx dy < 45 ↔ dy < 0 ∨ dy < dx := by
  have hexact := hbearings.lt_iff_exact 45 (by simp) dx dy
  rw [hexact, ← exactBearing_lt_45 h]
  norm_num

theorem lt_neg_45 (h : dx ≠ 0 ∨ dy ≠ 0) : Trigonometry.bearing dx dy < -45 ↔ dy < 0 ∧ dy < -dx := by
  have hexact := hbearings.lt_iff_exact (-45) (by simp) dx dy
  rw [hexact, ← exactBearing_lt_neg_45 h]
  norm_num

theorem lt_135 (h : dx ≠ 0 ∨ dy ≠ 0) : Trigonometry.bearing dx dy < 135 ↔ dy < 0 ∨ -dy < dx := by
  have hexact := hbearings.lt_iff_exact 135 (by simp) dx dy
  rw [hexact, ← exactBearing_lt_135 h]
  norm_num

theorem lt_neg_135 (h : dx ≠ 0 ∨ dy ≠ 0) : Trigonometry.bearing dx dy < -135 ↔ dy < 0 ∧ dx < dy := by
  have hexact := hbearings.lt_iff_exact (-135) (by simp) dx dy
  rw [hexact, ← exactBearing_lt_neg_135 h]
  norm_num

end ExactBearings

/-- Displacements along an axis have their exact lengths. Any other length is only known to be one: it is not negative,
and zero for no displacement but the zero one. -/
structure ExactLengths [Trigonometry Rat] : Prop where
  along_x : ∀ dx : Rat, Trigonometry.hypot dx 0 = |dx|
  along_y : ∀ dy : Rat, Trigonometry.hypot 0 dy = |dy|
  nonneg : ∀ dx dy : Rat, 0 ≤ Trigonometry.hypot dx dy
  eq_zero : ∀ dx dy : Rat, Trigonometry.hypot dx dy = 0 → dx = 0 ∧ dy = 0

/-- Distances are not negative, do not depend on the order of the points, and are zero for equal points only. -/
structure MetricDistances (α : Type) [Scalar α] [Trigonometry α] : Prop where
  nonneg : ∀ p q : Point α, 0 ≤ p.distance q
  symm : ∀ p q : Point α, p.distance q = q.distance p
  eq_zero_iff : ∀ p q : Point α, p.distance q = 0 ↔ p = q

/-- The real numbers, rounded in any way. -/
@[reducible] noncomputable def exactReal (round : ℝ → Except NumberFault Int) (roundTo : Nat → ℝ → ℝ) :
    ExactScalar ℝ where
  ofInt n := .ok n
  round := round
  roundTo := roundTo

/-- Lengths and angles of displacements with real coordinates. -/
@[reducible] noncomputable def euclidean : Trigonometry ℝ where
  hypot dx dy := √(dx ^ 2 + dy ^ 2)
  bearing dx dy := Complex.arg ⟨dx, dy⟩ * (180 / Real.pi)
  cosine a := Real.cos (a * (Real.pi / 180))
  sine a := Real.sin (a * (Real.pi / 180))

theorem metricDistances_euclidean (round : ℝ → Except NumberFault Int) (roundTo : Nat → ℝ → ℝ) :
    @MetricDistances ℝ (exactReal round roundTo).scalar euclidean := by
  let _ := exactReal round roundTo
  let _ := euclidean
  have hdistance : ∀ p q : Point ℝ, p.distance q = √((p.x - q.x) ^ 2 + (p.y - q.y) ^ 2) := fun _ _ => rfl
  refine ⟨fun p q => ?_, fun p q => ?_, fun p q => ?_⟩
  · rw [hdistance]
    exact Real.sqrt_nonneg _
  · rw [hdistance, hdistance]
    congr 1
    ring
  · rw [hdistance, Real.sqrt_eq_zero (by positivity),
      add_eq_zero_iff_of_nonneg (sq_nonneg _) (sq_nonneg _), sq_eq_zero_iff, sq_eq_zero_iff, sub_eq_zero, sub_eq_zero]
    exact ⟨fun h => congrArg₂ Point.mk h.1 h.2, fun h => ⟨congrArg Point.x h, congrArg Point.y h⟩⟩

theorem metricDistances_axisParallel : @MetricDistances Rat _ axisParallel := by
  have hdistance : ∀ p q : Point Rat, @Point.distance Rat _ axisParallel p q = |p.x - q.x| + |p.y - q.y| :=
    fun p q => hypot_axisParallel _ _
  refine @MetricDistances.mk Rat _ axisParallel (fun p q => ?_) (fun p q => ?_) fun p q => ?_
  · rw [hdistance]
    positivity
  · rw [hdistance, hdistance, abs_sub_comm p.x, abs_sub_comm p.y]
  · rw [hdistance, add_eq_zero_iff_of_nonneg (abs_nonneg _) (abs_nonneg _), abs_eq_zero, abs_eq_zero, sub_eq_zero,
      sub_eq_zero]
    exact ⟨fun h => congrArg₂ Point.mk h.1 h.2, fun h => ⟨congrArg Point.x h, congrArg Point.y h⟩⟩

/-! ### A compass -/

/-- The angle of a displacement along one of the axes or of the diagonals. Any other angle is told by the quadrant
between two diagonals in which it lies. -/
def compassBearing (dx dy : Rat) : Rat :=
  if -dx ≤ dy ∧ dy < dx then if dy = -dx then -45 else 0
  else if dx ≤ dy ∧ -dy < dx then if dy = dx then 45 else 90
  else if dy ≤ -dx ∧ dx < dy then if dy = -dx then 135 else if 0 ≤ dy then 180 else -160
  else if dx < -dy then if dy = dx then -135 else -90
  else 0

/-- Lengths of displacements along one of the axes, and angles along the axes and the diagonals. -/
@[reducible] def compass : Trigonometry Rat :=
  { axisParallel with bearing := compassBearing }

theorem exactBearings_compass : @ExactBearings compass := by
  refine @ExactBearings.mk compass fun diagonal hdiagonal dx dy => ?_
  change compassBearing dx dy < diagonal ↔ _
  by_cases hzero : dx = 0 ∧ dy = 0
  · obtain ⟨rfl, rfl⟩ := hzero
    have hexact : exactBearing 0 0 = 0 := by
      have harg : (⟨((0 : Rat) : ℝ), ((0 : Rat) : ℝ)⟩ : ℂ) = 0 := Complex.ext (by simp) (by simp)
      rw [exactBearing, harg, Complex.arg_zero, zero_mul]
    have hcompass : compassBearing 0 0 = 0 := by decide +kernel
    rw [hexact, hcompass]
    exact Rat.cast_pos.symm
  · have h : dx ≠ 0 ∨ dy ≠ 0 := not_and_or.1 hzero
    have h₁ := exactBearing_lt_45 h
    have h₂ := exactBearing_lt_neg_45 h
    have h₃ := exactBearing_lt_135 h
    have h₄ := exactBearing_lt_neg_135 h
    simp only [List.mem_cons, List.not_mem_nil, or_false] at hdiagonal
    unfold compassBearing
    rcases hdiagonal with rfl | rfl | rfl | rfl
    · push_cast
      rw [h₄]
      grind
    · push_cast
      rw [h₂]
      grind
    · push_cast
      rw [h₁]
      grind
    · push_cast
      rw [h₃]
      grind

theorem exactLengths_compass : @ExactLengths compass := by
  have hlength : ∀ dx dy, @Trigonometry.hypot Rat compass dx dy = |dx| + |dy| := hypot_axisParallel
  refine @ExactLengths.mk compass (fun dx => ?_) (fun dy => ?_) (fun dx dy => ?_) fun dx dy h => ?_
  · rw [hlength, abs_zero, add_zero]
  · rw [hlength, abs_zero, zero_add]
  · rw [hlength]
    positivity
  · rw [hlength, add_eq_zero_iff_of_nonneg (abs_nonneg dx) (abs_nonneg dy), abs_eq_zero, abs_eq_zero] at h
    exact h

end Flowchart
