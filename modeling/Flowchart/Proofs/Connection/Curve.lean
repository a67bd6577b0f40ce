import Flowchart.Connection.Route
import Flowchart.Proofs.Numeric.Rational
import Mathlib.Algebra.Order.Ring.Pow

/-!
# Curves from end to end

In exact coordinates a curve leads from the one end of its route to the other within the box between them and never
turns back along either axis (`curve_leads`), whatever its curvature, and also where its inner control points have
changed places. At a parameter it has gone some share of its way along each axis (`cubicPoint_curved`), and both shares
grow from nothing to the whole (`isShare_rise`, `isShare_advance`).
-/

namespace Flowchart

/-- A share that grows from nothing to the whole in the unit interval. -/
structure IsShare (share : Rat → Rat) : Prop where
  zero : share 0 = 0
  one : share 1 = 1
  mono : ∀ s t, 0 ≤ s → s ≤ t → t ≤ 1 → share s ≤ share t

/-- A coordinate that goes from one value to another: it lies between them, and goes up only or down only. -/
structure GoesFrom (x : Rat → Rat) (a b : Rat) : Prop where
  within : ∀ t, min a b ≤ x t ∧ x t ≤ max a b
  rising : a ≤ b → Monotone x
  falling : b ≤ a → Antitone x

namespace IsShare

variable {share : Rat → Rat} (hshare : IsShare share)
include hshare

theorem mem {t : Rat} (ht : 0 ≤ t ∧ t ≤ 1) : 0 ≤ share t ∧ share t ≤ 1 := by
  have hlow := hshare.mono 0 t le_rfl ht.1 ht.2
  have hhigh := hshare.mono t 1 ht.1 ht.2 le_rfl
  rw [hshare.zero] at hlow
  rw [hshare.one] at hhigh
  exact ⟨hlow, hhigh⟩

theorem goesFrom (a b : Rat) : GoesFrom (fun t => a + (b - a) * share (Scalar.clampUnit t)) a b := by
  have hmem : ∀ t, 0 ≤ share (Scalar.clampUnit t) ∧ share (Scalar.clampUnit t) ≤ 1 :=
    fun t => hshare.mem (Scalar.clampUnit_mem t)
  have hmono : ∀ s t, s ≤ t → share (Scalar.clampUnit s) ≤ share (Scalar.clampUnit t) :=
    fun s t hst => hshare.mono _ _ (Scalar.clampUnit_mem s).1 (Scalar.clampUnit_mono hst) (Scalar.clampUnit_mem t).2
  constructor
  · intro t
    rcases le_total a b with h | h
    · have hlow := mul_nonneg (sub_nonneg.2 h) (hmem t).1
      have hhigh := mul_le_of_le_one_right (sub_nonneg.2 h) (hmem t).2
      rw [min_eq_left h, max_eq_right h]
      constructor <;> linarith
    · have hlow := mul_nonneg (sub_nonneg.2 h) (hmem t).1
      have hhigh := mul_le_of_le_one_right (sub_nonneg.2 h) (hmem t).2
      rw [min_eq_right h, max_eq_left h]
      constructor <;> linarith
  · intro h s t hst
    have := mul_le_mul_of_nonneg_left (hmono s t hst) (sub_nonneg.2 h)
    show a + (b - a) * share (Scalar.clampUnit s) ≤ a + (b - a) * share (Scalar.clampUnit t)
    linarith
  · intro h s t hst
    have := mul_le_mul_of_nonneg_left (hmono s t hst) (sub_nonneg.2 h)
    show a + (b - a) * share (Scalar.clampUnit t) ≤ a + (b - a) * share (Scalar.clampUnit s)
    linarith

end IsShare

/-- The share of its way along the y axis that a curve has gone. -/
def rise (t : Rat) : Rat :=
  t * t * (3 - 2 * t)

/-- The share of its way along the x axis that a curve has gone. -/
def advance (curvature t : Rat) : Rat :=
  (1 - curvature) * rise t + curvature * (((2 * t - 1) ^ 3 + 1) / 2)

theorem isShare_rise : IsShare rise := by
  refine ⟨by decide +kernel, by decide +kernel, fun s t hs hst ht => ?_⟩
  have hs' : 0 ≤ 1 - s := by linarith
  have ht₀ : 0 ≤ t := hs.trans hst
  have ht' : 0 ≤ 1 - t := sub_nonneg.2 ht
  have hdifference : rise t - rise s =
      (t - s) * (2 * (s * (1 - s)) + 2 * (t * (1 - t)) + s * (1 - t) + t * (1 - s)) := by
    unfold rise
    ring
  have hgrowth : 0 ≤ (t - s) * (2 * (s * (1 - s)) + 2 * (t * (1 - t)) + s * (1 - t) + t * (1 - s)) :=
    mul_nonneg (sub_nonneg.2 hst) (by positivity)
  linarith

theorem isShare_advance {c : Rat} (hc : 0 ≤ c ∧ c ≤ 1) : IsShare (advance c) := by
  refine ⟨?_, ?_, fun s t hs hst ht => ?_⟩
  · unfold advance
    rw [isShare_rise.zero]
    ring
  · unfold advance
    rw [isShare_rise.one]
    ring
  · have hrise := mul_le_mul_of_nonneg_left (isShare_rise.mono s t hs hst ht) (sub_nonneg.2 hc.2)
    have hcube : (2 * s - 1) ^ 3 ≤ (2 * t - 1) ^ 3 :=
      (Odd.strictMono_pow (by decide)).monotone (by linarith)
    have hblend := mul_le_mul_of_nonneg_left hcube hc.1
    unfold advance
    linarith

/-- A curve leads from one point to another: it goes from the one to the other along both axes, does not leave the one
before its parameter is positive, and stays at the other one from the parameter one on. -/
structure Leads (curve : Rat → Point Rat) (p q : Point Rat) : Prop where
  along_x : GoesFrom (fun t => (curve t).x) p.x q.x
  along_y : GoesFrom (fun t => (curve t).y) p.y q.y
  before : ∀ t ≤ 0, curve t = p
  after : ∀ t, 1 ≤ t → curve t = q

section

variable (p q : Point Rat) (c : Rat)

theorem cubicPoint_curved :
    cubicPoint p ⟨p.x + (q.x - p.x) * c, p.y⟩ ⟨p.x + (q.x - p.x) * (1 - c), q.y⟩ q = fun t =>
      ⟨p.x + (q.x - p.x) * advance c (Scalar.clampUnit t), p.y + (q.y - p.y) * rise (Scalar.clampUnit t)⟩ := by
  funext t
  unfold cubicPoint advance rise
  refine congrArg₂ Point.mk ?_ ?_ <;> ring

theorem leads_curved (hc : 0 ≤ c ∧ c ≤ 1) :
    Leads (cubicPoint p ⟨p.x + (q.x - p.x) * c, p.y⟩ ⟨p.x + (q.x - p.x) * (1 - c), q.y⟩ q) p q := by
  have hadvance := isShare_advance hc
  rw [cubicPoint_curved]
  refine ⟨hadvance.goesFrom p.x q.x, isShare_rise.goesFrom p.y q.y, fun t ht => ?_, fun t ht => ?_⟩
  · rw [Scalar.clampUnit_of_nonpos ht, hadvance.zero, isShare_rise.zero]
    simp
  · rw [Scalar.clampUnit_of_one_le ht, hadvance.one, isShare_rise.one]
    simp

/-- In exact coordinates the curve of a route leads from its one end to the other, whatever its curvature. -/
theorem curve_leads : ∃ a b : Point Rat,
    buildPath p q (.known .curved) c = [p, a, b, q] ∧ Leads (cubicPoint p a b q) p q :=
  ⟨_, _, rfl, leads_curved p q (Scalar.clampUnit c) (Scalar.clampUnit_mem c)⟩

end

end Flowchart
