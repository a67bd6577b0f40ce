import Flowchart.Numeric.Exact
import Mathlib.Algebra.Order.Field.Rat
import Mathlib.Data.Rat.Lemmas
import Mathlib.Tactic.Linarith
import Mathlib.Tactic.FieldSimp
import Mathlib.Tactic.Ring

/-!
# Exact numbers

A rational is moved into the unit interval (`clampUnit_mem`), in the same order (`clampUnit_mono`). Rounding takes it to
a whole number that is not farther away than a half (`abs_nearestInt_sub_le`). So rounding to two decimals changes it by
at most half of a hundredth (`abs_roundTo_sub_le`) and does not take it past a whole number (`le_roundTo`).
-/

namespace Flowchart

theorem Scalar.clampUnit_mem (x : Rat) : 0 ≤ Scalar.clampUnit x ∧ Scalar.clampUnit x ≤ 1 := by
  unfold clampUnit max min
  constructor <;> split <;> split <;> linarith

theorem Scalar.clampUnit_of_mem {x : Rat} (hx : 0 ≤ x ∧ x ≤ 1) : Scalar.clampUnit x = x := by
  unfold clampUnit max min
  rw [if_neg (not_lt.2 hx.1), if_neg (not_lt.2 hx.2)]

theorem Scalar.clampUnit_eq (x : Rat) : Scalar.clampUnit x = Min.min (Max.max x 0) 1 := by
  have hmax : Scalar.max x 0 = Max.max x 0 := by
    unfold Scalar.max
    split
    · next hneg => exact (max_eq_right hneg.le).symm
    · next hneg => exact (max_eq_left (not_lt.1 hneg)).symm
  unfold clampUnit Scalar.min
  rw [hmax]
  split
  · next habove => exact (min_eq_right habove.le).symm
  · next habove => exact (min_eq_left (not_lt.1 habove)).symm

theorem Scalar.clampUnit_mono {x y : Rat} (h : x ≤ y) : Scalar.clampUnit x ≤ Scalar.clampUnit y := by
  rw [clampUnit_eq, clampUnit_eq]
  exact min_le_min_right 1 (max_le_max_right 0 h)

theorem Scalar.clampUnit_of_nonpos {x : Rat} (h : x ≤ 0) : Scalar.clampUnit x = 0 := by
  rw [clampUnit_eq, max_eq_right h, min_eq_left zero_le_one]

theorem Scalar.clampUnit_of_one_le {x : Rat} (h : 1 ≤ x) : Scalar.clampUnit x = 1 := by
  rw [clampUnit_eq, max_eq_left (zero_le_one.trans h), min_eq_right h]

/-- Lengths and angles of displacements along one of the axes. -/
@[reducible] def axisParallel : Trigonometry Rat where
  hypot dx dy := Scalar.abs dx + Scalar.abs dy
  bearing dx dy := if dx < 0 then 180 else if dy < 0 then -90 else if 0 < dy then 90 else 0
  cosine a := if a = 0 then 1 else if a = 180 then -1 else 0
  sine a := if a = 90 then 1 else if a = 270 then -1 else 0

theorem Scalar.abs_eq_abs (q : Rat) : Scalar.abs q = |q| := by
  unfold Scalar.abs
  split
  · next hneg => exact (abs_of_neg hneg).symm
  · next hneg => exact (abs_of_nonneg (not_lt.1 hneg)).symm

theorem hypot_axisParallel (dx dy : Rat) : @Trigonometry.hypot Rat axisParallel dx dy = |dx| + |dy| := by
  rw [← Scalar.abs_eq_abs, ← Scalar.abs_eq_abs]
  rfl

/-- A quotient is rounded by at most a half. -/
private theorem two_mul_roundQuotient (num : Nat) {den : Nat} (hden : 0 < den) :
    2 * roundQuotient num den * den ≤ 2 * num + den ∧ 2 * num ≤ 2 * roundQuotient num den * den + den := by
  have hdiv := Nat.div_add_mod num den
  have hlt := Nat.mod_lt num hden
  have hexpand : 2 * (num / den + 1) * den = 2 * (den * (num / den)) + 2 * den := by ring
  have hexpand' : 2 * (num / den) * den = 2 * (den * (num / den)) := by ring
  unfold roundQuotient
  simp only
  split
  · omega
  · split
    · omega
    · split <;> omega

private theorem abs_roundQuotient_sub_le (num : Nat) {den : Nat} (hden : 0 < den) :
    |(roundQuotient num den : Rat) - num / den| ≤ 1 / 2 := by
  obtain ⟨hupper, hlower⟩ := two_mul_roundQuotient num hden
  have hupper' : (2 * roundQuotient num den * den : Rat) ≤ 2 * num + den := by exact_mod_cast hupper
  have hlower' : (2 * num : Rat) ≤ 2 * roundQuotient num den * den + den := by exact_mod_cast hlower
  have hpos : (0 : Rat) < den := by exact_mod_cast hden
  have hnum : (num : Rat) = num / den * den := by field_simp
  rw [abs_le]
  constructor
  · refine le_of_mul_le_mul_right ?_ hpos
    linarith
  · refine le_of_mul_le_mul_right ?_ hpos
    linarith

theorem abs_nearestInt_sub_le (q : Rat) : |(nearestInt q : Rat) - q| ≤ 1 / 2 := by
  have hround := abs_roundQuotient_sub_le q.num.natAbs q.den_pos
  have hq : (q.num : Rat) / q.den = q := q.num_div_den
  unfold nearestInt roundQuotientSigned
  by_cases hneg : q.num < 0
  · have hnum : (q.num.natAbs : Rat) = -q.num := by
      rw [Nat.cast_natAbs, abs_of_neg hneg]
      push_cast
      rfl
    rw [hnum, neg_div, hq, ← abs_neg] at hround
    rw [if_pos (by simpa using hneg)]
    push_cast
    convert hround using 2
    ring
  · have hnum : (q.num.natAbs : Rat) = q.num := by
      rw [Nat.cast_natAbs, abs_of_nonneg (by omega)]
    rw [hnum, hq] at hround
    rw [if_neg (by simpa using hneg)]
    exact hround

/-- A number that is not below a whole number is not rounded to one below it. -/
theorem le_nearestInt {k : Int} {q : Rat} (h : k ≤ q) : k ≤ nearestInt q := by
  have hbound := (abs_le.1 (abs_nearestInt_sub_le q)).1
  have hlt : ((k - 1 : Int) : Rat) < nearestInt q := by
    push_cast
    linarith
  have := Int.cast_lt.1 hlt
  omega

theorem nearestInt_intCast (k : Int) : nearestInt k = k := by
  have hbound := abs_le.1 (abs_nearestInt_sub_le k)
  apply le_antisymm
  · have hlt : (nearestInt k : Rat) < ((k + 1 : Int) : Rat) := by
      push_cast
      linarith [hbound.2]
    have := Int.cast_lt.1 hlt
    omega
  · exact le_nearestInt le_rfl

theorem roundTo_two (q : Rat) : Scalar.roundTo 2 q = (nearestInt (q * 100) : Rat) / 100 := rfl

theorem abs_roundTo_sub_le (q : Rat) : |Scalar.roundTo 2 q - q| ≤ 0.005 := by
  have hbound := abs_le.1 (abs_nearestInt_sub_le (q * 100))
  rw [roundTo_two, abs_le]
  constructor <;> linarith

theorem le_roundTo {k : Int} {q : Rat} (h : k ≤ q) : k ≤ Scalar.roundTo 2 q := by
  have hround : k * 100 ≤ nearestInt (q * 100) := le_nearestInt (by push_cast; linarith)
  have hcast : ((k * 100 : Int) : Rat) ≤ nearestInt (q * 100) := Int.cast_le.2 hround
  rw [roundTo_two]
  push_cast at hcast
  linarith

theorem roundTo_intCast (k : Int) : Scalar.roundTo 2 (k : Rat) = k := by
  have hround : nearestInt ((k : Rat) * 100) = k * 100 := by
    rw [← nearestInt_intCast (k * 100)]
    push_cast
    rfl
  rw [roundTo_two, hround]
  push_cast
  ring

end Flowchart
