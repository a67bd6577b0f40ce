import Flowchart.Numeric.Scalar
import Flowchart.Numeric.Rounding
import Flowchart.Numeric.Power

/-!
# Exact scalars

The rationals as scalars: every operation is exact, every whole number is one of them, and rounding never fails.
-/

namespace Flowchart

/-- The whole number nearest to a rational; a half goes to the even neighbour. -/
def nearestInt (q : Rat) : Int :=
  roundQuotientSigned (decide (q.num < 0)) q.num.natAbs q.den

instance : Scalar Rat where
  literal _ := inferInstance
  decidableLT := inferInstance
  decidableLE := inferInstance
  ofInt n := .ok n
  round q := .ok (nearestInt q)
  roundTo places q := nearestInt (q * tenTo places) / tenTo places

example : nearestInt (5 / 2) = 2 ∧ nearestInt (-7 / 2) = -4 ∧ nearestInt (-8 / 3) = -3 := by decide +kernel

end Flowchart
