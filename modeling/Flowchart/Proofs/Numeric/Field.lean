import Mathlib.Algebra.BigOperators.Group.List.Basic
import Mathlib.Algebra.Order.Field.Basic
import Mathlib.Algebra.Order.Field.Rat
import Mathlib.Data.Nat.Cast.Order.Ring
import Mathlib.Data.Rat.Cast.Defs
import Flowchart.Numeric.Exact

/-!
# Exact numbers of any kind

The lengths of rational displacements need not be rational. So a statement about lengths as such is made over any
ordered field (`ExactScalar`), whose operations are then exact: the rationals are one (`scalar_exactRational`), the
real numbers another. How the numbers are rounded is left open.
-/

namespace Flowchart

/-- Scalars that are the numbers of an ordered field. -/
class ExactScalar (α : Type) extends Field α, LinearOrder α, IsStrictOrderedRing α where
  ofInt : Int → Except NumberFault α
  round : α → Except NumberFault Int
  roundTo : (places : Nat) → α → α

namespace ExactScalar

/-- The whole numbers of the field. Zero and one have instances of their own in every field. -/
@[reducible] def literal (α : Type) [ExactScalar α] : (n : Nat) → OfNat α n
  | 0 => inferInstance
  | 1 => inferInstance
  | _ + 2 => inferInstance

instance scalar {α : Type} [ExactScalar α] : Scalar α where
  beq a b := decide (a = b)
  literal := literal α
  decidableLT := inferInstance
  decidableLE := inferInstance
  ofInt := ofInt
  round := round
  roundTo := roundTo

end ExactScalar

/-- The rationals, rounded as they are everywhere. -/
@[reducible] def exactRational : ExactScalar Rat where
  ofInt n := .ok n
  round q := .ok (nearestInt q)
  roundTo := Scalar.roundTo

theorem scalar_exactRational : @ExactScalar.scalar Rat exactRational = instScalarRat := by
  have hliteral : @ExactScalar.literal Rat exactRational = @Scalar.literal Rat instScalarRat := by
    funext n
    match n with
    | 0 => rfl
    | 1 => rfl
    | n + 2 => rfl
  unfold ExactScalar.scalar
  rw [hliteral]
  rfl

namespace Scalar

variable {α : Type} [ExactScalar α]

theorem sum_eq (xs : List α) : Scalar.sum xs = xs.sum := List.sum_eq_foldl.symm

theorem quotient_eq_ok {a b : α} (hb : b ≠ 0) : quotient a b = .ok (a / b) :=
  if_neg (by simpa using hb)

end Scalar

end Flowchart
