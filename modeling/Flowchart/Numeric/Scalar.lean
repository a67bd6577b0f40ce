import Flowchart.Sorting

/-!
# Scalars

Coordinates, sizes and offsets are taken from any type that has the four operations, decidable comparisons,
decimal literals and a rounding to whole numbers. Doubles and exact rationals are the two instances. No law is
asked for: a double has a value that differs from itself, and a sum of doubles depends on its order.

The lengths and angles of the plane stand in a class of their own, so that a statement about exact coordinates
can leave them open.
-/

namespace Flowchart

/-- Why a computation on numbers has no answer. -/
inductive NumberFault where
  | notANumber
  | infinite
  | tooLarge
  | zeroDivisor
deriving DecidableEq, Repr

/-- The numbers in which a chart is measured. -/
class Scalar (α : Type) extends
    Add α, Sub α, Mul α, Div α, Neg α, LT α, LE α, BEq α, OfScientific α where
  literal : (n : Nat) → OfNat α n
  decidableLT : DecidableRel (fun a b : α => a < b)
  decidableLE : DecidableRel (fun a b : α => a ≤ b)
  /-- A whole number as a scalar, unless it is too large for one. -/
  ofInt : Int → Except NumberFault α
  /-- The nearest whole number; a half goes to the even neighbour. -/
  round : α → Except NumberFault Int
  /-- The nearest multiple of `10 ^ -places`; a half goes to the even neighbour. -/
  roundTo : (places : Nat) → α → α

attribute [reducible, instance] Scalar.literal Scalar.decidableLT Scalar.decidableLE

/-- Lengths and angles of the plane; angles are in degrees. -/
class Trigonometry (α : Type) where
  /-- The length of a displacement. -/
  hypot : (dx dy : α) → α
  /-- The angle of a displacement, from the positive x axis towards the positive y axis. -/
  bearing : (dx dy : α) → α
  cosine : α → α
  sine : α → α

namespace Scalar

variable {α : Type} [Scalar α]

/-- A small whole number as a scalar. -/
def ofNat (n : Nat) : α :=
  @OfNat.ofNat α n (literal n)

/-- The larger of two numbers; the first one wins where neither is larger. -/
def max (a b : α) : α :=
  if a < b then b else a

/-- The smaller of two numbers; the first one wins where neither is smaller. -/
def min (a b : α) : α :=
  if b < a then b else a

def abs (a : α) : α :=
  if a < 0 then -a else a

/-- The number moved into the interval from 0 to 1. -/
def clampUnit (a : α) : α :=
  min (max a 0) 1

/-- Whether a number is less than infinity: it is negative, or finite and so the same as itself. -/
def belowInfinity (a : α) : Bool :=
  decide (a < 0) || a - a == 0

def quotient (a b : α) : Except NumberFault α :=
  if b == 0 then .error .zeroDivisor else .ok (a / b)

/-- The smallest number of a list; of no numbers, zero. -/
def minimum : List α → α
  | [] => 0
  | x :: xs => xs.foldl min x

/-- The largest number of a list; of no numbers, zero. -/
def maximum : List α → α
  | [] => 0
  | x :: xs => xs.foldl max x

/-- The numbers in rising order. -/
def sorted (xs : List α) : List α :=
  Sorting.sort (fun a b => decide (a < b)) xs

/-- The sum from the left, starting at zero. -/
def sum (xs : List α) : α :=
  xs.foldl (· + ·) 0

end Scalar

end Flowchart
