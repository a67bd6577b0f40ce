import Flowchart.Numeric.Binary

/-!
# The length of a displacement

The length is the root of the sum of two squares. The sides are brought to a size at which no square overflows,
the squares are added up in parts together with what the additions round away, and the root is corrected by the
difference that is left between the sum and the square of the root. In this way a 3-4-5 triangle has its exact
length. Sides that are too small for this are divided by the longer one, and only the additions are corrected.
-/

namespace Flowchart.Double

/-- The sum of two numbers, and what rounding takes from it if the first one is not the smaller one. -/
private def addWithLoss (a b : Float) : Float × Float :=
  let sum := a + b
  (sum, (a - sum) + b)

/-- The upper 26 binary digits of a number, and the rest. -/
private def splitDigits (x : Float) : Float × Float :=
  let t := x * 134217729
  let high := t - (t - x)
  (high, x - high)

/-- One plus a sum of squares of numbers between -1 and 1, and what the additions of the high, the mixed and the
low parts of the squares have lost. -/
private structure SquareSum where
  onePlusSum : Float
  lostHigh : Float
  lostMixed : Float
  lostLow : Float

namespace SquareSum

private def empty : SquareSum := ⟨1, 0, 0, 0⟩

/-- Adds a square with the sign of `sign`, which is 1 or -1. -/
private def add (s : SquareSum) (sign x : Float) : SquareSum :=
  let (high, low) := splitDigits x
  let (sum, lostHigh) := addWithLoss s.onePlusSum (sign * high * high)
  let (sum, lostMixed) := addWithLoss sum (sign * 2 * high * low)
  let (sum, lostLow) := addWithLoss sum (sign * low * low)
  ⟨sum, s.lostHigh + lostHigh, s.lostMixed + lostMixed, s.lostLow + lostLow⟩

private def value (s : SquareSum) : Float :=
  s.onePlusSum - 1 + (s.lostHigh + s.lostMixed + s.lostLow)

end SquareSum

/-- The length for sides of which the longer one lies below `2 ^ exponent`, but not below half of it. -/
private def hypotScaled (a b : Float) (exponent : Int) : Float :=
  let scale := Binary.nearest false (twoTo (-exponent).toNat) (twoTo exponent.toNat)
  let squares := (SquareSum.empty.add 1 (a * scale)).add 1 (b * scale)
  let root := squares.value.sqrt
  let rest := squares.add (-1) root
  (root + rest.value / (2 * root)) / scale

/-- The length for tiny sides, as a multiple of the longer one. -/
private def hypotTiny (a b longer : Float) : Float :=
  let (sum, lostFirst) := addWithLoss 1 (a / longer * (a / longer))
  let (sum, lostSecond) := addWithLoss sum (b / longer * (b / longer))
  longer * (sum - 1 + (lostFirst + lostSecond)).sqrt

/-- The length for finite sides of which the longer one is `mantissa * 2 ^ exponent`. -/
private def hypotFinite (a b longer : Float) (mantissa : Nat) (exponent : Int) : Float :=
  let exponent := exponent + Nat.log2 mantissa + 1
  if mantissa = 0 then 0
  else if exponent < -1023 then hypotTiny a b longer
  else hypotScaled a b exponent

/-- The length of a displacement; an infinite side makes it infinite even beside a side that is no number. -/
def hypot (dx dy : Float) : Float :=
  let longer := if dx.abs < dy.abs then dy.abs else dx.abs
  match Binary.ofFloat dx, Binary.ofFloat dy, Binary.ofFloat longer with
  | .infinite _, _, _ => 1 / 0
  | _, .infinite _, _ => 1 / 0
  | .finite .., .finite .., .finite _ mantissa exponent => hypotFinite dx.abs dy.abs longer mantissa exponent
  | _, _, _ => 0 / 0

end Flowchart.Double
