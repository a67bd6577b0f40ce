import Flowchart.Numeric.Scalar
import Flowchart.Numeric.Length

/-!
# Doubles as scalars

The four operations and the comparisons are those of the processor. Conversions and roundings are computed
exactly and rounded once.
-/

namespace Flowchart

namespace Double

def ofInt (n : Int) : Except NumberFault Float :=
  let x := Binary.nearest (decide (n < 0)) n.natAbs 1
  if x.isInf then .error .tooLarge else .ok x

/-- The nearest whole number; a half goes to the even neighbour. -/
def round (x : Float) : Except NumberFault Int :=
  match Binary.ofFloat x with
  | .notANumber => .error .notANumber
  | .infinite _ => .error .infinite
  | .finite negative mantissa exponent =>
    let (num, den) := binaryQuotient mantissa exponent
    .ok (roundQuotientSigned negative num den)

/-- The double nearest to the value rounded to `places` decimals; what is not finite stays as it is. -/
def roundTo (places : Nat) (x : Float) : Float :=
  match Binary.ofFloat x with
  | .finite negative mantissa exponent =>
    let (num, den) := binaryQuotient mantissa exponent
    Binary.nearest negative (roundQuotient (num * tenTo places) den) (tenTo places)
  | _ => x

def pi : Float := 3.141592653589793

end Double

instance : Scalar Float where
  literal _ := inferInstance
  decidableLT := inferInstance
  decidableLE := inferInstance
  ofInt := Double.ofInt
  round := Double.round
  roundTo := Double.roundTo

instance : Trigonometry Float where
  hypot := Double.hypot
  bearing dx dy := Float.atan2 dy dx * (180 / Double.pi)
  cosine a := Float.cos (a * (Double.pi / 180))
  sine a := Float.sin (a * (Double.pi / 180))

end Flowchart
