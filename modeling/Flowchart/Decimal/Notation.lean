import Flowchart.Decimal.Shortest
import Flowchart.Numeric.Binary

/-!
# Number texts

Digits become text in positional notation or with a power of ten. A `Notation` says which powers of ten are
written positionally and whether a whole number keeps a point. Two of them are used: `Notation.full` for numbers
inside messages, with every digit that matters, and `Notation.brief` with twelve significant digits.
-/

namespace Flowchart.Decimal

/-- How digits become text: positionally for a leading power of ten from `least` up to and without `bound`. -/
structure Notation where
  least : Int
  bound : Int
  keepsPoint : Bool
deriving DecidableEq, Repr

namespace Notation

/-- Every digit that matters; a whole number ends in `.0`. -/
def full : Notation := ⟨-4, 16, true⟩

/-- Whole numbers below `10 ^ 12` are written without a point. -/
def brief : Notation := ⟨-4, 12, false⟩

private def zeros (n : Nat) : List Char :=
  List.replicate n '0'

/-- The digits with the point in its place. -/
def positional (s : Notation) (d : Digits) : List Char :=
  if d.exponent < 0 then
    '0' :: '.' :: zeros (-d.exponent - 1).toNat ++ d.digits
  else
    let wholeCount := d.exponent.toNat + 1
    let whole := d.digits.take wholeCount ++ zeros (wholeCount - d.digits.length)
    let fraction := d.digits.drop wholeCount
    if fraction.isEmpty then
      if s.keepsPoint then whole ++ ['.', '0'] else whole
    else whole ++ '.' :: fraction

/-- The power of ten, with a sign and at least two digits. -/
private def powerText (exponent : Int) : List Char :=
  let size := Nat.toDigits 10 exponent.natAbs
  (if exponent < 0 then '-' else '+') :: zeros (2 - size.length) ++ size

/-- One digit before the point, the others behind it, then the power of ten. -/
def scientific (d : Digits) : List Char :=
  let mantissa :=
    match d.digits with
    | [] => []
    | [c] => [c]
    | c :: rest => c :: '.' :: rest
  mantissa ++ 'e' :: powerText d.exponent

def write (s : Notation) (negative : Bool) (d : Digits) : String :=
  let body :=
    if s.least ≤ d.exponent ∧ d.exponent < s.bound then s.positional d else scientific d
  String.ofList (if negative then '-' :: body else body)

end Notation

/-- The text of a double inside a message: the fewest digits that read back. -/
def fullText (x : Float) : String :=
  match Binary.ofFloat x with
  | .notANumber => "nan"
  | .infinite negative => if negative then "-inf" else "inf"
  | .finite negative mantissa exponent =>
    Notation.full.write negative (Digits.shortest mantissa exponent)

/-- The text of a double to twelve significant digits, zero without a sign; none if it is not finite. -/
def briefText? (x : Float) : Option String :=
  match Binary.ofFloat x with
  | .finite negative mantissa exponent =>
    let (num, den) := binaryQuotient mantissa exponent
    some (Notation.brief.write (negative && mantissa != 0) (Digits.significant 12 num den))
  | _ => none

end Flowchart.Decimal
