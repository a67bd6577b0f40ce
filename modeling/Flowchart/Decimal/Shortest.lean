import Flowchart.Decimal.Digits

/-!
# Shortest digits that read back

The double `mantissa * 2 ^ exponent` is the nearest one to every number of an interval around it. Of the decimal
numbers in this interval, those with the fewest digits are the shortest names of the double, and the nearest of
these is taken. Everything is measured in quarters of the last binary place, so that both ends of the interval
are whole.
-/

namespace Flowchart.Decimal

/-- Numbers that round to one double, in quarters of its last place: from `low` to `high`, with or without the
ends. -/
structure Basin where
  low : Nat
  centre : Nat
  high : Nat
  closed : Bool
deriving DecidableEq, Repr

/-- Below a power of two the next double is twice as close. -/
def Basin.of (mantissa : Nat) (isLeast : Bool) : Basin where
  low := if mantissa = twoTo 52 ∧ ¬ isLeast then 4 * mantissa - 1 else 4 * mantissa - 2
  centre := 4 * mantissa
  high := 4 * mantissa + 2
  closed := mantissa % 2 = 0

/-- Whether `n / d` lies in the basin. -/
def Basin.has (b : Basin) (n d : Nat) : Bool :=
  if b.closed then decide (b.low * d ≤ n ∧ n ≤ b.high * d)
  else decide (b.low * d < n ∧ n < b.high * d)

/-- The multiple of `step / unit` nearest to the basin's centre that lies in the basin. -/
private def Basin.pick? (b : Basin) (step unit : Nat) : Option Nat :=
  let below := b.centre * unit / step
  let above := below + 1
  let lowFits := b.has (below * step) unit
  let highFits := b.has (above * step) unit
  if lowFits && highFits then
    let toLow := b.centre * unit - below * step
    let toHigh := above * step - b.centre * unit
    if toLow < toHigh then some below
    else if toHigh < toLow then some above
    else if below % 2 = 0 then some below
    else some above
  else if lowFits then some below
  else if highFits then some above
  else none

/-- The first of the digit counts from `count` on for which a decimal number lies in the basin. -/
private def Basin.search (b : Basin) (exponent2 leading : Int) (count : Nat) : Nat → Digits
  | 0 => Digits.ofMantissa 0 count leading
  | more + 1 =>
    let place := leading - count + 1
    -- one unit in the place, in quarters of the last binary place, as a quotient
    let step := tenTo place.toNat * twoTo (2 - exponent2).toNat
    let unit := tenTo (-place).toNat * twoTo (exponent2 - 2).toNat
    match b.pick? step unit with
    | some mantissa => Digits.ofMantissa mantissa count leading
    | none => b.search exponent2 leading (count + 1) more

/-- The shortest digits that read back as the double `mantissa * 2 ^ exponent`; 17 are always enough. -/
def Digits.shortest (mantissa : Nat) (exponent : Int) : Digits :=
  if mantissa = 0 then ⟨['0'], 0⟩
  else
    let (num, den) := binaryQuotient mantissa exponent
    let leading := leadingExponent num den
    (Basin.of mantissa (exponent = -1074)).search exponent leading 1 17

example : Digits.shortest 7205759403792794 (-56) = ⟨['1'], -1⟩ := by decide +kernel

example : Digits.shortest 1 (-1074) = ⟨['5'], -324⟩ := by decide +kernel

end Flowchart.Decimal
