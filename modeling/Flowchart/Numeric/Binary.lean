import Flowchart.Numeric.Rounding

/-!
# Binary floating point

A finite double is a whole number times a power of two. `Binary.ofFloat` takes a double apart into these two,
and `Binary.nearest` gives the double nearest to a quotient of whole numbers, so that what has to be rounded
correctly can be computed exactly and rounded once.
-/

namespace Flowchart

/-- A double as its value: `mantissa * 2 ^ exponent` with a sign, or no finite number. -/
inductive Binary where
  | notANumber
  | infinite (negative : Bool)
  | finite (negative : Bool) (mantissa : Nat) (exponent : Int)
deriving DecidableEq, Repr

namespace Binary

/-- The exponent of the smallest positive double. -/
def leastExponent : Int := -1074

def ofFloat (x : Float) : Binary :=
  let bits := x.toBits.toNat
  let negative := decide (twoTo 63 ≤ bits)
  let field := bits / twoTo 52 % twoTo 11
  let fraction := bits % twoTo 52
  if field = 2047 then
    if fraction = 0 then infinite negative else notANumber
  else if field = 0 then finite negative fraction leastExponent
  else finite negative (twoTo 52 + fraction) (leastExponent + (field - 1 : Nat))

/-- `num / den * 2 ^ -exponent` as a quotient of whole numbers. -/
def scale (num den : Nat) (exponent : Int) : Nat × Nat :=
  (num * twoTo (-exponent).toNat, den * twoTo exponent.toNat)

/-- The exponent at which `num / den` has 53 binary digits, or the least exponent if that is larger. -/
def unitExponent (num den : Nat) : Int :=
  let low : Int := (Nat.log2 num : Int) - Nat.log2 den - 53
  let (n, d) := scale num den low
  let fitted := if twoTo 53 * d ≤ n then low + 1 else low
  if fitted < leastExponent then leastExponent else fitted

def signBit (negative : Bool) : Nat :=
  if negative then twoTo 63 else 0

/-- The double nearest to `num / den`, a half going to the even neighbour and what is too large to infinity. -/
def nearest (negative : Bool) (num den : Nat) : Float :=
  let magnitude : Nat :=
    if num = 0 then 0
    else
      let exponent := unitExponent num den
      let (n, d) := scale num den exponent
      let mantissa := roundQuotient n d
      let (mantissa, exponent) :=
        if mantissa = twoTo 53 then (twoTo 52, exponent + 1) else (mantissa, exponent)
      if 971 < exponent then 2047 * twoTo 52
      else if mantissa < twoTo 52 then mantissa
      else (exponent - leastExponent + 1).toNat * twoTo 52 + (mantissa - twoTo 52)
  Float.ofBits (UInt64.ofNat (signBit negative + magnitude))

/-- The double nearest to `mantissa * 10 ^ exponent`. -/
def nearestDecimal (negative : Bool) (mantissa : Nat) (exponent : Int) : Float :=
  if mantissa = 0 then nearest negative 0 1
  else
    let size : Int := (Nat.log2 mantissa : Int) * 30103 / 100000 + exponent
    if 400 < size then nearest negative (twoTo 1100) 1
    else if size < -400 then nearest negative 0 1
    else nearest negative (mantissa * tenTo exponent.toNat) (tenTo (-exponent).toNat)

end Binary

end Flowchart
