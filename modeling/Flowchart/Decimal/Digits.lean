import Flowchart.Numeric.Rounding

/-!
# Decimal digits of a quotient

A positive quotient is written as a few digits and the power of ten of the first one. `Digits.significant` takes
a fixed number of digits, rounded to nearest; the digits of a double that read back as the same double are in
`Flowchart.Decimal.Shortest`.
-/

namespace Flowchart.Decimal

/-- The digits `d₁d₂…` for the number `d₁.d₂… * 10 ^ exponent`. -/
structure Digits where
  digits : List Char
  exponent : Int
deriving DecidableEq, Repr

/-- `num / den * 10 ^ -exponent` as a quotient of whole numbers. -/
def scale (num den : Nat) (exponent : Int) : Nat × Nat :=
  (num * tenTo (-exponent).toNat, den * tenTo exponent.toNat)

/-- Whether `10 ^ exponent ≤ num / den`. -/
private def reaches (num den : Nat) (exponent : Int) : Bool :=
  let (n, d) := scale num den exponent
  decide (d ≤ n)

/-- The power of ten of the first digit of `num / den`. The binary logarithms give it up to one. -/
def leadingExponent (num den : Nat) : Int :=
  let guess := ((Nat.log2 num : Int) - Nat.log2 den) * 30103 / 100000
  if reaches num den (guess + 1) then guess + 1
  else if reaches num den guess then guess
  else guess - 1

/-- The digits of a whole number without its final zeros. -/
def trimmedDigits (n : Nat) : List Char :=
  let kept := ((Nat.toDigits 10 n).reverse.dropWhile (· = '0')).reverse
  if kept.isEmpty then ['0'] else kept

namespace Digits

/-- The number `mantissa * 10 ^ (exponent - count + 1)`, whose mantissa has `count` digits or is the next power of
ten. -/
def ofMantissa (mantissa count : Nat) (exponent : Int) : Digits :=
  if tenTo count ≤ mantissa then ⟨['1'], exponent + 1⟩ else ⟨trimmedDigits mantissa, exponent⟩

/-- The quotient rounded to `count` significant digits, final zeros dropped; a half goes to the even neighbour. -/
def significant (count : Nat) (num den : Nat) : Digits :=
  if num = 0 then ⟨['0'], 0⟩
  else
    let exponent := leadingExponent num den
    let (n, d) := scale num den (exponent - count + 1)
    ofMantissa (roundQuotient n d) count exponent

end Digits

example : Digits.significant 3 2 3 = ⟨['6', '6', '7'], -1⟩ := by decide +kernel

example : Digits.significant 2 9995 10 = ⟨['1'], 3⟩ := by decide +kernel

end Flowchart.Decimal
