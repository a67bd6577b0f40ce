import Flowchart.Numeric.Binary
import Flowchart.Text.Blank
import Flowchart.Text.Numeral

/-!
# Reading number texts

A number text has an optional sign and then `inf`, `infinity` or `nan` in either case, or digits with an optional
point and an optional power of ten. A single underscore may stand between two digits. White space around the
text is dropped; in a text of ASCII characters only, the information separators are not white space. Digits of
other scripts count as digits.
-/

namespace Flowchart.Decimal

private def isPlainBlank (c : Char) : Bool :=
  c = ' ' || ('\t' ≤ c && c ≤ '\r')

/-- Blanks and digits from outside ASCII as their plain counterparts. -/
private def plainChar (c : Char) : Char :=
  if c.toNat < 128 then c
  else if Text.isBlank c then ' '
  else
    match Text.digitValue? c with
    | some d => Char.ofNat (48 + d)
    | none => c

private def plain (s : List Char) : List Char :=
  let t := (s.map plainChar).dropWhile isPlainBlank
  (t.reverse.dropWhile isPlainBlank).reverse

/-- The text without its underscores, each of which must stand between two digits. -/
private def dropUnderscores? (previous : Char) : List Char → Option (List Char)
  | [] => if previous = '_' then none else some []
  | '_' :: rest => if previous.isDigit then dropUnderscores? '_' rest else none
  | c :: rest =>
    if previous = '_' ∧ ¬ c.isDigit then none else (dropUnderscores? c rest).map (c :: ·)

/-- The number that the leading digits spell, how many they are, and what follows them. -/
def takeDigits (s : List Char) : Nat × Nat × List Char :=
  let digits := s.takeWhile Char.isDigit
  (digits.foldl (fun n c => 10 * n + (c.toNat - 48)) 0, digits.length, s.dropWhile Char.isDigit)

/-- A sign, if there is one: whether it is a minus, and what follows. -/
def takeSign : List Char → Bool × List Char
  | '-' :: rest => (true, rest)
  | '+' :: rest => (false, rest)
  | s => (false, s)

/-- The power of ten at the end of a number text; no text is the power zero. -/
private def exponent? : List Char → Option Int
  | [] => some 0
  | c :: rest =>
    if c = 'e' ∨ c = 'E' then
      let (negative, body) := takeSign rest
      let (value, count, rest) := takeDigits body
      if count = 0 ∨ ¬ rest.isEmpty then none
      else some (if negative then -(value : Int) else value)
    else none

/-- Digits with an optional point among them and an optional power of ten. -/
def unsigned? (negative : Bool) (s : List Char) : Option Float :=
  let (whole, wholeCount, rest) := takeDigits s
  let (fraction, fractionCount, rest) :=
    match rest with
    | '.' :: rest => takeDigits rest
    | _ => (0, 0, rest)
  if wholeCount + fractionCount = 0 then none
  else
    (exponent? rest).map fun exponent =>
      Binary.nearestDecimal negative (whole * tenTo fractionCount + fraction)
        (exponent - fractionCount)

/-- The double that a number text stands for. -/
def read? (s : List Char) : Option Float := do
  let (negative, body) := takeSign (← dropUnderscores? ' ' (plain s))
  let word := String.ofList (body.map Char.toLower)
  if word = "inf" ∨ word = "infinity" then some (if negative then -1 / 0 else 1 / 0)
  else if word = "nan" then some (0 / 0)
  else unsigned? negative body

end Flowchart.Decimal
