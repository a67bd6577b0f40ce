import Flowchart.Data.Value
import Flowchart.Decimal.Reader

/-!
# Reading data values

A reader of the JSON grammar. A number without a point and a power of ten is whole; a repeated key keeps its
first place and its last value. Each step of the reader consumes at least one character, so the number of
characters bounds the number of steps.
-/

namespace Flowchart.Value

private def isSpace (c : Char) : Bool :=
  c = ' ' || c = '\n' || c = '\r' || c = '\t'

private def skipSpace (s : List Char) : List Char :=
  s.dropWhile isSpace

private def hexValue? (c : Char) : Option Nat :=
  if c.isDigit then some (c.toNat - 48)
  else if 'a' ≤ c ∧ c ≤ 'f' then some (c.toNat - 87)
  else if 'A' ≤ c ∧ c ≤ 'F' then some (c.toNat - 55)
  else none

private def hexCode? : List Char → Option (Nat × List Char)
  | a :: b :: c :: d :: rest => do
    let code := (((← hexValue? a) * 16 + (← hexValue? b)) * 16 + (← hexValue? c)) * 16 + (← hexValue? d)
    some (code, rest)
  | _ => none

/-- The character of a `\u` code; a character beyond the first plane is spelled by two codes. -/
private def codeChar? (s : List Char) : Option (Char × List Char) := do
  let (high, rest) ← hexCode? s
  if 0xd800 ≤ high ∧ high < 0xdc00 then
    let (low, rest) ← hexCode? (← ['\\', 'u'].isPrefixOf? rest)
    some (Char.ofNat (0x10000 + (high - 0xd800) * 0x400 + (low - 0xdc00)), rest)
  else some (Char.ofNat high, rest)

private def escape? : List Char → Option (Char × List Char)
  | 'u' :: rest => codeChar? rest
  | 'n' :: rest => some ('\n', rest)
  | 't' :: rest => some ('\t', rest)
  | 'r' :: rest => some ('\r', rest)
  | 'b' :: rest => some ('\x08', rest)
  | 'f' :: rest => some ('\x0c', rest)
  | c :: rest => if c = '"' ∨ c = '\\' ∨ c = '/' then some (c, rest) else none
  | [] => none

/-- The rest of a text after its opening quote. -/
private def textBody? : (fuel : Nat) → List Char → Option (List Char × List Char)
  | 0, _ => none
  | _ + 1, [] => none
  | _ + 1, '"' :: rest => some ([], rest)
  | fuel + 1, '\\' :: rest => do
    let (c, rest) ← escape? rest
    let (cs, rest) ← textBody? fuel rest
    some (c :: cs, rest)
  | fuel + 1, c :: rest => do
    let (cs, rest) ← textBody? fuel rest
    some (c :: cs, rest)

private def isNumberChar (c : Char) : Bool :=
  c.isDigit || c = '+' || c = '-' || c = '.' || c = 'e' || c = 'E'

private def number? (s : List Char) : Option (Value × List Char) := do
  let spelled := s.takeWhile isNumberChar
  let rest := s.dropWhile isNumberChar
  let (negative, body) := Decimal.takeSign spelled
  let (value, count, tail) := Decimal.takeDigits body
  if count = 0 then none
  else if tail.isEmpty then some (whole (if negative then -(value : Int) else value), rest)
  else
    let x ← Decimal.unsigned? negative body
    some (decimal x, rest)

private def words : List (List Char × Value) :=
  [("null".toList, null), ("true".toList, bool true), ("false".toList, bool false),
   ("NaN".toList, decimal (0 / 0)), ("Infinity".toList, decimal (1 / 0)),
   ("-Infinity".toList, decimal (-1 / 0))]

private def word? (s : List Char) : Option (Value × List Char) :=
  words.findSome? fun (word, v) => (word.isPrefixOf? s).map fun rest => (v, rest)

mutual

private def value? : (fuel : Nat) → List Char → Option (Value × List Char)
  | 0, _ => none
  | fuel + 1, s =>
    match skipSpace s with
    | '"' :: rest => do
      let (cs, rest) ← textBody? (rest.length + 1) rest
      some (text (String.ofList cs), rest)
    | '[' :: rest =>
      match skipSpace rest with
      | ']' :: rest => some (array [], rest)
      | rest => do
        let (items, rest) ← items? fuel rest
        some (array items, rest)
    | '\x7b' :: rest =>
      match skipSpace rest with
      | '\x7d' :: rest => some (object [], rest)
      | rest => do
        let (fields, rest) ← fields? fuel [] rest
        some (object fields, rest)
    | s => (word? s).or (number? s)

private def items? : (fuel : Nat) → List Char → Option (List Value × List Char)
  | 0, _ => none
  | fuel + 1, s => do
    let (v, rest) ← value? fuel s
    match skipSpace rest with
    | ',' :: rest => do
      let (vs, rest) ← items? fuel rest
      some (v :: vs, rest)
    | ']' :: rest => some ([v], rest)
    | _ => none

private def fields? : (fuel : Nat) → List (String × Value) → List Char →
    Option (List (String × Value) × List Char)
  | 0, _, _ => none
  | fuel + 1, before, s => do
    let (key, rest) ← value? fuel s
    let name ← key.text?
    let (v, rest) ← value? fuel (← [':'].isPrefixOf? (skipSpace rest))
    let fields := setField name v before
    match skipSpace rest with
    | ',' :: rest => fields? fuel fields rest
    | '\x7d' :: rest => some (fields, rest)
    | _ => none

end

/-- The value that a text spells, with nothing behind it but space. -/
def read? (s : String) : Option Value := do
  let cs := s.toList
  let (v, rest) ← value? (cs.length + 1) cs
  if (skipSpace rest).isEmpty then some v else none

end Flowchart.Value
