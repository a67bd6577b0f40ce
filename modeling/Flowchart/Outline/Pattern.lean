import Flowchart.Text.Blank
import Flowchart.Text.Numeral
import Flowchart.Text.Caseless

/-!
# Beginnings of lines

What a line of an outline may begin with: numbers with dots, numbers in parentheses, bullets and arrows. Each
function gives what follows such a beginning.
-/

namespace Flowchart.Outline

open Text

/-- What follows one or more digits. -/
def dropDigits? (s : List Char) : Option (List Char) :=
  match s with
  | [] => none
  | c :: rest => if isDigit c then some (rest.dropWhile isDigit) else none

/-- What follows `parts` numbers with a dot behind each. -/
def dropDotted? : (parts : Nat) → List Char → Option (List Char)
  | 0, s => some s
  | parts + 1, s =>
    match dropDigits? s with
    | some ('.' :: rest) => dropDotted? parts rest
    | _ => none

/-- What follows a number and a closing parenthesis. -/
def dropClosed? (s : List Char) : Option (List Char) :=
  match dropDigits? s with
  | some (')' :: rest) => some rest
  | _ => none

/-- What follows a number in parentheses. -/
def dropParenthesized? : List Char → Option (List Char)
  | '(' :: s => dropClosed? s
  | _ => none

/-- What follows an arrow, a colon or a hyphen. -/
def dropArrow? : List Char → Option (List Char)
  | '→' :: rest => some rest
  | '-' :: '>' :: rest => some rest
  | ':' :: rest => some rest
  | '-' :: rest => some rest
  | _ => none

def isBullet (c : Char) : Bool :=
  c = '-' || c = '*' || c = '•'

/-- The text without a bullet in front and the blanks behind it. -/
def dropBullet : List Char → List Char
  | [] => []
  | c :: rest => if isBullet c then trimStart rest else c :: rest

end Flowchart.Outline
