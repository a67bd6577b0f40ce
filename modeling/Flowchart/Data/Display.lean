import Flowchart.Data.Value
import Flowchart.Decimal.Notation
import Flowchart.Text.Quoted

/-!
# Values inside messages

A message shows a value as it would be written in a listing: texts quoted, truth values and null as the words
`True`, `False` and `None`, arrays in brackets and objects in braces. A name that is not a text is shown the same
way, and one that is a text stands for itself.
-/

namespace Flowchart.Value

/-- The texts with a comma and a space between each two. -/
private def separated : List (List Char) → List Char
  | [] => []
  | [s] => s
  | s :: t :: rest => s ++ ',' :: ' ' :: separated (t :: rest)

private def wordText : Value → String
  | null => "None"
  | bool true => "True"
  | bool false => "False"
  | whole n => toString n
  | decimal x => Decimal.fullText x
  | _ => ""

mutual

def shownChars : Value → List Char
  | text s => Text.quoted s.toList
  | array items => '[' :: separated (shownItems items) ++ [']']
  | object fields => '\x7b' :: separated (shownFields fields) ++ ['\x7d']
  | v => (wordText v).toList

def shownItems : List Value → List (List Char)
  | [] => []
  | v :: rest => shownChars v :: shownItems rest

def shownFields : List (String × Value) → List (List Char)
  | [] => []
  | (key, v) :: rest =>
    (Text.quoted key.toList ++ ':' :: ' ' :: shownChars v) :: shownFields rest

end

/-- The value as a message shows it. -/
def shown (v : Value) : String :=
  String.ofList v.shownChars

/-- The value as a name: a text stands for itself. -/
def asName : Value → String
  | text s => s
  | v => v.shown

end Flowchart.Value
