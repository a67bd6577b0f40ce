import Flowchart.Text.Blank

/-!
# Labels

A label may be capped at a number of characters. What is cut off is marked by an ellipsis, which counts as one of
them; a cap that is not positive leaves every label as it is.
-/

namespace Flowchart.Outline

def ellipsis : Char := '…'

def capChars (maxLength : Int) (label : List Char) : List Char :=
  if maxLength ≤ 0 ∨ (label.length : Int) ≤ maxLength then label
  else Text.trimEnd (label.take (maxLength.toNat - 1)) ++ [ellipsis]

/-- The label with at most `maxLength` characters. -/
def capLabel (maxLength : Int) (label : String) : String :=
  String.ofList (capChars maxLength label.toList)

/-- The cap of a label unless another one is asked for. -/
def defaultCap : Int := 50

end Flowchart.Outline
