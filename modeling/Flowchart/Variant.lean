import Flowchart.Vocabulary
import Flowchart.Fault
import Flowchart.Text.Accent
import Flowchart.Text.Blank

/-!
# Variants and labels

The two answers to a decision have a label each, and a label that says yes or no tells the variant of a
connection, whatever its case and accents.
-/

namespace Flowchart

namespace Variant

/-- The label of an answer; a neutral connection has none. -/
def label? : Variant → Option String
  | positive => some "Sim"
  | negative => some "Não"
  | neutral => none

def ofWord (word : String) : Variant :=
  if word = "sim" ∨ word = "yes" then positive
  else if word = "nao" ∨ word = "no" then negative
  else neutral

/-- The variant that a label implies. -/
def ofLabel (label : String) : Variant :=
  ofWord (String.ofList (Text.trim (Text.bareLetters label.toList)))

/-- The label of a variant given by its name. -/
def labelOf {α : Type} : Term Variant → Except (Fault α) (Option String)
  | .known v => .ok v.label?
  | .foreign name => .error (.noLabel name)

end Variant

end Flowchart
