import Flowchart.Data.Value
import Flowchart.Decimal.Reader
import Flowchart.Numeric.Double

/-!
# Values as numbers

A number stands for itself, a truth value for one or zero, and a text for the number that it spells.
-/

namespace Flowchart

/-- Why a value is no number. -/
inductive NumberRefusal where
  | tooLarge
  | spelling
  | otherKind
deriving DecidableEq, Repr

namespace Value

def toDouble : Value → Except NumberRefusal Float
  | whole n =>
    match Double.ofInt n with
    | .ok x => .ok x
    | .error _ => .error .tooLarge
  | decimal x => .ok x
  | bool b => .ok (if b then 1 else 0)
  | text s =>
    match Decimal.read? s.toList with
    | some x => .ok x
    | none => .error .spelling
  | _ => .error .otherKind

def isNumber : Value → Bool
  | whole _ => true
  | decimal _ => true
  | _ => false

/-- The members of a value that can be gone through one by one; an absent or empty value has none. -/
def members? : Value → Option (List Value)
  | array items => some items
  | object fields => some (fields.map fun (key, _) => text key)
  | text s => some (s.toList.map fun c => text (String.ofList [c]))
  | v => if v.isGiven then none else some []

end Value

end Flowchart
