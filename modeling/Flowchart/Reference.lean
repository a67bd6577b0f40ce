import Flowchart.Data.Display

/-!
# References

A node names its container and a connection names its hooks. A payload may put any value in the place of such a
name; it is carried along as it came.
-/

namespace Flowchart

inductive Reference where
  | absent
  | named (id : String)
  | foreign (v : Value)
deriving DecidableEq, Repr

namespace Reference

def ofValue : Value → Reference
  | .null => absent
  | .text s => named s
  | v => foreign v

def toValue : Reference → Value
  | absent => .null
  | named s => .text s
  | foreign v => v

/-- A value comes back as it was. -/
@[simp]
theorem toValue_ofValue (v : Value) : (ofValue v).toValue = v := by
  cases v <;> rfl

def ofName? : Option String → Reference
  | none => absent
  | some s => named s

/-- Whether something is referred to: an empty name refers to nothing. -/
def isGiven (r : Reference) : Bool :=
  r.toValue.isGiven

def name (r : Reference) : String :=
  r.toValue.asName

end Reference

end Flowchart
