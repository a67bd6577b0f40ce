import Flowchart.Numeric.Scalar
import Flowchart.Decimal.Notation

/-!
# Faults

Every way in which a request can fail, as a cause. `Fault.message?` gives the text that a caller is shown; a
failed computation on numbers and a failed look-up have none.
-/

namespace Flowchart

/-- What is wrong with a payload that describes a node or a connection. -/
inductive PayloadFault where
  | nodeNotObject
  | nodeWithoutId
  | nodeKind (id shownKind : String)
  | nodeField (id field : String)
  | nodeText (id : String)
  | nodeHook (id : String)
  | connectionNotObject
  | connectionWithoutEnds
  | connectionLabel (source target : String)
  | connectionVariant (source target shownVariant : String)
  | connectionPoint (source target : String)
  | connectionLonePoint (source target : String)
deriving DecidableEq, Repr

inductive Fault (α : Type) where
  | number (cause : NumberFault)
  | numberText
  | unknownDirection (name : String)
  | offsetOutside (offset : α)
  | sizeNotPositive (node : String) (width height : α)
  | directionFull (node direction : String)
  | noHook (node hook : String)
  | noDirection (name : String)
  | noNode (id : String)
  | noContainer (id : String)
  | noOpenContainer
  | noColors (kind : String)
  | noLabel (variant : String)
  | routeTooShort (count : Nat)
  | unknownKind (name : String)
  | payload (cause : PayloadFault)
deriving DecidableEq, Repr

/-- The number of hooks that fit on one direction of a node. -/
def maxHooksPerDirection : Nat := 5

namespace PayloadFault

private def nodeText' (id rest : String) : String :=
  "Node \"" ++ id ++ "\" " ++ rest

private def connectionText (source target rest : String) : String :=
  "Connection " ++ source ++ " -> " ++ target ++ " " ++ rest

def message : PayloadFault → String
  | nodeNotObject => "Node payload must be an object"
  | nodeWithoutId => "Node payload needs a string id"
  | nodeKind id shownKind => nodeText' id ("has unknown kind: " ++ shownKind)
  | nodeField id field => nodeText' id ("field " ++ field ++ " must be a number")
  | nodeText id => nodeText' id "text must be a string"
  | nodeHook id => nodeText' id "has a malformed hook"
  | connectionNotObject => "Connection payload must be an object"
  | connectionWithoutEnds => "Connection payload needs fromNodeId and toNodeId"
  | connectionLabel source target => connectionText source target "label must be a string"
  | connectionVariant source target shownVariant =>
    connectionText source target ("has unknown variant: " ++ shownVariant)
  | connectionPoint source target => connectionText source target "has a malformed point"
  | connectionLonePoint source target =>
    connectionText source target "needs at least 2 points, got 1"

end PayloadFault

namespace Fault

def message? : Fault Float → Option String
  | unknownDirection name => some ("Unknown hook direction: \"" ++ name ++ "\"")
  | offsetOutside offset =>
    some ("Hook offset must be within [0, 1], got " ++ Decimal.fullText offset)
  | sizeNotPositive node width height =>
    some ("Node \"" ++ node ++ "\" must have a positive size, got " ++ Decimal.fullText width ++
      "x" ++ Decimal.fullText height)
  | directionFull node direction =>
    some ("Node \"" ++ node ++ "\" already has " ++ toString maxHooksPerDirection ++
      " hooks on \"" ++ direction ++ "\"")
  | noHook node hook => some ("Node \"" ++ node ++ "\" has no hook \"" ++ hook ++ "\"")
  | routeTooShort count =>
    some ("A custom route needs at least 2 points, got " ++ toString count)
  | unknownKind name => some ("Unknown node kind: \"" ++ name ++ "\"")
  | payload cause => some cause.message
  | _ => none

end Fault

/-- Passes a fault of a computation on numbers on. -/
def numeric {α β : Type} : Except NumberFault β → Except (Fault α) β
  | .ok b => .ok b
  | .error cause => .error (.number cause)

end Flowchart
