import Flowchart.Payload.Node
import Flowchart.Connection
import Flowchart.Variant

/-!
# Connections from payloads

A payload for a connection is an object with the ids of two nodes and optionally a label, a variant, the points
of a drawn route and the names of two hooks. Without a variant, the label decides. Of the drawn points the
first and the last one are dropped, since the ends of a connection follow its hooks.
-/

namespace Flowchart.Payload

/-- The two ends of a connection, for the texts of its faults. -/
structure Ends where
  source : String
  target : String

def endsOf (fields : Fields) : Except (Fault Float) Ends :=
  match (eitherField fields "fromNodeId" "from_node_id").text?,
      (eitherField fields "toNodeId" "to_node_id").text? with
  | some source, some target => .ok ⟨source, target⟩
  | _, _ => .error (.payload .connectionWithoutEnds)

def labelOf (e : Ends) : Value → Except (Fault Float) (Option String)
  | .null => .ok none
  | .text s => .ok (some s)
  | _ => .error (.payload (.connectionLabel e.source e.target))

def variantOf (e : Ends) (label : Option String) (v : Value) :
    Except (Fault Float) Variant :=
  if v.isGiven then
    match v.text?.bind Vocabulary.find? with
    | some variant => .ok variant
    | none => .error (.payload (.connectionVariant e.source e.target v.shown))
  else .ok (Variant.ofLabel (label.getD ""))

def coordinateOf (e : Ends) (fields : Fields) (key : String) :
    Except (Fault Float) Float :=
  match (lookupField? fields key).map Value.toDouble with
  | some (.ok x) => .ok x
  | some (.error .tooLarge) => .error (.number .tooLarge)
  | _ => .error (.payload (.connectionPoint e.source e.target))

def pointOf (e : Ends) : Value → Except (Fault Float) (Point Float)
  | .object fields => do
    let x ← coordinateOf e fields "x"
    let y ← coordinateOf e fields "y"
    .ok ⟨x, y⟩
  | _ => .error (.payload (.connectionPoint e.source e.target))

/-- The points of a drawn route: none at all, or at least two. -/
def pointsOf (e : Ends) (v : Value) : Except (Fault Float) (List (Point Float)) :=
  match v.members? with
  | none => .error (.payload (.connectionPoint e.source e.target))
  | some items => do
    let points ← items.mapM (pointOf e)
    if points.length = 1 then .error (.payload (.connectionLonePoint e.source e.target))
    else .ok points

def idOrDefault (e : Ends) (v : Value) : String :=
  if v.isGiven then v.asName else "conn-" ++ e.source ++ "-to-" ++ e.target

def connectionOfFields (fields : Fields) : Except (Fault Float) (Connection Float) := do
  let e ← endsOf fields
  let label ← labelOf e (fieldOr .null fields "label")
  let variant ← variantOf e label (fieldOr .null fields "variant")
  let points ← pointsOf e (fieldOr .null fields "points")
  .ok {
    id := idOrDefault e (fieldOr .null fields "id")
    source := e.source
    target := e.target
    sourceHook := .ofValue (eitherField fields "fromHookId" "from_hook_id")
    targetHook := .ofValue (eitherField fields "toHookId" "to_hook_id")
    label := label
    variant := some (.known variant)
    style := .known .elbow
    curvature := 0.5
    waypoints := (points.drop 1).dropLast
    custom := !points.isEmpty }

/-- The connection that a payload describes. -/
def connection : Value → Except (Fault Float) (Connection Float)
  | .object fields => connectionOfFields fields
  | _ => .error (.payload .connectionNotObject)

end Flowchart.Payload
