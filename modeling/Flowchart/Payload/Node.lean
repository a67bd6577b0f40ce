import Flowchart.Node
import Flowchart.Data.Number

/-!
# Nodes from payloads

A payload for a node is an object with an id, a kind under `kind` or `type`, a position in an object of its own
or in flat fields, and optionally a size, a text, hooks and the name of a container. The fields are checked in
this order, and the first one that is wrong decides the answer.
-/

namespace Flowchart.Payload

abbrev Fields := List (String × Value)

/-- A field of an object; what is absent counts as null. -/
def fieldOr (default : Value) (fields : Fields) (key : String) : Value :=
  (lookupField? fields key).getD default

/-- A field of an object that may go by two names, the first one first. -/
def eitherField (fields : Fields) (key alternative : String) : Value :=
  (lookupEither? fields key alternative).getD .null

/-- A required field of a hook. -/
def hookField (node : String) (fields : Fields) (key : String) :
    Except (Fault Float) Value :=
  match lookupField? fields key with
  | some v => .ok v
  | none => .error (.payload (.nodeHook node))

def hookOffset (node : String) (v : Value) : Except (Fault Float) Float :=
  match v.toDouble with
  | .ok x => .ok x
  | .error .tooLarge => .error (.number .tooLarge)
  | .error .spelling => .error .numberText
  | .error .otherKind => .error (.payload (.nodeHook node))

/-- A direction is given by its name; any other value is shown as a name, which is none of a direction. -/
def directionOf : Value → Term Direction
  | .text s => .ofName s
  | v => .foreign v.asName

def hook (node : String) : Value → Except (Fault Float) (Hook Float)
  | .object fields => do
    let id ← hookField node fields "id"
    let direction ← hookField node fields "direction"
    let offset ← hookOffset node (fieldOr (.decimal 0.5) fields "offset")
    let visible := (lookupEither? fields "isVisible" "is_visible").getD (.bool true)
    Hook.make id.asName (directionOf direction) offset visible.isGiven
  | _ => .error (.payload (.nodeHook node))

def hooks (node : String) (v : Value) : Except (Fault Float) (List (Hook Float)) :=
  match v.members? with
  | some items => items.mapM (hook node)
  | none => .error (.payload (.nodeHook node))

def kindOf? : Value → Option NodeKind
  | .text s => Vocabulary.find? s
  | _ => none

/-- The fields that hold the position: an object under `position`, or the payload itself. -/
def placeFields (fields : Fields) : Fields :=
  match fieldOr .null fields "position" with
  | .object place => place
  | _ => fields

def numberField (id field : String) (v : Value) : Except (Fault Float) Value :=
  if v.isNumber then .ok v else .error (.payload (.nodeField id field))

def textField (id : String) : Value → Except (Fault Float) String
  | .text s => .ok s
  | _ => .error (.payload (.nodeText id))

/-- A number of any size; one that no double can hold is too large. -/
def numberOf (v : Value) : Except (Fault Float) Float :=
  match v.toDouble with
  | .ok x => .ok x
  | .error _ => .error (.number .tooLarge)

def idOf : Value → Except (Fault Float) String
  | .text s => if s.isEmpty then .error (.payload .nodeWithoutId) else .ok s
  | _ => .error (.payload .nodeWithoutId)

def kindOf (id : String) (v : Value) : Except (Fault Float) NodeKind :=
  match kindOf? v with
  | some kind => .ok kind
  | none => .error (.payload (.nodeKind id v.shown))

def nodeOfFields (fields : Fields) : Except (Fault Float) (Node Float) := do
  let id ← idOf (fieldOr .null fields "id")
  let kind ← kindOf id (eitherField fields "kind" "type")
  let place := placeFields fields
  let x ← numberField id "x" (fieldOr .null place "x")
  let y ← numberField id "y" (fieldOr .null place "y")
  let width ← numberField id "width" (fieldOr (.decimal kind.width) fields "width")
  let height ← numberField id "height" (fieldOr (.decimal nodeHeight) fields "height")
  let text ← textField id (fieldOr (.text "") fields "text")
  let hooks ← hooks id (fieldOr .null fields "hooks")
  let rect : Rect Float := ⟨← numberOf x, ← numberOf y, ← numberOf width, ← numberOf height⟩
  let container := Reference.ofValue (eitherField fields "containerId" "container_id")
  Node.make ⟨id, .known kind, rect, text, container, hooks⟩

/-- The node that a payload describes. -/
def node : Value → Except (Fault Float) (Node Float)
  | .object fields => nodeOfFields fields
  | _ => .error (.payload .nodeNotObject)

end Flowchart.Payload
