import Flowchart.Node
import Flowchart.Naming

/-!
# Editing hooks

Hooks are added to a node, removed, changed and spread along their side. Each operation gives a new node. At
most five hooks are put on one direction; the hooks of a side are spread over its middle part, from 0.15 to
0.85.
-/

namespace Flowchart

variable {α : Type} [Scalar α]

/-- The offset of a slot between the first one, with index zero, and the last one. -/
def spreadOffset (index last : α) : α :=
  0.15 + (0.85 - 0.15) * index / last

/-- The offset of one of several hooks that share a side; a lone hook sits in the middle. -/
def slotOffset (total index : Nat) : α :=
  if total ≤ 1 then 0.5 else spreadOffset (Scalar.ofNat index) (Scalar.ofNat (total - 1))

/-- The offset of a slot for any two whole numbers. -/
def distributedOffset (total index : Int) : Except NumberFault α :=
  if total ≤ 1 then .ok 0.5
  else do
    let i ← Scalar.ofInt index
    let last ← Scalar.ofInt (total - 1)
    .ok (spreadOffset i last)

namespace Node

def hookCount (n : Node α) (d : Term Direction) : Nat :=
  n.hooks.countP (·.isOn d)

def canAddHook (n : Node α) (d : Term Direction) : Bool :=
  decide (n.hookCount d < maxHooksPerDirection)

/-- The node with the hooks of one direction spread evenly, in their order. A slot belongs to an id: of several
hooks with one id the last one decides, and all of them get its slot. -/
def redistributeHooks (n : Node α) (d : Term Direction) : Node α :=
  let members := n.hooks.filter (·.isOn d)
  let slots := members.zipIdx.map fun (h, i) => (h.id, slotOffset members.length i)
  { n with
    hooks := n.hooks.map fun h =>
      match slots.reverse.lookup h.id with
      | some offset => { h with offset := offset }
      | none => h }

/-- The node with one more hook. Without an offset, the hooks of the direction are spread anew. -/
def addHook (n : Node α) (d : Term Direction) (offset : Option α) :
    Except (Fault α) (Node α) :=
  if ¬ n.canAddHook d then .error (.directionFull n.id d.name)
  else do
    let name := hookName n.id d.name
    let number := freshNumber (n.hooks.map (·.id)) name (n.hookCount d)
    let hook ← Hook.make (name number) d (offset.getD 0.5) true
    let extended := { n with hooks := n.hooks ++ [hook] }
    match offset with
    | some _ => .ok extended
    | none => .ok (extended.redistributeHooks d)

/-- The node without the hooks of a given id. Without any hook left it gets the default ones. -/
def removeHook (n : Node α) (id : String) : Node α :=
  withSomeHook { n with hooks := n.hooks.filter (·.id ≠ id) }

/-- What is to be changed in a hook; what is absent stays. -/
structure HookChange (α : Type) where
  direction : Option (Term Direction)
  offset : Option α
  visible : Option Bool

/-- The hooks on `d` other than those with a given id. -/
def peerCount (n : Node α) (id : String) (d : Term Direction) : Nat :=
  n.hooks.countP fun h => h.id ≠ id && h.isOn d

/-- The offset of a changed hook before it is moved into the unit interval. A hook that goes to another
direction without an offset gets the slot behind the hooks that are there. -/
def nextOffset (n : Node α) (h : Hook α) (change : HookChange α) : Except (Fault α) α :=
  match change.direction with
  | some d =>
    if h.isOn d then .ok (change.offset.getD h.offset)
    else
      let peers := n.peerCount h.id d
      if maxHooksPerDirection ≤ peers then .error (.directionFull n.id d.name)
      else .ok (change.offset.getD (slotOffset (peers + 1) peers))
  | none => .ok (change.offset.getD h.offset)

/-- The node with one hook changed. An empty direction stands for the one the hook has. -/
def updateHook (n : Node α) (id : String) (change : HookChange α) : Except (Fault α) (Node α) := do
  let hook ← n.hook id
  let offset ← n.nextOffset hook change
  let direction :=
    match change.direction with
    | some d => if d.name = "" then .known hook.direction else d
    | none => .known hook.direction
  let updated ←
    Hook.make id direction (Scalar.clampUnit offset) (change.visible.getD hook.visible)
  .ok { n with hooks := n.hooks.map fun h => if h.id = id then updated else h }

/-- The node in another place or of another size. -/
def withRect (n : Node α) (r : Rect α) : Except (Fault α) (Node α) :=
  make { n with rect := r }

end Node

end Flowchart
