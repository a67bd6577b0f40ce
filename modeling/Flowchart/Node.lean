import Flowchart.Geometry.Rect
import Flowchart.Hook
import Flowchart.Reference

/-!
# Nodes

A node is a labelled rectangle with hooks. It is built by `Node.make`, which asks for a positive size and gives
a node without hooks the default ones.
-/

namespace Flowchart

structure Node (α : Type) where
  id : String
  kind : Term NodeKind
  rect : Rect α
  text : String
  container : Reference
  hooks : List (Hook α)
deriving DecidableEq, Repr

/-- The width of a node of each kind. -/
def NodeKind.width {α : Type} [Scalar α] : NodeKind → α
  | .start => 140
  | .finish => 140
  | .decision => 160
  | .process => 200

def nodeHeight {α : Type} [Scalar α] : α := 80

namespace Node

variable {α : Type} [Scalar α]

/-- The node with the default hooks if it has none. -/
def withSomeHook (n : Node α) : Node α :=
  if n.hooks.isEmpty then { n with hooks := Hook.defaults n.id } else n

@[simp] theorem withSomeHook_id (n : Node α) : n.withSomeHook.id = n.id := by
  unfold withSomeHook; split <;> rfl

@[simp] theorem withSomeHook_kind (n : Node α) : n.withSomeHook.kind = n.kind := by
  unfold withSomeHook; split <;> rfl

@[simp] theorem withSomeHook_rect (n : Node α) : n.withSomeHook.rect = n.rect := by
  unfold withSomeHook; split <;> rfl

@[simp] theorem withSomeHook_text (n : Node α) : n.withSomeHook.text = n.text := by
  unfold withSomeHook; split <;> rfl

@[simp] theorem withSomeHook_container (n : Node α) : n.withSomeHook.container = n.container := by
  unfold withSomeHook; split <;> rfl

/-- The node if its size is positive, with at least one hook. -/
def make (n : Node α) : Except (Fault α) (Node α) :=
  if n.rect.width ≤ 0 ∨ n.rect.height ≤ 0 then
    .error (.sizeNotPositive n.id n.rect.width n.rect.height)
  else .ok n.withSomeHook

theorem make_eq_ok {n m : Node α} :
    n.make = .ok m ↔ ¬ (n.rect.width ≤ 0 ∨ n.rect.height ≤ 0) ∧ m = n.withSomeHook := by
  unfold make
  split <;> simp [*, eq_comm]

def position (n : Node α) : Point α :=
  n.rect.corner

def center (n : Node α) : Point α :=
  n.rect.center

def movedTo (n : Node α) (p : Point α) : Node α :=
  { n with rect := n.rect.movedTo p }

/-- The first hook with a given id. -/
def hook (n : Node α) (id : String) : Except (Fault α) (Hook α) :=
  match n.hooks.find? (·.id = id) with
  | some h => .ok h
  | none => .error (.noHook n.id id)

/-- The hook that a connection refers to; what is not a name is the id of no hook. -/
def referredHook (n : Node α) (r : Reference) : Except (Fault α) (Hook α) :=
  match n.hooks.find? (.named ·.id = r) with
  | some h => .ok h
  | none => .error (.noHook n.id r.name)

def visibleHooks (n : Node α) : List (Hook α) :=
  n.hooks.filter (·.visible)

end Node

/-- The last node with a given id. -/
def nodeWithId? {α : Type} (nodes : List (Node α)) (id : String) : Option (Node α) :=
  nodes.reverse.find? (·.id = id)

/-- The last node with a given id, which has to be there. -/
def requireNode {α : Type} (nodes : List (Node α)) (id : String) : Except (Fault α) (Node α) :=
  match nodeWithId? nodes id with
  | some n => .ok n
  | none => .error (.noNode id)

theorem requireNode_eq_ok {α : Type} {nodes : List (Node α)} {id : String} {n : Node α} :
    requireNode nodes id = .ok n ↔ nodeWithId? nodes id = some n := by
  unfold requireNode
  split <;> simp [*]

end Flowchart
