/-!
# Vocabulary

The words that a chart is described with: the kinds of nodes and containers, the directions of hooks, the
variants and path styles of connections, and the two axes. Each has a name that is written and read.

Some fields of a chart are carried along without a check and may hold a name from outside the vocabulary; such
a field has the type `Term`.
-/

namespace Flowchart

inductive NodeKind where
  | start
  | process
  | decision
  | finish
deriving DecidableEq, Repr

inductive Direction where
  | top
  | right
  | bottom
  | left
  | topLeft
  | topRight
  | bottomLeft
  | bottomRight
deriving DecidableEq, Repr

inductive Variant where
  | positive
  | negative
  | neutral
deriving DecidableEq, Repr

inductive PathStyle where
  | straight
  | curved
  | elbow
deriving DecidableEq, Repr

inductive ContainerKind where
  | swimlane
  | unit
  | layer
  | scenario
deriving DecidableEq, Repr

inductive Axis where
  | horizontal
  | vertical
deriving DecidableEq, Repr

/-- A finite set of words with a name for each. -/
class Vocabulary (κ : Type) where
  words : List κ
  name : κ → String

instance : Vocabulary NodeKind where
  words := [.start, .process, .decision, .finish]
  name
    | .start => "start"
    | .process => "process"
    | .decision => "decision"
    | .finish => "end"

instance : Vocabulary Direction where
  words := [.top, .right, .bottom, .left, .topLeft, .topRight, .bottomLeft, .bottomRight]
  name
    | .top => "top"
    | .right => "right"
    | .bottom => "bottom"
    | .left => "left"
    | .topLeft => "top-left"
    | .topRight => "top-right"
    | .bottomLeft => "bottom-left"
    | .bottomRight => "bottom-right"

instance : Vocabulary Variant where
  words := [.positive, .negative, .neutral]
  name
    | .positive => "positive"
    | .negative => "negative"
    | .neutral => "neutral"

instance : Vocabulary PathStyle where
  words := [.straight, .curved, .elbow]
  name
    | .straight => "straight"
    | .curved => "curved"
    | .elbow => "elbow"

instance : Vocabulary ContainerKind where
  words := [.swimlane, .unit, .layer, .scenario]
  name
    | .swimlane => "swimlane"
    | .unit => "module"
    | .layer => "layer"
    | .scenario => "scenario"

instance : Vocabulary Axis where
  words := [.horizontal, .vertical]
  name
    | .horizontal => "horizontal"
    | .vertical => "vertical"

namespace Vocabulary

variable {κ : Type} [Vocabulary κ]

/-- The word with a given name. -/
def find? (s : String) : Option κ :=
  (words : List κ).find? fun k => name k = s

theorem name_of_find? {s : String} {k : κ} (h : find? s = some k) : name k = s := by
  simpa using List.find?_some h

end Vocabulary

/-! ### Terms -/

/-- A word of a vocabulary, or a name from outside it. -/
inductive Term (κ : Type) where
  | known (k : κ)
  | foreign (name : String)
deriving DecidableEq, Repr

namespace Term

variable {κ : Type} [Vocabulary κ]

def ofName (s : String) : Term κ :=
  match Vocabulary.find? s with
  | some k => known k
  | none => foreign s

def name : Term κ → String
  | known k => Vocabulary.name k
  | foreign s => s

/-- A term is read as it is written. -/
@[simp]
theorem name_ofName (s : String) : (ofName s : Term κ).name = s := by
  unfold ofName
  split
  · next k h => exact Vocabulary.name_of_find? h
  · rfl

end Term

/-- The four sides of a rectangle, clockwise from the top. -/
def Direction.cardinals : List Direction :=
  [.top, .right, .bottom, .left]

def Direction.diagonals : List Direction :=
  [.topLeft, .topRight, .bottomLeft, .bottomRight]

end Flowchart
