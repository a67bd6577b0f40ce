import Flowchart.Placement.Lattice
import Flowchart.Random

/-!
# Finding a free place

A new node goes beside a reference node if one of five straight places there is free, else to the first free
place on rings around it, else to a random free place on the canvas. If all of these are taken it goes to a last
resort past the edge of the canvas, where it may overlap.

A place is free for a node if its rectangle there overlaps no other node and its centre keeps a distance from
the centres of all others. Nodes with the id of the new node are left out of account.
-/

namespace Flowchart.Placement

variable {α : Type} [Scalar α]

/-- The nodes among which a place is sought. -/
structure Board (α : Type) where
  config : Config α
  placed : List (Placed α)
  lattice : Lattice α
deriving DecidableEq, Repr

namespace Board

def ofPlaced (config : Config α) (placed : List (Placed α)) : Except NumberFault (Board α) := do
  let lattice ← Lattice.ofPlaced config placed
  .ok ⟨config, placed, lattice⟩

/-- A board of nodes that have no guide in common. -/
def ofNodes (config : Config α) (nodes : List (Node α)) : Except NumberFault (Board α) :=
  ofPlaced config (Placed.ofNodes nodes)

def nodes (b : Board α) : List (Node α) :=
  b.placed.map (·.node)

def primaryAxis (b : Board α) : Term Axis :=
  Placement.primaryAxis b.config b.nodes

/-- The guide that the next node sets up. -/
def newGuide (b : Board α) : Guide :=
  .ofNode b.placed.length

/-- A place that takes over no coordinate. -/
def newSpot (b : Board α) (p : Point α) : Spot α :=
  ⟨p, ⟨b.newGuide, b.newGuide⟩⟩

/-- The board with one more node, moved to its spot. -/
def add (b : Board α) (n : Node α) (s : Spot α) : Except NumberFault (Board α) :=
  ofPlaced b.config (b.placed ++ [⟨n.movedTo s.point, s.guides⟩])

section Free

variable [Trigonometry α]

/-- The nodes other than `n`. -/
def others (b : Board α) (n : Node α) : List (Node α) :=
  b.nodes.filter (·.id ≠ n.id)

def isTooClose (b : Board α) (center : Point α) (n : Node α) : Bool :=
  (b.others n).any fun e =>
    decide (center.distance e.center < b.config.minSpacing * b.config.proximity)

/-- Whether `p` is free for the node `n`. -/
def isFree (b : Board α) (p : Point α) (n : Node α) : Bool :=
  let rect := n.rect.movedTo p
  !b.config.avoidOverlap ||
    (!((b.others n).any fun e => rect.overlaps e.rect) && !b.isTooClose rect.center n)

end Free

/-- The spots beside, below, diagonally behind, before and above a reference node. A horizontal layout tries the
one beside it first, any other one the spot below. -/
def straightSpots (b : Board α) (n : Node α) (reference : Placed α) (axis : Term Axis) : List (Spot α) :=
  let spacing := b.config.minSpacing
  let r := reference.node.rect
  let besideX := r.x + r.width + spacing
  let belowY := r.y + r.height + spacing
  let newX (x : α) : Spot α := ⟨⟨x, r.y⟩, ⟨b.newGuide, reference.guides.y⟩⟩
  let newY (y : α) : Spot α := ⟨⟨r.x, y⟩, ⟨reference.guides.x, b.newGuide⟩⟩
  let right := newX besideX
  let below := newY belowY
  let rest :=
    [b.newSpot ⟨besideX, belowY⟩, newX (r.x - n.rect.width - spacing), newY (r.y - n.rect.height - spacing)]
  if axis = .known .horizontal then right :: below :: rest else below :: right :: rest

/-- A node that lies on no guide of the board. -/
def newPlaced (b : Board α) (n : Node α) : Placed α :=
  ⟨n, ⟨b.newGuide, b.newGuide⟩⟩

/-- The places of the straight spots around a node that need not be on the board. -/
def straightPlaces (b : Board α) (n reference : Node α) (axis : Term Axis) : List (Point α) :=
  (b.straightSpots n (b.newPlaced reference) axis).map (·.point)

/-- The number of places on a ring. -/
def placesPerRing (b : Board α) : Except NumberFault Nat := do
  let ratio ← Scalar.quotient 360 b.config.angleStep
  let count ← Scalar.round ratio
  .ok (max 1 count).toNat

/-- The place on a ring around the reference node, rounded to six decimals. -/
def ringPlace [Trigonometry α] (b : Board α) (n reference : Node α) (ring step : Nat) : Point α :=
  let center := reference.center
  let radius := b.config.minSpacing * Scalar.ofNat ring
  let angle := Scalar.ofNat step * b.config.angleStep
  let cx := center.x + Trigonometry.cosine angle * radius
  let cy := center.y + Trigonometry.sine angle * radius
  ⟨Scalar.roundTo 6 (cx - n.rect.width / 2), Scalar.roundTo 6 (cy - n.rect.height / 2)⟩

/-- The first result of `f` among the `count` numbers from `start` on. -/
def firstSome? {β : Type} (f : Nat → Option β) : (start count : Nat) → Option β
  | _, 0 => none
  | start, count + 1 =>
    match f start with
    | some b => some b
    | none => firstSome? f (start + 1) count

def findOnRings? [Trigonometry α] (b : Board α) (n reference : Node α) (perRing : Nat) :
    Option (Point α) :=
  firstSome?
    (fun ring =>
      firstSome?
        (fun step =>
          let p := b.ringPlace n reference ring step
          if b.isFree p n then some p else none)
        0 perRing)
    1 b.config.rings.toNat

/-- A random place for a node on the canvas. -/
def randomPlace (b : Board α) (n : Node α) (g : Twister) : Point α × Twister :=
  let spanX := Scalar.max (b.config.canvasWidth - n.rect.width) 0
  let spanY := Scalar.max (b.config.canvasHeight - n.rect.height) 0
  let (u, g) : α × Twister := g.unit
  let (v, g) : α × Twister := g.unit
  (⟨u * spanX, v * spanY⟩, g)

def findRandom? [Trigonometry α] (b : Board α) (n : Node α) :
    (attempts : Nat) → Twister → Option (Point α)
  | 0, _ => none
  | attempts + 1, g =>
    let (p, g) := b.randomPlace n g
    if b.isFree p n then some p else findRandom? b n attempts g

/-- The place past the right edge of the canvas, at the height where first nodes go. -/
def lastResort (b : Board α) : Spot α :=
  ⟨⟨b.config.canvasWidth + b.config.minSpacing, b.config.origin.y⟩, ⟨b.newGuide, .origin⟩⟩

/-! ### The search -/

section Search

variable [Trigonometry α]

/-- A spot away from the straight ones. -/
def findAround (b : Board α) (n reference : Node α) : Except NumberFault (Spot α) := do
  let perRing ← b.placesPerRing
  match b.findOnRings? n reference perRing with
  | some p => .ok (b.newSpot p)
  | none =>
    match b.findRandom? n b.config.randomAttempts.toNat (Twister.ofSeed b.config.seed) with
    | some p => .ok (b.newSpot p)
    | none => .ok b.lastResort

/-- A spot for `n` near a reference node, by default the node that was added last. -/
def findSpot (b : Board α) (n : Node α) (reference : Option (Node α)) : Except NumberFault (Spot α) :=
  match b.placed.getLast? with
  | none => .ok ⟨b.config.origin, ⟨.origin, .origin⟩⟩
  | some last =>
    let reference := (reference.map b.newPlaced).getD last
    match (b.straightSpots n reference b.primaryAxis).find? (b.isFree ·.point n) with
    | some s => .ok s
    | none => b.findAround n reference.node

/-- The node's own place if it is free, or else a spot that is found for it. -/
def resolveSpot (b : Board α) (n : Node α) (reference : Option (Node α)) :
    Except NumberFault (Spot α) :=
  if b.isFree n.position n then .ok (b.newSpot n.position) else b.findSpot n reference

/-- The place that is found for a node. -/
def find (b : Board α) (n : Node α) (reference : Option (Node α)) : Except NumberFault (Point α) := do
  let s ← b.findSpot n reference
  .ok s.point

/-- The node's own place if it is free, or else one that is found for it. -/
def resolve (b : Board α) (n : Node α) (reference : Option (Node α)) : Except NumberFault (Point α) := do
  let s ← b.resolveSpot n reference
  .ok s.point

end Search

end Board

end Flowchart.Placement
