import Flowchart.Geometry.Rect
import Flowchart.Vocabulary

/-!
# Settings of the placement
-/

namespace Flowchart.Placement

structure Config (α : Type) where
  /-- The space between a new node and the node it is placed beside. -/
  minSpacing : α
  /-- The axis along which a layout grows that shows no direction of its own. -/
  preferredAxis : Term Axis
  gridSize : α
  avoidOverlap : Bool
  /-- The part of `minSpacing` that the centres of two nodes keep from each other. -/
  proximity : α
  /-- Where the first node goes. -/
  origin : Point α
  canvasWidth : α
  canvasHeight : α
  randomAttempts : Int
  rings : Int
  /-- The angle, in degrees, between neighbouring places on a ring. -/
  angleStep : α
  seed : Int
deriving DecidableEq, Repr

def Config.standard {α : Type} [Scalar α] : Config α where
  minSpacing := 220
  preferredAxis := .known .horizontal
  gridSize := 20
  avoidOverlap := true
  proximity := 0.7
  origin := ⟨100, 300⟩
  canvasWidth := 3000
  canvasHeight := 2000
  randomAttempts := 100
  rings := 5
  angleStep := 45
  seed := 0

end Flowchart.Placement
