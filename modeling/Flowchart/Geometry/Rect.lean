import Flowchart.Numeric.Scalar

/-!
# Points and rectangles

The x axis points to the right and the y axis down; a rectangle is given by its top-left corner and its size.
Rectangles that share an edge overlap.
-/

namespace Flowchart

structure Point (α : Type) where
  x : α
  y : α
deriving DecidableEq, Repr

structure Rect (α : Type) where
  x : α
  y : α
  width : α
  height : α
deriving DecidableEq, Repr

variable {α : Type} [Scalar α]

namespace Point

/-- Equality of both coordinates as numbers. -/
def same (p q : Point α) : Bool :=
  p.x == q.x && p.y == q.y

def distance [Trigonometry α] (p q : Point α) : α :=
  Trigonometry.hypot (p.x - q.x) (p.y - q.y)

end Point

/-- The top-left corner of a rectangle with a given centre. -/
def topLeftOfCenter (cx cy width height : α) : Point α :=
  ⟨cx - width / 2, cy - height / 2⟩

namespace Rect

def left (r : Rect α) : α := r.x

def right (r : Rect α) : α := r.x + r.width

def top (r : Rect α) : α := r.y

def bottom (r : Rect α) : α := r.y + r.height

def corner (r : Rect α) : Point α := ⟨r.x, r.y⟩

def center (r : Rect α) : Point α :=
  ⟨r.x + r.width / 2, r.y + r.height / 2⟩

/-- The rectangle of the same size at another corner. -/
def movedTo (r : Rect α) (p : Point α) : Rect α :=
  { r with x := p.x, y := p.y }

def contains (r s : Rect α) : Bool :=
  decide (r.left ≤ s.left) && decide (s.right ≤ r.right) &&
    decide (r.top ≤ s.top) && decide (s.bottom ≤ r.bottom)

/-- Whether two rectangles have a point in common. -/
def overlaps (r s : Rect α) : Bool :=
  !(decide (r.right < s.left) || decide (s.right < r.left) ||
    decide (r.bottom < s.top) || decide (s.bottom < r.top))

end Rect

/-- The smallest rectangle around some rectangles, grown by `margin` on every side; none around nothing. -/
def boundingBox? (margin : α) (rects : List (Rect α)) : Option (Rect α) :=
  if rects.isEmpty then none
  else
    let left := Scalar.minimum (rects.map (·.left))
    let top := Scalar.minimum (rects.map (·.top))
    let right := Scalar.maximum (rects.map (·.right))
    let bottom := Scalar.maximum (rects.map (·.bottom))
    some ⟨left - margin, top - margin, (right - left) + 2 * margin, (bottom - top) + 2 * margin⟩

end Flowchart
