import Flowchart.Geometry.Rect

/-!
# Snapping to a grid
-/

namespace Flowchart

variable {α : Type} [Scalar α]

/-- The nearest multiple of the grid size; a size that is not positive leaves the number as it is. -/
def snap (value size : α) : Except NumberFault α :=
  if size ≤ 0 then .ok value
  else do
    let steps ← Scalar.round (value / size)
    let count : α ← Scalar.ofInt steps
    .ok (count * size)

def Point.snap (p : Point α) (size : α) : Except NumberFault (Point α) := do
  let x ← Flowchart.snap p.x size
  let y ← Flowchart.snap p.y size
  .ok ⟨x, y⟩

end Flowchart
