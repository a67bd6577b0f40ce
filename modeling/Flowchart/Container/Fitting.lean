import Flowchart.Container
import Flowchart.Node

/-!
# Fitting containers around their members

A container is fitted by taking the smallest rectangle around its members, grown by a margin; one without a
member that is there keeps its rectangle. The containers inside a container are its members in their fitted
form, so they are fitted first.
-/

namespace Flowchart

variable {α : Type} [Scalar α]

namespace Container

/-- The container around some rectangles, with a margin. -/
def around (c : Container α) (margin : α) (members : List (Rect α)) : Container α :=
  match boundingBox? margin members with
  | some box => { c with rect := box }
  | none => c

end Container

/-- The last container with a given id. -/
def containerWithId? (containers : List (Container α)) (id : String) : Option (Container α) :=
  containers.reverse.find? (·.id = id)

/-- Containers that have been fitted, under their ids. -/
abbrev Fitted (α : Type) := List (String × Container α)

/-- Fits a container and all those inside it that are not fitted yet. The `depth` bounds how far containers may
be nested; as many levels as there are containers are enough where no container is inside itself. -/
def fitOne (nodes : List (Node α)) (containers : List (Container α)) (margin : α) :
    (depth : Nat) → Fitted α → Container α → Container α × Fitted α
  | 0, fitted, c => (c, fitted)
  | depth + 1, fitted, c =>
    match fitted.lookup c.id with
    | some done => (done, fitted)
    | none =>
      let nodeRects := (c.nodeIds.filterMap (nodeWithId? nodes)).map (·.rect)
      let inner := c.children.filterMap (containerWithId? containers)
      let (childRects, fitted) := inner.foldl
        (fun (rects, fitted) child =>
          let (done, fitted) := fitOne nodes containers margin depth fitted child
          (rects ++ [done.rect], fitted))
        ([], fitted)
      let done := c.around margin (nodeRects ++ childRects)
      (done, (c.id, done) :: fitted)

/-- All containers fitted around their members. -/
def refitContainers (containers : List (Container α)) (nodes : List (Node α)) (margin : α) :
    List (Container α) :=
  (containers.foldl
    (fun (done, fitted) c =>
      let (c', fitted) := fitOne nodes containers margin (containers.length + 1) fitted c
      (done ++ [c'], fitted))
    (([] : List (Container α)), ([] : Fitted α))).1

end Flowchart
