import Flowchart.Interpretation.Step

/-!
# Interpreting an outline

The lines of an outline are taken up one by one; at the end the containers that are still open are closed, from
the inside out. Nodes that are there already are only obstacles for the placement and are no part of the chart.
-/

namespace Flowchart.Interpretation

variable {α : Type} [Scalar α]

/-- Closes `count` containers. -/
def closeAll (ctx : Context α) : (count : Nat) → State α → Except (Fault α) (State α)
  | 0, s => .ok s
  | count + 1, s => do
    let s ← closeContainer ctx s
    closeAll ctx count s

/-- The chart of a state in which every container is closed. -/
def chart (s : State α) : Except (Fault α) (Graph α) := do
  let containers ← s.opened.mapM (closedContainer s)
  .ok ⟨s.nodes, s.connections, containers⟩

/-- The chart for what the lines of an outline say. -/
def interpretContents [Trigonometry α] (ctx : Context α) (contents : List Outline.Content) :
    Except (Fault α) (Graph α) := do
  let board := Placement.Board.ofNodes ctx.settings.placement ctx.existing
  let _ ← numeric board
  let s ← contents.foldlM (step ctx) (.initial ctx.settings ctx.existing)
  let s ← closeAll ctx s.drafts.length s
  chart s

/-- The chart for an outline. -/
def interpret [Trigonometry α] (settings : Settings α) (existing : List (Node α))
    (outline : String) : Except (Fault α) (Graph α) :=
  interpretContents ⟨settings, existing⟩ (Outline.contents settings.labelCap outline.toList)

/-- The chart for a numbered outline. -/
def interpretNumbered [Trigonometry α] (settings : Settings α) (existing : List (Node α))
    (outline : String) : Except (Fault α) (Graph α) :=
  interpret settings existing (String.ofList (Outline.stripNumbering outline.toList))

/-- The charts for several outlines in turn. With `accumulate`, the nodes of each chart are obstacles for the
charts that follow. -/
def interpretAll [Trigonometry α] (settings : Settings α) (accumulate : Bool) :
    (existing : List (Node α)) → (outlines : List String) → Except (Fault α) (List (Graph α))
  | _, [] => .ok []
  | existing, outline :: rest => do
    let g ← interpret settings existing outline
    let existing := if accumulate then existing ++ g.nodes else existing
    let gs ← interpretAll settings accumulate existing rest
    .ok (g :: gs)

end Flowchart.Interpretation
