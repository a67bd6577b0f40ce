import Flowchart.Interpretation.State
import Flowchart.Outline.Line
import Flowchart.Placement.Search
import Flowchart.Variant
import Flowchart.Container.Fitting

/-!
# Interpreting one line

A node in the chain is connected with the node before it; an answer is connected with the innermost open
decision, or goes into the chain if no decision is open. Every node but a decision closes the innermost
decision when it enters the chain. A container takes up the nodes and containers that follow until it is closed,
and is then fitted around them.
-/

namespace Flowchart.Interpretation

variable {α : Type} [Scalar α]

/-- What stays the same from line to line. -/
structure Context (α : Type) where
  settings : Settings α
  existing : List (Node α)
deriving DecidableEq, Repr

/-- Connects two nodes of the chain. -/
def connect (s : State α) (source target : String) : State α :=
  let (id, s) := s.freshId .connection
  s.addConnection (.between id source target)

/-- Connects a decision with a node that answers it. -/
def connectAnswer (s : State α) (source target : String) (variant : Variant)
    (label : Option String) : State α :=
  let (id, s) := s.freshId .connection
  s.addConnection
    { Connection.between id source target with label := label, variant := some (.known variant) }

/-- Adds a node to the innermost open container. -/
def enlist (id : String) : List (Draft α) → List (Draft α)
  | [] => []
  | d :: drafts => { d with nodeIds := d.nodeIds ++ [id] } :: drafts

/-- Adds a node at a free place, near `anchor` if the proposed place is taken. -/
def emit [Trigonometry α] (ctx : Context α) (s : State α) (kind : NodeKind) (text : String)
    (proposed : Point α) (anchor : Option (Node α)) : Except (Fault α) (Node α × State α) := do
  let (id, s) := s.freshId .node
  let container := Reference.ofName? (s.drafts.head?.map (·.id))
  let candidate ← Node.make
    ⟨id, .known kind, ⟨proposed.x, proposed.y, kind.width, nodeHeight⟩, text, container, []⟩
  let board ← numeric (Placement.Board.ofNodes ctx.settings.placement (ctx.existing ++ s.nodes))
  let place ← numeric (board.resolve candidate anchor)
  let node := if place.same candidate.position then candidate else candidate.movedTo place
  .ok (node, { s with nodes := s.nodes ++ [node], drafts := enlist id s.drafts })

/-- Adds a node to the chain. -/
def placeInSequence [Trigonometry α] (ctx : Context α) (s : State α) (kind : NodeKind)
    (text : String) : Except (Fault α) (State α) := do
  let s := if kind = .decision then s else { s with decisions := s.decisions.drop 1 }
  let previous := s.last.bind (nodeWithId? s.nodes)
  let (node, s) ← emit ctx s kind text s.cursor previous
  let s :=
    match previous with
    | some p => connect s p.id node.id
    | none => s
  let s := { s with last := some node.id }
  if kind = .decision then
    .ok { s with
      decisions := ⟨node.id, node.position⟩ :: s.decisions
      cursor := node.position }
  else
    .ok { s with cursor := ⟨node.rect.x + ctx.settings.horizontalSpacing, node.rect.y⟩ }

/-- Adds an answer to a decision beside it, and a negative one further down. -/
def placeAnswer [Trigonometry α] (ctx : Context α) (s : State α) (decision : OpenDecision α)
    (answer : Outline.Answer) (text : String) : Except (Fault α) (State α) := do
  let x := decision.position.x + ctx.settings.horizontalSpacing
  let y :=
    match answer with
    | .yes => decision.position.y
    | .no => decision.position.y + ctx.settings.verticalSpacing
  let (node, s) ← emit ctx s .process text ⟨x, y⟩ (nodeWithId? s.nodes decision.nodeId)
  let label ← Variant.labelOf (.known answer.variant)
  .ok (connectAnswer s decision.nodeId node.id answer.variant label)

/-- The size of a container before it is fitted. -/
def standardWidth : α := 400

def standardHeight : α := 240

/-- Adds a container to the innermost open one. -/
def adopt (id : String) : List (Draft α) → List (Draft α)
  | [] => []
  | d :: drafts => { d with children := d.children ++ [id] } :: drafts

def openContainer (ctx : Context α) (s : State α) (name : String) : State α :=
  let (id, s) := s.freshId .container
  let draft : Draft α := {
    id := id
    name := name
    rect := ⟨s.cursor.x, s.cursor.y, standardWidth, standardHeight⟩
    resumeY := s.cursor.y
    depth := s.drafts.length
    parent := s.drafts.head?.map (·.id)
    nodeIds := []
    children := [] }
  let padding := ctx.settings.containerPadding
  { s with
    drafts := draft :: adopt id s.drafts
    opened := s.opened ++ [id]
    cursor := ⟨s.cursor.x + padding, s.cursor.y + padding⟩ }

/-- The closed container with a given id. -/
def closedContainer (s : State α) (id : String) : Except (Fault α) (Container α) :=
  match s.closed.find? (·.id = id) with
  | some c => .ok c
  | none => .error (.noContainer id)

/-- The container that a draft becomes. -/
def finished (d : Draft α) : Container α :=
  ⟨d.id, .known .unit, d.name, d.rect, d.nodeIds, d.children, d.parent, d.depth, false, false⟩

/-- Closes the innermost open container and fits it around its members. -/
def closeContainer (ctx : Context α) (s : State α) : Except (Fault α) (State α) :=
  match s.drafts with
  | [] => .error .noOpenContainer
  | draft :: drafts => do
    let margin := ctx.settings.containerMargin
    let nodes ← draft.nodeIds.mapM (requireNode s.nodes)
    let children ← draft.children.mapM (closedContainer s)
    let container := (finished draft).around margin (nodes.map (·.rect) ++ children.map (·.rect))
    .ok { s with
      drafts := drafts
      closed := s.closed ++ [container]
      cursor := ⟨container.rect.x + container.rect.width + margin, draft.resumeY⟩ }

/-- Takes up what one line says. -/
def step [Trigonometry α] (ctx : Context α) (s : State α) :
    Outline.Content → Except (Fault α) (State α)
  | .nothing => .ok s
  | .opening name => .ok (openContainer ctx s name)
  | .closing => if s.drafts.isEmpty then .ok s else closeContainer ctx s
  | .node kind label => placeInSequence ctx s kind label
  | .answer answer label =>
    match s.decisions with
    | decision :: _ => placeAnswer ctx s decision answer label
    | [] => placeInSequence ctx s .process label

end Flowchart.Interpretation
