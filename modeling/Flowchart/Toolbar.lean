import Flowchart.Node

/-!
# New nodes and copies

What a toolbar offers: a new node of a kind with a placeholder text, and a copy of a node under a new id. The
new id is made by the caller.
-/

namespace Flowchart

/-- The text of a new node until it gets its own. -/
def NodeKind.placeholder : NodeKind → String
  | .start => "[Início] Novo fluxo"
  | .process => "[Processo] Nova ação"
  | .decision => "[Decisão] \"Condição?\""
  | .finish => "[Fim] Fluxo concluído"

/-- The text with the first occurrence of `word` replaced; the empty word occurs at the beginning. -/
def replaceFirst (word replacement : List Char) : List Char → List Char
  | [] => if word.isEmpty then replacement else []
  | c :: s =>
    match word.isPrefixOf? (c :: s) with
    | some rest => replacement ++ rest
    | none => c :: replaceFirst word replacement s

namespace Node

variable {α : Type} [Scalar α]

/-- A given text, or a stand-in for one that is absent or empty. -/
def textOr (given : Option String) (standIn : String) : String :=
  match given with
  | some s => if s.isEmpty then standIn else s
  | none => standIn

/-- A new node of a kind at a place; without an id of its own it gets `freshId`. -/
def create (freshId : String) (kind : Term NodeKind) (p : Point α) (text id : Option String) :
    Except (Fault α) (Node α) :=
  match kind with
  | .foreign name => .error (.unknownKind name)
  | .known k =>
    make ⟨textOr id freshId, kind, ⟨p.x, p.y, k.width, nodeHeight⟩, textOr text k.placeholder,
      .absent, []⟩

/-- A copy of a node under a new id, moved by an offset. The ids of its hooks hold the id of the node, which is
replaced in them by the new one. -/
def clone (n : Node α) (freshId : String) (dx dy : α) : Node α :=
  { n with
    id := freshId
    rect := n.rect.movedTo ⟨n.rect.x + dx, n.rect.y + dy⟩
    hooks := n.hooks.map fun h =>
      { h with
        id := String.ofList (replaceFirst n.id.toList freshId.toList h.id.toList) } }

end Node

end Flowchart
