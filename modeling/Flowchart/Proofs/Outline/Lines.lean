import Flowchart.Outline.Line
import Flowchart.Proofs.Concat
import Flowchart.Proofs.Nesting

/-!
# The lines of an outline that count

`lines` are the lines of a text that say something, and `nodeLines` are those of them that add a node. What the
interpretation takes up is what `lines` say, in order (`contents_eq`).

The lines form two kinds of brackets. On the node lines, a decision opens and a node that answers nothing closes
(`Content.branching`); on all lines, containers are opened and closed (`Content.framing`).
-/

namespace Flowchart.Outline

namespace Content

/-- The kind and the label of the node that is added, if one is. -/
def node? : Content → Option (NodeKind × String)
  | node kind label => some (kind, label)
  | answer _ label => some (.process, label)
  | _ => none

def answer? : Content → Option Answer
  | answer a _ => some a
  | _ => none

/-- The name of the container that is opened, if one is. -/
def name? : Content → Option String
  | opening name => some name
  | _ => none

/-- How a node line bears on the decisions: a decision opens, an answer does nothing, any other node closes. -/
def branching : Content → Bracket
  | node .decision _ => .opens
  | node _ _ => .closes
  | _ => .plain

/-- How a line bears on the containers. -/
def framing : Content → Bracket
  | opening _ => .opens
  | closing => .closes
  | _ => .plain

end Content

/-- Whether a line adds a node. -/
def Line.addsNode (line : Line) : Bool :=
  line.content.node?.isSome

/-- The lines of a text that say something. -/
def lines (maxLength : Int) (text : List Char) : List Line :=
  ((splitLines text).map (classify maxLength)).filter fun line => line.content ≠ .nothing

/-- The lines of a text that add a node. -/
def nodeLines (maxLength : Int) (text : List Char) : List Line :=
  (lines maxLength text).filter (·.addsNode)

/-- What the lines of a text say that say something. -/
def lineContents (maxLength : Int) (text : List Char) : List Content :=
  (lines maxLength text).map (·.content)

/-- What the lines of a text say that add a node. -/
def nodeContents (maxLength : Int) (text : List Char) : List Content :=
  (nodeLines maxLength text).map (·.content)

/-- A line of nothing but blanks says nothing. -/
theorem content_of_blank (maxLength : Int) {raw : List Char} (h : (Text.trim raw).isEmpty) :
    (classify maxLength raw).content = .nothing := by
  rw [List.isEmpty_iff] at h
  simp [classify, h, contentOf, rules, noiseRule, isNoise, Content.capped]

theorem contents_eq (maxLength : Int) (text : List Char) :
    contents maxLength text = lineContents maxLength text := by
  unfold contents lineContents lines
  induction splitLines text with
  | nil => rfl
  | cons raw rest ih =>
    by_cases hblank : (Text.trim raw).isEmpty
    · have hnothing := content_of_blank maxLength hblank
      simp only [List.filter_cons, List.map_cons, hblank, hnothing]
      simpa using ih
    · by_cases hnothing : (classify maxLength raw).content = .nothing
      · simp only [List.filter_cons, List.map_cons, hblank, hnothing]
        simpa [hnothing] using ih
      · simp only [List.filter_cons, List.map_cons, hblank]
        simpa [hnothing] using ih

theorem nodeContents_eq (maxLength : Int) (text : List Char) :
    nodeContents maxLength text = (contents maxLength text).filter (·.node?.isSome) := by
  rw [contents_eq, lineContents, List.filter_map]
  rfl

/-- The lines of two texts, one below the other. -/
theorem splitLines_append (s t : List Char) : splitLines (s ++ '\n' :: t) = splitLines s ++ splitLines t := by
  induction s with
  | nil => rfl
  | cons c s ih =>
    rw [List.cons_append, splitLines, splitLines]
    split
    · rw [ih, List.cons_append]
    · obtain ⟨line, rest, hs⟩ := List.exists_cons_of_ne_nil (splitLines_ne_nil s)
      rw [ih, hs]
      rfl

theorem splitLines_of_not_mem {s : List Char} (h : '\n' ∉ s) : splitLines s = [s] := by
  induction s with
  | nil => rfl
  | cons c s ih =>
    rw [List.mem_cons, not_or] at h
    rw [splitLines, if_neg (Ne.symm h.1), ih h.2]

/-- Lines that are joined and split again are the same lines. -/
theorem splitLines_joinLines {ls : List (List Char)} (hne : ls ≠ []) (h : ∀ line ∈ ls, '\n' ∉ line) :
    splitLines (joinLines ls) = ls := by
  induction ls with
  | nil => exact absurd rfl hne
  | cons line rest ih =>
    have hline := splitLines_of_not_mem (h line List.mem_cons_self)
    cases rest with
    | nil => exact hline
    | cons next rest =>
      rw [joinLines, splitLines_append, hline,
        ih (List.cons_ne_nil next rest) fun l hl => h l (List.mem_cons_of_mem line hl)]
      rfl

theorem contents_append (maxLength : Int) (s t : List Char) :
    contents maxLength (s ++ '\n' :: t) = contents maxLength s ++ contents maxLength t := by
  unfold contents
  rw [splitLines_append, List.filter_append, List.map_append, List.filter_append]

/-- The kinds and texts that are told of the node lines are those of what the lines say. -/
theorem nodeLines_map_shown (maxLength : Int) (text : List Char) :
    (nodeLines maxLength text).map (fun line => (line.kindName, line.text)) =
      ((contents maxLength text).filterMap (·.node?)).map fun (kind, label) => (Vocabulary.name kind, label) := by
  rw [contents_eq, lineContents, List.filterMap_map, nodeLines, List.map_filterMap]
  induction lines maxLength text with
  | nil => rfl
  | cons line rest ih =>
    obtain ⟨content, level⟩ := line
    cases content with
    | node kind label => simpa [Line.addsNode, Content.node?] using ⟨⟨rfl, rfl⟩, ih⟩
    | answer a label => simpa [Line.addsNode, Content.node?] using ⟨⟨rfl, rfl⟩, ih⟩
    | nothing => simpa [Line.addsNode, Content.node?] using ih
    | opening name => simpa [Line.addsNode, Content.node?] using ih
    | closing => simpa [Line.addsNode, Content.node?] using ih

end Flowchart.Outline
