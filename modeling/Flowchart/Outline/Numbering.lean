import Flowchart.Outline.Pattern

/-!
# Outline numbering

A numbered outline is read after its numbers have been taken off: `1.1.1.`, `1.1.` and `(1)` at the beginning of
a line, each at most once and in this order.
-/

namespace Flowchart.Outline

/-- The line without one leading number, if `number?` finds one, and without the blanks behind it. -/
def dropNumber (number? : List Char → Option (List Char)) (line : List Char) : List Char :=
  match number? line with
  | some rest => Text.trimStart rest
  | none => line

def stripLineNumber (line : List Char) : List Char :=
  dropNumber dropParenthesized? (dropNumber (dropDotted? 2) (dropNumber (dropDotted? 3) (Text.trim line)))

/-- The lines of a text, which are ended by newlines only. -/
def splitLines : List Char → List (List Char)
  | [] => [[]]
  | c :: s =>
    if c = '\n' then [] :: splitLines s
    else
      match splitLines s with
      | [] => [[c]]
      | line :: rest => (c :: line) :: rest

/-- The text of some lines. -/
def joinLines : List (List Char) → List Char
  | [] => []
  | [line] => line
  | line :: next :: rest => line ++ '\n' :: joinLines (next :: rest)

theorem splitLines_ne_nil (s : List Char) : splitLines s ≠ [] := by
  cases s with
  | nil => simp [splitLines]
  | cons c s =>
    unfold splitLines
    split
    · simp
    · split <;> simp

/-- Splitting loses nothing. -/
theorem joinLines_splitLines (s : List Char) : joinLines (splitLines s) = s := by
  induction s with
  | nil => rfl
  | cons c s ih =>
    unfold splitLines
    split
    · next h =>
      subst h
      obtain ⟨line, rest, hs⟩ := List.exists_cons_of_ne_nil (splitLines_ne_nil s)
      rw [hs] at ih ⊢
      simp [joinLines, ih]
    · split
      · next hs => exact absurd hs (splitLines_ne_nil s)
      · next line rest hs =>
        rw [hs] at ih
        cases rest <;> simp_all [joinLines]

/-- The text without the numbers of its lines. -/
def stripNumbering (s : List Char) : List Char :=
  joinLines ((splitLines s).map stripLineNumber)

end Flowchart.Outline
