import Flowchart.Sorting.Leading

/-!
# Merging two runs

Two neighbouring runs are merged; of equal elements those of the left run come first. What is in place already
stays there: the left elements that are not greater than the first right one, and the right elements that are
not less than the last left one. The rest is merged from the front if the left part is not the longer one, else
from the back, by the same rules with both lists reversed and the comparison turned round.

Elements are taken one by one until as many in a row come from one list as the merge has patience for. Then they
are taken in leaps, from one list and the other in turn, as long as leaps are wide. Patience falls with every
further round of leaps and rises when leaps are given up; it is carried from one merge to the next.

The main statement is that merging neither loses nor adds an element.
-/

namespace Flowchart.Sorting

variable {β : Type}

/-- One of the two lists that are merged. -/
inductive Source where
  | left
  | right
deriving DecidableEq, Repr

/-- The end at which a merge begins. -/
inductive Side where
  | front
  | back
deriving DecidableEq, Repr

namespace Side

/-- Seen from the back, the later one of two elements is the earlier one. -/
def halving : Side → Halving
  | front => .late
  | back => .early

/-- The list from which the first leap of a round is taken: the run on the left, which from the back is the
right one of the reversed lists. -/
def firstSource : Side → Source
  | front => .left
  | back => .right

/-- The list from which the second leap of a round is taken. -/
def secondSource : Side → Source
  | front => .right
  | back => .left

end Side

/-- How a merge goes on. -/
inductive Pace where
  /-- One by one; so many elements in a row have come from the left and from the right list. -/
  | steps (lefts rights : Nat)
  /-- With the first leap of a round. -/
  | leap
  /-- With the second leap of a round, after a first one of this width. -/
  | secondLeap (width : Nat)
deriving DecidableEq, Repr

/-- The width from which on a leap is wide. Patience begins with as many elements. -/
def wideLeap : Nat := 7

/-- A pace, and how many elements in a row it takes until leaps begin. -/
structure Gait where
  pace : Pace
  patience : Nat
deriving DecidableEq, Repr

namespace Gait

def afterStep (patience lefts rights : Nat) : Gait :=
  ⟨if patience ≤ Nat.max lefts rights then .leap else .steps lefts rights, patience⟩

def afterFirstLeap (patience width : Nat) : Gait :=
  ⟨.secondLeap width, patience⟩

def afterSecondLeap (patience firstWidth width : Nat) : Gait :=
  if wideLeap ≤ Nat.max firstWidth width then ⟨.leap, Nat.max 1 (patience - 1)⟩
  else ⟨.steps 0 0, patience + 1⟩

end Gait

/-- What a merge takes at once, what it leaves of both lists, and how it goes on. -/
structure Move (β : Type) where
  taken : List β
  left : List β
  right : List β
  gait : Gait
deriving DecidableEq, Repr

/-- Takes the lesser one of the first elements, the left one if neither is less. -/
def stepMove (less : β → β → Bool) (patience lefts rights : Nat) (x : β) (left : List β) (z : β)
    (right : List β) : Move β :=
  if less z x then ⟨[z], x :: left, right, .afterStep patience 0 (rights + 1)⟩
  else ⟨[x], left, z :: right, .afterStep patience (lefts + 1) 0⟩

/-- Takes the left elements that are not greater than the first right one, and then this one; but the last left
element is not passed. -/
def leapLeft (less : β → β → Bool) (halving : Halving) (gait : (width : Nat) → Gait) (left : List β) (z : β)
    (right : List β) : Move β :=
  let width := countLeading halving (fun y => !less z y) left
  let rest := left.drop width
  if rest.length ≤ 1 then ⟨left.take width, rest, z :: right, gait width⟩
  else ⟨left.take width ++ [z], rest, right, gait width⟩

/-- Takes the right elements that are less than the first left one, and then this one, unless nothing is left on
the right. -/
def leapRight (less : β → β → Bool) (halving : Halving) (gait : (width : Nat) → Gait) (x : β) (left : List β)
    (right : List β) : Move β :=
  let width := countLeading halving (fun y => less y x) right
  let rest := right.drop width
  if rest.isEmpty then ⟨right.take width, x :: left, [], gait width⟩
  else ⟨right.take width ++ [x], left, rest, gait width⟩

/-- A leap from one of the lists. -/
def leapMove (less : β → β → Bool) (side : Side) (source : Source) (gait : (width : Nat) → Gait) (x : β)
    (left : List β) (z : β) (right : List β) : Move β :=
  match source with
  | .left => leapLeft less side.halving gait (x :: left) z right
  | .right => leapRight less side.halving gait x left (z :: right)

def Gait.move (less : β → β → Bool) (side : Side) (gait : Gait) (x : β) (left : List β) (z : β)
    (right : List β) : Move β :=
  match gait.pace with
  | .steps lefts rights => stepMove less gait.patience lefts rights x left z right
  | .leap => leapMove less side side.firstSource (.afterFirstLeap gait.patience) x left z right
  | .secondLeap width =>
    leapMove less side side.secondSource (.afterSecondLeap gait.patience width) x left z right

/-- Merges move by move until at most one left element or no right one is left; a last left element comes last.
The outcome has with it the patience of the last move. The lengths of both lists bound the `moves` that are
needed. -/
def mergeMoves (less : β → β → Bool) (side : Side) :
    (moves : Nat) → Gait → (patience : Nat) → List β → List β → List β × Nat
  | moves + 1, gait, _, x :: y :: left, z :: right =>
    let m := gait.move less side x (y :: left) z right
    let (merged, patience) := mergeMoves less side moves m.gait gait.patience m.left m.right
    (m.taken ++ merged, patience)
  | _, _, patience, [x], right => (right ++ [x], patience)
  | _, _, patience, left, right => (left ++ right, patience)

/-- The merge of two lists of which the right one holds the first element. -/
def mergeFrom (less : β → β → Bool) (side : Side) (patience : Nat) (left : List β) :
    List β → List β × Nat
  | [] => (left, patience)
  | z :: right =>
    let moves := left.length + right.length
    let (merged, patience) := mergeMoves less side moves ⟨.steps 0 0, patience⟩ patience left right
    (z :: merged, patience)

/-- The merge from the front if the left list is not the longer one, else from the back. -/
def mergeFromEnd (less : β → β → Bool) (patience : Nat) (left right : List β) : List β × Nat :=
  if left.length ≤ right.length then mergeFrom less .front patience left right
  else
    let merged := mergeFrom (fun a b => less b a) .back patience right.reverse left.reverse
    (merged.1.reverse, merged.2)

/-- How many elements of a list are in place before another list: those not greater than its first element. -/
def countInPlace (less : β → β → Bool) (h : Halving) (xs ys : List β) : Nat :=
  countLeading h (fun x => ys.head?.all fun y => !less y x) xs

/-- The merge of two neighbouring runs, and the patience that is left. -/
def merge (less : β → β → Bool) (patience : Nat) (left right : List β) : List β × Nat :=
  let before := countInPlace less .late left right
  let rest := left.drop before
  let back := right.reverse
  let behind := countInPlace (fun a b => less b a) .early back rest.reverse
  let merged := mergeFromEnd less patience rest (back.drop behind).reverse
  (left.take before ++ (merged.1 ++ (back.take behind).reverse), merged.2)

/-! ### Nothing is lost or added -/

theorem stepMove_perm (less : β → β → Bool) (patience lefts rights : Nat) (x : β) (left : List β) (z : β)
    (right : List β) {m : Move β} (hm : stepMove less patience lefts rights x left z right = m) :
    (m.taken ++ (m.left ++ m.right)).Perm (x :: left ++ z :: right) := by
  unfold stepMove at hm
  split at hm
  · subst hm
    have h : (z :: (x :: left ++ right)).Perm (x :: left ++ z :: right) := List.perm_middle.symm
    exact h
  · subst hm
    exact List.Perm.refl _

theorem leapLeft_perm (less : β → β → Bool) (halving : Halving) (gait : Nat → Gait) (left : List β) (z : β)
    (right : List β) {m : Move β} (hm : leapLeft less halving gait left z right = m) :
    (m.taken ++ (m.left ++ m.right)).Perm (left ++ z :: right) := by
  unfold leapLeft at hm
  dsimp only at hm
  generalize countLeading halving (fun y => !less z y) left = width at hm
  have hleft := List.take_append_drop width left
  split at hm
  · subst hm
    dsimp only
    rw [← List.append_assoc, hleft]
  · subst hm
    dsimp only
    conv => rhs; rw [← hleft, List.append_assoc]
    rw [List.append_assoc]
    have h : (z :: (left.drop width ++ right)).Perm (left.drop width ++ z :: right) := List.perm_middle.symm
    exact h.append_left _

theorem leapRight_perm (less : β → β → Bool) (halving : Halving) (gait : Nat → Gait) (x : β) (left : List β)
    (right : List β) {m : Move β} (hm : leapRight less halving gait x left right = m) :
    (m.taken ++ (m.left ++ m.right)).Perm (x :: left ++ right) := by
  unfold leapRight at hm
  dsimp only at hm
  generalize countLeading halving (fun y => less y x) right = width at hm
  have hright := List.take_append_drop width right
  split at hm
  · next hrest =>
    subst hm
    rw [List.isEmpty_iff.mp hrest, List.append_nil] at hright
    dsimp only
    rw [hright, List.append_nil]
    exact List.perm_append_comm
  · subst hm
    dsimp only
    conv => rhs; rw [← hright]
    rw [List.append_assoc, List.cons_append, List.nil_append, List.cons_append]
    refine List.perm_middle.trans (List.Perm.cons x ?_)
    rw [← List.append_assoc, ← List.append_assoc]
    exact List.perm_append_comm.append_right _

theorem Gait.move_perm (less : β → β → Bool) (side : Side) (gait : Gait) (x : β) (left : List β) (z : β)
    (right : List β) {m : Move β} (hm : gait.move less side x left z right = m) :
    (m.taken ++ (m.left ++ m.right)).Perm (x :: left ++ z :: right) := by
  unfold Gait.move leapMove at hm
  split at hm
  · exact stepMove_perm less _ _ _ x left z right hm
  · split at hm
    · exact leapLeft_perm less _ _ (x :: left) z right hm
    · exact leapRight_perm less _ _ x left (z :: right) hm
  · split at hm
    · exact leapLeft_perm less _ _ (x :: left) z right hm
    · exact leapRight_perm less _ _ x left (z :: right) hm

theorem mergeMoves_perm (less : β → β → Bool) (side : Side) (moves : Nat) (gait : Gait) (patience : Nat)
    (left right : List β) :
    (mergeMoves less side moves gait patience left right).1.Perm (left ++ right) := by
  fun_induction mergeMoves less side moves gait patience left right with
  | case1 _ moves gait x y left z right m merged patience h ih =>
    rw [h] at ih
    exact (ih.append_left m.taken).trans (Gait.move_perm less side gait x (y :: left) z right rfl)
  | case2 => exact List.perm_append_comm
  | case3 => exact List.Perm.refl _

theorem mergeFrom_perm (less : β → β → Bool) (side : Side) (patience : Nat) (left right : List β) :
    (mergeFrom less side patience left right).1.Perm (left ++ right) := by
  unfold mergeFrom
  split
  · simp
  · exact ((mergeMoves_perm less side _ _ _ _ _).cons _).trans List.perm_middle.symm

theorem mergeFromEnd_perm (less : β → β → Bool) (patience : Nat) (left right : List β) :
    (mergeFromEnd less patience left right).1.Perm (left ++ right) := by
  unfold mergeFromEnd
  split
  · exact mergeFrom_perm less .front patience left right
  · refine (List.reverse_perm _).trans ((mergeFrom_perm _ .back patience _ _).trans ?_)
    exact List.perm_append_comm.trans ((List.reverse_perm _).append (List.reverse_perm _))

theorem reverse_drop_append_reverse_take (n : Nat) (xs : List β) :
    (xs.reverse.drop n).reverse ++ (xs.reverse.take n).reverse = xs := by
  rw [← List.reverse_append, List.take_append_drop, List.reverse_reverse]

/-- The merge of two runs has the elements of both. -/
theorem merge_perm (less : β → β → Bool) (patience : Nat) (left right : List β) :
    (merge less patience left right).1.Perm (left ++ right) := by
  unfold merge
  dsimp only
  generalize countInPlace less .late left right = before
  generalize countInPlace (fun a b => less b a) .early right.reverse (left.drop before).reverse = behind
  have hleft := List.take_append_drop before left
  have hright := reverse_drop_append_reverse_take behind right
  conv => rhs; rw [← hleft, ← hright, List.append_assoc, ← List.append_assoc (left.drop before)]
  exact List.Perm.append_left _ ((mergeFromEnd_perm less patience _ _).append_right _)

end Flowchart.Sorting
