import Flowchart.Numeric.Power
import Flowchart.Sorting.Leading

/-!
# Runs

A list is cut into runs in rising order. A run is a beginning of the list that never falls, or one that falls at
every step and is turned round; if it is short, further elements are inserted into it by halving.
-/

namespace Flowchart.Sorting

variable {β : Type}

/-- The longest beginning in which `goesOn` holds from `last` on between neighbours, and what is behind it. -/
def splitRun (goesOn : β → β → Bool) : (last : β) → List β → List β × List β
  | _, [] => ([], [])
  | last, x :: xs =>
    if goesOn last x then
      let split := splitRun goesOn x xs
      (x :: split.1, split.2)
    else ([], x :: xs)

/-- The first run of a list in rising order, and what is behind it. -/
def firstRun (less : β → β → Bool) : List β → List β × List β
  | x :: y :: xs =>
    if less y x then
      let split := splitRun (fun a b => less b a) y xs
      ((x :: y :: split.1).reverse, split.2)
    else
      let split := splitRun (fun a b => !less b a) y xs
      (x :: y :: split.1, split.2)
  | xs => (xs, [])

/-- Puts `x` behind the elements of a run that are not greater. -/
def insert (less : β → β → Bool) (run : List β) (x : β) : List β :=
  let count := countByHalving .late (fun y => !less x y) run.length run
  run.take count ++ x :: run.drop count

/-- The first run, extended to `least` elements if there are so many, and what is behind it. -/
def extendedRun (less : β → β → Bool) (least : Nat) (xs : List β) : List β × List β :=
  let first := firstRun less xs
  let missing := least - first.1.length
  ((first.2.take missing).foldl (insert less) first.1, first.2.drop missing)

/-- The least length of a run in a list of `length` elements: the list in one if it has fewer than 64 elements,
else a length between 32 and 64 of which the whole is nearly a multiple by a power of two. -/
def leastRunLength (length : Nat) : Nat :=
  let parts := twoTo (Nat.log2 length - 5)
  (length + parts - 1) / parts

theorem splitRun_append (goesOn : β → β → Bool) (last : β) (xs : List β) :
    (splitRun goesOn last xs).1 ++ (splitRun goesOn last xs).2 = xs := by
  induction xs generalizing last with
  | nil => rfl
  | cons x xs ih =>
    unfold splitRun
    split
    · simp [ih x]
    · rfl

theorem firstRun_perm (less : β → β → Bool) (xs : List β) :
    ((firstRun less xs).1 ++ (firstRun less xs).2).Perm xs := by
  unfold firstRun
  split
  · next x y xs =>
    split
    · refine ((List.reverse_perm _).append_right _).trans ?_
      simp [splitRun_append]
    · simp [splitRun_append]
  · simp

theorem insert_perm (less : β → β → Bool) (run : List β) (x : β) : (insert less run x).Perm (x :: run) := by
  unfold insert
  refine List.perm_middle.trans ?_
  rw [List.take_append_drop]

theorem foldl_insert_perm (less : β → β → Bool) (run rest : List β) :
    (rest.foldl (insert less) run).Perm (run ++ rest) := by
  induction rest generalizing run with
  | nil => simp
  | cons x rest ih =>
    refine (ih _).trans ?_
    refine ((insert_perm less run x).append_right rest).trans ?_
    exact List.perm_middle.symm

theorem extendedRun_perm (less : β → β → Bool) (least : Nat) (xs : List β) :
    ((extendedRun less least xs).1 ++ (extendedRun less least xs).2).Perm xs := by
  unfold extendedRun
  refine ((foldl_insert_perm less _ _).append_right _).trans ?_
  rw [List.append_assoc, List.take_append_drop]
  exact firstRun_perm less xs

end Flowchart.Sorting
