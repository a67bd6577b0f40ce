import Flowchart.Sorting.Run
import Flowchart.Sorting.Merge

/-!
# Sorting

A list is put in rising order by a comparison `less`. If `less` is an order, the outcome is the sorted list in
which equal elements keep their places. Among numbers there is one that compares with nothing, and then the
outcome depends on the method, which is therefore fixed: the list is cut into runs, and neighbouring runs are
merged, those first whose border lies deepest in the halving of the whole list.

The main statement here is that sorting neither loses nor adds an element; that it sorts stands in
`Flowchart.Sorting.Rising`.
-/

namespace Flowchart.Sorting

variable {β : Type}

/-- The first binary place in which `a / (2 * total)` and the greater `b / (2 * total)` differ. -/
def firstDifference (total : Nat) : (places : Nat) → (a b : Nat) → Nat
  | 0, _, _ => 0
  | places + 1, a, b =>
    if total ≤ a then 1 + firstDifference total places (2 * (a - total)) (2 * (b - total))
    else if total ≤ b then 1
    else 1 + firstDifference total places (2 * a) (2 * b)

/-- How deep the border between two neighbouring runs lies: the first binary place in which their middles
differ as parts of the whole list. -/
def borderDepth (total start length nextLength : Nat) : Nat :=
  let a := 2 * start + length
  firstDifference total total a (a + length + nextLength)

/-- A run that waits to be merged, where it begins, and how deep its border with the next run lies. -/
structure Waiting (β : Type) where
  run : List β
  start : Nat
  depth : Nat
deriving DecidableEq, Repr

/-- The waiting runs, the latest first, and the patience with which they are merged. -/
structure Stack (β : Type) where
  runs : List (Waiting β)
  patience : Nat
deriving DecidableEq, Repr

/-- Merges the latest run with those before it as long as their borders lie deeper than its border with the
next run. -/
def settle (less : β → β → Bool) (depth : Nat) (latest : Waiting β) (patience : Nat) :
    List (Waiting β) → Stack β
  | [] => ⟨[{ latest with depth := depth }], patience⟩
  | w :: runs =>
    if depth < w.depth then
      let (run, patience) := merge less patience w.run latest.run
      settle less depth ⟨run, w.start, w.depth⟩ patience runs
    else ⟨{ latest with depth := depth } :: w :: runs, patience⟩

def Stack.push (less : β → β → Bool) (total : Nat) (s : Stack β) (start : Nat) (run : List β) : Stack β :=
  match s.runs with
  | [] => ⟨[⟨run, start, 0⟩], s.patience⟩
  | latest :: runs =>
    let depth := borderDepth total latest.start latest.run.length run.length
    let s := settle less depth latest s.patience runs
    ⟨⟨run, start, 0⟩ :: s.runs, s.patience⟩

/-- Cuts a list into runs and pushes them. The length of the list bounds the number of runs. -/
def pushRuns (less : β → β → Bool) (total least : Nat) :
    (runs : Nat) → Stack β → (start : Nat) → List β → Stack β
  | 0, s, start, xs => if xs.isEmpty then s else s.push less total start xs
  | runs + 1, s, start, xs =>
    if xs.isEmpty then s
    else
      let (run, rest) := extendedRun less least xs
      pushRuns less total least runs (s.push less total start run) (start + run.length) rest

/-- Merges all runs that wait, the two latest ones first, unless the run before these is shorter than the
latest. The number of runs before the latest bounds the `merges` that are needed. -/
def mergeAll (less : β → β → Bool) : (merges patience : Nat) → (latest : List β) → List (List β) → List β
  | merges + 1, patience, latest, second :: third :: runs =>
    if third.length < latest.length then
      let (run, patience) := merge less patience third second
      mergeAll less merges patience latest (run :: runs)
    else
      let (run, patience) := merge less patience second latest
      mergeAll less merges patience run (third :: runs)
  | _ + 1, patience, latest, [second] => (merge less patience second latest).1
  | _, _, latest, runs => runs.reverse.flatten ++ latest

/-- The list in rising order. -/
def sort (less : β → β → Bool) (xs : List β) : List β :=
  let s := pushRuns less xs.length (leastRunLength xs.length) xs.length ⟨[], wideLeap⟩ 0 xs
  match s.runs with
  | [] => []
  | latest :: runs => mergeAll less runs.length s.patience latest.run (runs.map (·.run))

/-! ### Nothing is lost or added -/

/-- The elements of runs that wait. -/
def elements (runs : List (Waiting β)) : List β :=
  runs.flatMap (·.run)

theorem settle_perm (less : β → β → Bool) (depth : Nat) (latest : Waiting β) (patience : Nat)
    (runs : List (Waiting β)) :
    (elements (settle less depth latest patience runs).runs).Perm (latest.run ++ elements runs) := by
  induction runs generalizing latest patience with
  | nil => simp [settle, elements]
  | cons w runs ih =>
    unfold settle
    split
    · refine (ih _ _).trans ?_
      refine ((merge_perm less patience w.run latest.run).append_right _).trans ?_
      refine (List.perm_append_comm.append_right _).trans ?_
      simp [elements]
    · simp [elements]

theorem push_perm (less : β → β → Bool) (total : Nat) (s : Stack β) (start : Nat) (run : List β) :
    (elements (s.push less total start run).runs).Perm (run ++ elements s.runs) := by
  unfold Stack.push
  split
  · next h => simp [elements, h]
  · next latest runs h =>
    rw [h]
    refine (List.Perm.append_left run (settle_perm less _ latest s.patience runs)).trans ?_
    simp [elements]

theorem pushRuns_perm (less : β → β → Bool) (total least runs : Nat) (s : Stack β) (start : Nat) (xs : List β) :
    (elements (pushRuns less total least runs s start xs).runs).Perm (xs ++ elements s.runs) := by
  induction runs generalizing s start xs with
  | zero =>
    unfold pushRuns
    split
    · next h => simp [List.isEmpty_iff.mp h]
    · exact push_perm less total s start xs
  | succ runs ih =>
    unfold pushRuns
    split
    · next h => simp [List.isEmpty_iff.mp h]
    · have hxs := extendedRun_perm less least xs
      refine (ih _ _ _).trans ?_
      refine ((push_perm less total s start _).append_left _).trans ?_
      rw [← List.append_assoc]
      exact (List.perm_append_comm.trans hxs).append_right _

theorem mergeAll_perm (less : β → β → Bool) (merges patience : Nat) (latest : List β) (runs : List (List β)) :
    (mergeAll less merges patience latest runs).Perm (latest ++ runs.flatten) := by
  fun_induction mergeAll less merges patience latest runs with
  | case1 merges patience latest second third runs _ run patience' h ih =>
    have hm := merge_perm less patience third second
    rw [h] at hm
    refine (ih.trans (List.Perm.append_left latest (hm.append_right _))).trans ?_
    refine List.Perm.append_left latest ?_
    simpa using (List.perm_append_comm.append_right runs.flatten)
  | case2 merges patience latest second third runs _ run patience' h ih =>
    have hm := merge_perm less patience second latest
    rw [h] at hm
    refine (ih.trans (hm.append_right _)).trans ?_
    simpa using (List.perm_append_comm.append_right (third ++ runs.flatten))
  | case3 merges patience latest second =>
    refine (merge_perm less patience second latest).trans ?_
    simpa using List.perm_append_comm
  | case4 _ _ latest runs =>
    refine List.perm_append_comm.trans (List.Perm.append_left latest ?_)
    exact (List.reverse_perm runs).flatten

/-- The sorted list has the elements of the list. -/
theorem sort_perm (less : β → β → Bool) (xs : List β) : (sort less xs).Perm xs := by
  have h := pushRuns_perm less xs.length (leastRunLength xs.length) xs.length ⟨[], wideLeap⟩ 0 xs
  unfold sort
  dsimp only
  split
  · next hs =>
    rw [hs] at h
    simpa [elements] using h
  · next latest runs hs =>
    rw [hs] at h
    refine (mergeAll_perm less _ _ _ _).trans ?_
    simpa [elements, List.flatMap_def] using h

end Flowchart.Sorting
