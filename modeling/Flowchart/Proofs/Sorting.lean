import Flowchart.Sorting

/-!
# Sorting by a key

Sorting looks at elements through the comparison only. So it makes no difference whether elements are first replaced by
something that they are compared by, or sorted by what they would be replaced by (`sort_map`). The same holds of every
part of the method, and the proofs follow its definitions.
-/

namespace Flowchart.Sorting

variable {β γ : Type} (f : β → γ)

theorem countByHalving_map (h : Halving) (condition : γ → Bool) (steps : Nat) (xs : List β) :
    countByHalving h condition steps (xs.map f) = countByHalving h (fun x => condition (f x)) steps xs := by
  induction steps generalizing xs with
  | zero => rfl
  | succ steps ih =>
    unfold countByHalving
    simp only [List.length_map, ← List.map_drop, ← List.map_take]
    cases xs.drop (h.before xs.length) with
    | nil => rfl
    | cons x behind => simp only [List.map_cons, ih]

theorem countByLeaps_map (h : Halving) (condition : γ → Bool) (steps width : Nat) (xs : List β) :
    countByLeaps h condition steps width (xs.map f) = countByLeaps h (fun x => condition (f x)) steps width xs := by
  induction steps generalizing width xs with
  | zero => rfl
  | succ steps ih =>
    unfold countByLeaps
    simp only [List.length_map, ← List.map_drop, ← List.map_take, countByHalving_map]
    cases xs.drop (width - 1) with
    | nil => rfl
    | cons x behind => simp only [List.map_cons, ih]

theorem countLeading_map (h : Halving) (condition : γ → Bool) (xs : List β) :
    countLeading h condition (xs.map f) = countLeading h (fun x => condition (f x)) xs := by
  cases xs with
  | nil => rfl
  | cons x xs => simp only [countLeading, List.map_cons, List.length_map, countByLeaps_map]

theorem splitRun_map (goesOn : γ → γ → Bool) (last : β) (xs : List β) :
    splitRun goesOn (f last) (xs.map f) =
      (splitRun (fun a b => goesOn (f a) (f b)) last xs).map (List.map f) (List.map f) := by
  induction xs generalizing last with
  | nil => rfl
  | cons x xs ih =>
    simp only [List.map_cons, splitRun, ih]
    split <;> rfl

variable (less : γ → γ → Bool)

theorem firstRun_map (xs : List β) :
    firstRun less (xs.map f) = (firstRun (fun a b => less (f a) (f b)) xs).map (List.map f) (List.map f) := by
  match xs with
  | [] => rfl
  | [x] => rfl
  | x :: y :: xs =>
    simp only [List.map_cons, firstRun, splitRun_map]
    split <;> simp [Prod.map]

theorem insert_map (run : List β) (x : β) :
    insert less (run.map f) (f x) = (insert (fun a b => less (f a) (f b)) run x).map f := by
  simp [insert, countByHalving_map]

theorem foldl_insert_map (rest run : List β) :
    (rest.map f).foldl (insert less) (run.map f) =
      (rest.foldl (insert fun a b => less (f a) (f b)) run).map f := by
  induction rest generalizing run with
  | nil => rfl
  | cons x rest ih => rw [List.map_cons, List.foldl_cons, List.foldl_cons, insert_map, ih]

theorem extendedRun_map (least : Nat) (xs : List β) :
    extendedRun less least (xs.map f) =
      (extendedRun (fun a b => less (f a) (f b)) least xs).map (List.map f) (List.map f) := by
  simp only [extendedRun, firstRun_map, Prod.map_fst, Prod.map_snd, List.length_map, ← List.map_take, ← List.map_drop,
    foldl_insert_map, Prod.map_apply]

/-- The move with its elements replaced. -/
def Move.map (m : Move β) : Move γ :=
  ⟨m.taken.map f, m.left.map f, m.right.map f, m.gait⟩

theorem stepMove_map (patience lefts rights : Nat) (x : β) (left : List β) (z : β) (right : List β) :
    stepMove less patience lefts rights (f x) (left.map f) (f z) (right.map f) =
      (stepMove (fun a b => less (f a) (f b)) patience lefts rights x left z right).map f := by
  unfold stepMove
  split <;> rfl

theorem leapLeft_map (halving : Halving) (gait : Nat → Gait) (left : List β) (z : β) (right : List β) :
    leapLeft less halving gait (left.map f) (f z) (right.map f) =
      (leapLeft (fun a b => less (f a) (f b)) halving gait left z right).map f := by
  simp only [leapLeft, countLeading_map, ← List.map_drop, ← List.map_take, List.length_map]
  split <;> simp [Move.map]

theorem leapRight_map (halving : Halving) (gait : Nat → Gait) (x : β) (left right : List β) :
    leapRight less halving gait (f x) (left.map f) (right.map f) =
      (leapRight (fun a b => less (f a) (f b)) halving gait x left right).map f := by
  simp only [leapRight, countLeading_map, ← List.map_drop, ← List.map_take, List.isEmpty_map]
  split <;> simp [Move.map]

theorem leapMove_map (side : Side) (source : Source) (gait : Nat → Gait) (x : β) (left : List β) (z : β)
    (right : List β) :
    leapMove less side source gait (f x) (left.map f) (f z) (right.map f) =
      (leapMove (fun a b => less (f a) (f b)) side source gait x left z right).map f := by
  cases source with
  | left => exact leapLeft_map f less side.halving gait (x :: left) z right
  | right => exact leapRight_map f less side.halving gait x left (z :: right)

theorem Gait.move_map (side : Side) (gait : Gait) (x : β) (left : List β) (z : β) (right : List β) :
    gait.move less side (f x) (left.map f) (f z) (right.map f) =
      (gait.move (fun a b => less (f a) (f b)) side x left z right).map f := by
  unfold Gait.move
  split
  · exact stepMove_map ..
  · exact leapMove_map ..
  · exact leapMove_map ..

theorem mergeMoves_map (side : Side) (moves : Nat) (gait : Gait) (patience : Nat) (left right : List β) :
    mergeMoves less side moves gait patience (left.map f) (right.map f) =
      (mergeMoves (fun a b => less (f a) (f b)) side moves gait patience left right).map (List.map f) id := by
  induction moves generalizing gait patience left right with
  | zero =>
    match left, right with
    | [], _ => simp [mergeMoves]
    | [x], _ => simp [mergeMoves]
    | _ :: _ :: _, _ => simp [mergeMoves]
  | succ moves ih =>
    match left, right with
    | [], _ => simp [mergeMoves]
    | [x], _ => simp [mergeMoves]
    | _ :: _ :: _, [] => simp [mergeMoves]
    | x :: y :: left, z :: right =>
      have hmove := gait.move_map f less side x (y :: left) z right
      simp only [List.map_cons, mergeMoves] at hmove ⊢
      rw [hmove]
      simp [Move.map, ih]

theorem mergeFrom_map (side : Side) (patience : Nat) (left right : List β) :
    mergeFrom less side patience (left.map f) (right.map f) =
      (mergeFrom (fun a b => less (f a) (f b)) side patience left right).map (List.map f) id := by
  cases right with
  | nil => rfl
  | cons z right => simp [mergeFrom, mergeMoves_map]

theorem mergeFromEnd_map (patience : Nat) (left right : List β) :
    mergeFromEnd less patience (left.map f) (right.map f) =
      (mergeFromEnd (fun a b => less (f a) (f b)) patience left right).map (List.map f) id := by
  have hback := mergeFrom_map f (fun a b => less b a) .back patience right.reverse left.reverse
  rw [List.map_reverse, List.map_reverse] at hback
  simp only [mergeFromEnd, List.length_map, mergeFrom_map, hback]
  split
  · rfl
  · simp [Prod.map]

theorem countInPlace_map (h : Halving) (xs ys : List β) :
    countInPlace less h (xs.map f) (ys.map f) = countInPlace (fun a b => less (f a) (f b)) h xs ys := by
  unfold countInPlace
  rw [countLeading_map]
  cases ys <;> rfl

theorem merge_map (patience : Nat) (left right : List β) :
    merge less patience (left.map f) (right.map f) =
      (merge (fun a b => less (f a) (f b)) patience left right).map (List.map f) id := by
  simp only [merge, ← List.map_reverse, countInPlace_map, ← List.map_drop, mergeFromEnd_map, ← List.map_take]
  simp [Prod.map]

/-! ### The whole list -/

/-- The waiting run with its elements replaced. -/
def Waiting.map (w : Waiting β) : Waiting γ :=
  ⟨w.run.map f, w.start, w.depth⟩

/-- The waiting runs with their elements replaced. -/
def Stack.map (s : Stack β) : Stack γ :=
  ⟨s.runs.map (Waiting.map f), s.patience⟩

theorem settle_map (depth : Nat) (latest : Waiting β) (patience : Nat) (runs : List (Waiting β)) :
    settle less depth (latest.map f) patience (runs.map (Waiting.map f)) =
      (settle (fun a b => less (f a) (f b)) depth latest patience runs).map f := by
  induction runs generalizing latest patience with
  | nil => rfl
  | cons w runs ih =>
    simp only [List.map_cons, settle]
    have hdepth : (w.map f).depth = w.depth := rfl
    have hmerge := merge_map f less patience w.run latest.run
    rw [hdepth]
    split
    · rw [show (w.map f).run = w.run.map f from rfl, show (latest.map f).run = latest.run.map f from rfl, hmerge]
      exact ih ⟨_, w.start, w.depth⟩ _
    · rfl

theorem push_map (total : Nat) (s : Stack β) (start : Nat) (run : List β) :
    (s.map f).push less total start (run.map f) =
      (s.push (fun a b => less (f a) (f b)) total start run).map f := by
  obtain ⟨runs, patience⟩ := s
  cases runs with
  | nil => rfl
  | cons latest runs =>
    simp only [Stack.push, Stack.map, List.map_cons, settle_map]
    simp [Waiting.map]

theorem pushRuns_map (total least runs : Nat) (s : Stack β) (start : Nat) (xs : List β) :
    pushRuns less total least runs (s.map f) start (xs.map f) =
      (pushRuns (fun a b => less (f a) (f b)) total least runs s start xs).map f := by
  induction runs generalizing s start xs with
  | zero =>
    simp only [pushRuns, List.isEmpty_map, push_map]
    split <;> rfl
  | succ runs ih =>
    simp only [pushRuns, List.isEmpty_map, extendedRun_map, Prod.map_fst, Prod.map_snd, push_map, List.length_map, ih]
    split <;> rfl

theorem mergeAll_map (merges patience : Nat) (latest : List β) (runs : List (List β)) :
    mergeAll less merges patience (latest.map f) (runs.map (List.map f)) =
      (mergeAll (fun a b => less (f a) (f b)) merges patience latest runs).map f := by
  induction merges generalizing patience latest runs with
  | zero => simp [mergeAll]
  | succ merges ih =>
    match runs with
    | [] => simp [mergeAll]
    | [second] => simp [mergeAll, merge_map]
    | second :: third :: runs =>
      simp only [List.map_cons, mergeAll, List.length_map, merge_map, Prod.map_fst, Prod.map_snd, id_eq]
      split
      · exact ih _ _ (_ :: runs)
      · exact ih _ _ (third :: runs)

/-- Replacing the elements of a list and sorting it, or sorting it by what they will be replaced by, comes to the
same. -/
theorem sort_map (xs : List β) : sort less (xs.map f) = (sort (fun a b => less (f a) (f b)) xs).map f := by
  have hpushed := pushRuns_map f less xs.length (leastRunLength xs.length) xs.length ⟨[], wideLeap⟩ 0 xs
  have hnil : Stack.map f (⟨[], wideLeap⟩ : Stack β) = ⟨[], wideLeap⟩ := rfl
  rw [hnil] at hpushed
  unfold sort
  rw [List.length_map, hpushed]
  generalize pushRuns (fun a b => less (f a) (f b)) xs.length (leastRunLength xs.length) xs.length ⟨[], wideLeap⟩ 0 xs
    = s
  obtain ⟨runs, patience⟩ := s
  cases runs with
  | nil => rfl
  | cons latest runs =>
    have hmerged := mergeAll_map f less runs.length patience latest.run (runs.map (·.run))
    rw [List.map_map] at hmerged
    simpa [Stack.map, Waiting.map, Function.comp_def] using hmerged

end Flowchart.Sorting
