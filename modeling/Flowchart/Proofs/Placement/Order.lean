import Flowchart.Proofs.Fault
import Flowchart.Proofs.Numeric.Rational
import Flowchart.Placement.Search

/-!
# The order of the search

The search for a place is one pass over one list: the five straight places, then the rings from the inside to the
outside and each of them angle by angle, then the random places (`searchOrder`). It stops at the first free place of
the list, and goes to the last resort if there is none (`search_finds_first`).

Each part of the search is the search of its part of the list (`find?_straightSpots`, `findOnRings?_eq`,
`findRandom?_eq`). The `i`-th random place takes the numbers `2 * i` and `2 * i + 1` of the stream that its seed
gives (`drawn`).
-/

namespace Flowchart

/-- The numbers that a generator gives, one after the other and counted from zero. -/
def Twister.number {α : Type} [Scalar α] (g : Twister) : Nat → α
  | 0 => (g.unit : α × Twister).1
  | i + 1 => (g.unit : α × Twister).2.number i

namespace Placement.Board

variable {α : Type} [Scalar α]

/-- The random place of an attempt, counted from zero. -/
def drawn (b : Board α) (n : Node α) (g : Twister) (attempt : Nat) : Point α :=
  let spanX := Scalar.max (b.config.canvasWidth - n.rect.width) 0
  let spanY := Scalar.max (b.config.canvasHeight - n.rect.height) 0
  ⟨g.number (2 * attempt) * spanX, g.number (2 * attempt + 1) * spanY⟩

/-- The random places of all attempts. -/
def randomPlaces (b : Board α) (n : Node α) : List (Point α) :=
  (List.range b.config.randomAttempts.toNat).map (b.drawn n (Twister.ofSeed b.config.seed))

variable [Trigonometry α]

/-- The places on the rings around a reference node, with a number of places on each ring. -/
def placesOnRings (b : Board α) (n reference : Node α) (perRing : Nat) : List (Point α) :=
  (List.range' 1 b.config.rings.toNat).flatMap fun ring => (List.range perRing).map (b.ringPlace n reference ring)

/-- The places on the rings around a reference node; none if the steps of a ring cannot be counted. -/
def ringPlaces (b : Board α) (n reference : Node α) : List (Point α) :=
  match b.placesPerRing with
  | .ok perRing => b.placesOnRings n reference perRing
  | .error _ => []

variable {b : Board α} {n reference : Node α} {p : Point α}

omit [Trigonometry α] in
/-- Where a straight spot lies does not depend on the guides of the reference node. -/
theorem straightSpots_points (b : Board α) (n : Node α) (reference : Placed α) (axis : Term Axis) :
    (b.straightSpots n reference axis).map (·.point) = b.straightPlaces n reference.node axis := by
  unfold straightPlaces straightSpots newPlaced
  split <;> rfl

theorem find?_straightSpots (b : Board α) (n : Node α) (reference : Placed α) (axis : Term Axis) :
    ((b.straightSpots n reference axis).find? (b.isFree ·.point n)).map (·.point) =
      (b.straightPlaces n reference.node axis).find? (b.isFree · n) := by
  rw [← straightSpots_points, List.find?_map]
  rfl

omit [Scalar α] [Trigonometry α] in
private theorem firstSome?_eq_findSome? {β : Type} (f : Nat → Option β) (start count : Nat) :
    firstSome? f start count = (List.range' start count).findSome? f := by
  induction count generalizing start with
  | zero => rfl
  | succ count ih =>
    rw [List.range'_succ, List.findSome?_cons, ← ih (start + 1)]
    rfl

/-- On the rings the first free place is found. -/
theorem findOnRings?_eq (b : Board α) (n reference : Node α) (perRing : Nat) :
    b.findOnRings? n reference perRing = (b.placesOnRings n reference perRing).find? (b.isFree · n) := by
  have hring : ∀ ring, firstSome? (fun step =>
      let p := b.ringPlace n reference ring step
      if b.isFree p n then some p else none) 0 perRing =
      ((List.range perRing).map (b.ringPlace n reference ring)).find? (b.isFree · n) := by
    intro ring
    rw [firstSome?_eq_findSome?, ← List.range_eq_range', List.find?_eq_findSome?_guard, List.findSome?_map]
    rfl
  unfold findOnRings? placesOnRings
  rw [List.find?_flatMap, firstSome?_eq_findSome?]
  simp only [hring]

omit [Trigonometry α] in
theorem randomPlace_eq (b : Board α) (n : Node α) (g : Twister) :
    b.randomPlace n g = (b.drawn n g 0, ((g.unit : α × Twister).2.unit : α × Twister).2) := by
  unfold randomPlace drawn
  simp only [Twister.number]

omit [Trigonometry α] in
/-- An attempt uses up two numbers. -/
theorem drawn_succ (b : Board α) (n : Node α) (g : Twister) (attempt : Nat) :
    b.drawn n g (attempt + 1) = b.drawn n (b.randomPlace n g).2 attempt := by
  have hdouble : 2 * (attempt + 1) = 2 * attempt + 1 + 1 := by omega
  rw [randomPlace_eq]
  unfold drawn
  rw [hdouble]
  simp only [Twister.number]

/-- Among the random places the first free one is found. -/
theorem findRandom?_eq (b : Board α) (n : Node α) (attempts : Nat) (g : Twister) :
    b.findRandom? n attempts g = ((List.range attempts).map (b.drawn n g)).find? (b.isFree · n) := by
  induction attempts generalizing g with
  | zero => rfl
  | succ attempts ih =>
    have hrest : (b.drawn n g ∘ Nat.succ) = b.drawn n (b.randomPlace n g).2 :=
      funext (b.drawn_succ n g)
    rw [List.range_succ_eq_map, List.map_cons, List.map_map, hrest, List.find?_cons, ← ih, findRandom?, randomPlace_eq]
    by_cases hfree : b.isFree (b.drawn n g 0) n = true
    · simp only [hfree, ↓reduceIte]
    · simp only [hfree, ↓reduceIte, Bool.false_eq_true]

/-! ### The whole search -/

/-- Away from the straight places the rest of the list is searched, if the steps of a ring can be counted. -/
theorem findAround_points (b : Board α) (n reference : Node α) :
    (b.findAround n reference).map (·.point) = b.placesPerRing.map fun _ =>
      ((b.ringPlaces n reference ++ b.randomPlaces n).find? (b.isFree · n)).getD b.lastResort.point := by
  have hrandom : b.findRandom? n b.config.randomAttempts.toNat (Twister.ofSeed b.config.seed) =
      (b.randomPlaces n).find? (b.isFree · n) := b.findRandom?_eq n _ _
  unfold findAround ringPlaces
  cases b.placesPerRing with
  | error e => rfl
  | ok perRing =>
    rw [List.find?_append, ← findOnRings?_eq, ← hrandom]
    dsimp only [bind, Except.bind]
    cases b.findOnRings? n reference perRing with
    | some p => rfl
    | none =>
      cases b.findRandom? n b.config.randomAttempts.toNat (Twister.ofSeed b.config.seed) with
      | some p => rfl
      | none => rfl

theorem find_eq {last : Node α} (hlast : b.nodes.getLast? = some last) (n : Node α) (reference : Option (Node α)) :
    b.find n reference =
      match (b.straightPlaces n (reference.getD last) b.primaryAxis).find? (b.isFree · n) with
      | some p => .ok p
      | none => b.placesPerRing.map fun _ => ((b.ringPlaces n (reference.getD last) ++ b.randomPlaces n).find?
          (b.isFree · n)).getD b.lastResort.point := by
  have hplaced : b.placed.getLast?.map (·.node) = some last := by
    rw [← List.getLast?_map]
    exact hlast
  obtain ⟨lastPlaced, hlastPlaced, rfl⟩ := Option.map_eq_some_iff.1 hplaced
  have hnode : ((reference.map b.newPlaced).getD lastPlaced).node = reference.getD lastPlaced.node := by
    cases reference <;> rfl
  have hmap : b.find n reference = (b.findSpot n reference).map (·.point) := by
    unfold find
    cases b.findSpot n reference <;> rfl
  rw [hmap, ← hnode, ← find?_straightSpots, ← findAround_points]
  unfold findSpot
  rw [hlastPlaced]
  simp only
  cases (b.straightSpots n ((reference.map b.newPlaced).getD lastPlaced) b.primaryAxis).find? (b.isFree ·.point n) with
  | some s => rfl
  | none => rfl

theorem resolve_eq (b : Board α) (n : Node α) (reference : Option (Node α)) :
    b.resolve n reference = if b.isFree n.position n then .ok n.position else b.find n reference := by
  unfold resolve resolveSpot
  split <;> rfl

end Placement.Board

end Flowchart
