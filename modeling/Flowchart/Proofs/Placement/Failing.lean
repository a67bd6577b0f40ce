import Flowchart.Numeric.Exact
import Flowchart.Proofs.Numeric.Finite
import Flowchart.Proofs.Placement.Found

/-!
# Placements that fail

A placement computes with numbers that may be none. It fails only where a number has no nearest whole number: a
coordinate of a node counted in grid steps, or the full turn counted in steps of a ring (`Unplaceable`). Nothing
else in it fails: what has been rounded is never too large to go on with (`RoundsBack`).
-/

namespace Flowchart.Placement

/-- Scalars that can always go on with what they have rounded. -/
class RoundsBack (α : Type) [Scalar α] : Prop where
  exists_ofInt {x : α} {n : Int} : Scalar.round x = .ok n → ∃ y : α, Scalar.ofInt n = .ok y

instance : RoundsBack Float where
  exists_ofInt := Double.exists_ofInt_of_round

instance : RoundsBack Rat where
  exists_ofInt {_ n} _ := ⟨n, rfl⟩

variable {α : Type} [Scalar α]

/-- The coordinates of a node that are put on the grid: its centre and its corner. -/
def gridCoordinates (n : Node α) : List α :=
  [n.center.y, n.center.x, n.rect.x, n.rect.y]

/-- Why a place cannot be sought among some nodes. -/
inductive Unplaceable (config : Config α) (nodes : List (Node α)) (cause : NumberFault) : Prop
  /-- A coordinate has no nearest line of the grid. -/
  | offGrid (n : Node α) (v : α) : n ∈ nodes → v ∈ gridCoordinates n → ¬ config.gridSize ≤ 0 →
      Scalar.round (v / config.gridSize) = .error cause → Unplaceable config nodes cause
  /-- The step on a ring is zero. -/
  | noStep : (config.angleStep == 0) = true → cause = .zeroDivisor → Unplaceable config nodes cause
  /-- A full turn has no nearest number of steps. -/
  | offRing : (config.angleStep == 0) = false → Scalar.round (360 / config.angleStep) = .error cause →
      Unplaceable config nodes cause

section Grid

variable {cause : NumberFault}

theorem snap_of_coordinate {c : Coordinate α} {size : α} (h : c.snap size = .error cause) :
    Flowchart.snap c.value size = .error cause := by
  unfold Coordinate.snap at h
  split at h
  · cases h
  · rcases bind_eq_error.1 h with h | ⟨_, -, h⟩
    · exact h
    · cases h

theorem exists_of_gridCell {p : Placed α} {size : α} (h : p.gridCell size = .error cause) :
    ∃ v ∈ gridCoordinates p.node, Flowchart.snap v size = .error cause := by
  unfold gridCoordinates
  rcases bind_eq_error.1 h with hrow | ⟨row, -, h⟩
  · exact ⟨_, by simp, hrow⟩
  rcases bind_eq_error.1 h with hcolumn | ⟨column, -, h⟩
  · exact ⟨_, by simp, hcolumn⟩
  rcases bind_eq_error.1 h with hcorner | ⟨corner, -, h⟩
  · rcases bind_eq_error.1 hcorner with hx | ⟨x, -, hcorner⟩
    · exact ⟨p.node.rect.x, by simp, snap_of_coordinate hx⟩
    rcases bind_eq_error.1 hcorner with hy | ⟨y, -, hcorner⟩
    · exact ⟨p.node.rect.y, by simp, snap_of_coordinate hy⟩
    · cases hcorner
  · cases h

theorem mem_alongAxis {axis : Term Axis} {placed : List (Placed α)} {p : Placed α} :
    p ∈ alongAxis axis placed ↔ p ∈ placed := by
  unfold alongAxis sortByPair
  split <;> exact (Sorting.sort_perm _ _).mem_iff

variable [RoundsBack α]

theorem snap_eq_error {v size : α} :
    snap v size = .error cause ↔ ¬ size ≤ 0 ∧ Scalar.round (v / size) = .error cause := by
  unfold snap
  by_cases hsize : size ≤ 0
  · simp [hsize]
  · simp only [hsize, ↓reduceIte, not_false_iff, true_and, bind_eq_error]
    constructor
    · rintro (h | ⟨n, hn, h⟩)
      · exact h
      · obtain ⟨y, hy⟩ := RoundsBack.exists_ofInt hn
        rw [hy] at h
        rcases h with h | ⟨_, -, h⟩ <;> cases h
    · exact .inl

/-- A board cannot be set up only where a coordinate has no nearest line of the grid. -/
theorem Board.exists_offGrid_of_ofNodes {config : Config α} {nodes : List (Node α)}
    (h : Board.ofNodes config nodes = .error cause) : ∃ n ∈ nodes, ∃ v ∈ gridCoordinates n,
      ¬ config.gridSize ≤ 0 ∧ Scalar.round (v / config.gridSize) = .error cause := by
  rcases bind_eq_error.1 h with h | ⟨lattice, -, h⟩
  · rcases bind_eq_error.1 h with h | ⟨cells, -, h⟩
    · obtain ⟨p, hp, hcell⟩ := exists_of_mapM_eq_error h
      obtain ⟨v, hv, hsnap⟩ := exists_of_gridCell hcell
      obtain ⟨⟨n, i⟩, hn, rfl⟩ := List.mem_map.1 (mem_alongAxis.1 hp)
      exact ⟨n, List.fst_mem_of_mem_zipIdx hn, v, hv, snap_eq_error.1 hsnap⟩
    · cases h
  · cases h

theorem Board.unplaceable_of_ofNodes {config : Config α} {nodes : List (Node α)}
    (h : Board.ofNodes config nodes = .error cause) : Unplaceable config nodes cause := by
  obtain ⟨n, hn, v, hv, hsize, hround⟩ := exists_offGrid_of_ofNodes h
  exact .offGrid n v hn hv hsize hround

end Grid

namespace Board

variable {b : Board α} {cause : NumberFault}

theorem unplaceable_of_placesPerRing (nodes : List (Node α)) (h : b.placesPerRing = .error cause) :
    Unplaceable b.config nodes cause := by
  rcases bind_eq_error.1 h with h | ⟨ratio, hratio, h⟩
  · unfold Scalar.quotient at h
    split at h
    · next hzero => exact .noStep hzero (Except.error.inj h).symm
    · cases h
  · unfold Scalar.quotient at hratio
    split at hratio
    · cases hratio
    · next hzero =>
      obtain rfl := Except.ok.inj hratio
      rcases bind_eq_error.1 h with h | ⟨count, -, h⟩
      · exact .offRing (by simpa using hzero) h
      · cases h

variable [Trigonometry α] {n : Node α} {reference : Option (Node α)}

private theorem placesPerRing_of_findAround {reference : Node α} (h : b.findAround n reference = .error cause) :
    b.placesPerRing = .error cause := by
  rcases bind_eq_error.1 h with h | ⟨perRing, -, h⟩
  · exact h
  · split at h
    · cases h
    · split at h <;> cases h

private theorem placesPerRing_of_findSpot (h : b.findSpot n reference = .error cause) :
    b.placesPerRing = .error cause := by
  unfold findSpot at h
  split at h
  · cases h
  · simp only at h
    split at h
    · cases h
    · exact placesPerRing_of_findAround h

theorem placesPerRing_of_resolve (h : b.resolve n reference = .error cause) :
    b.placesPerRing = .error cause := by
  rcases bind_eq_error.1 h with h | ⟨s, -, h⟩
  · unfold resolveSpot at h
    split at h
    · cases h
    · exact placesPerRing_of_findSpot h
  · cases h

end Board

end Flowchart.Placement
