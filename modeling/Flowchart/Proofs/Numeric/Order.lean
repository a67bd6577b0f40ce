import Flowchart.Proofs.Numeric.Zero
import Mathlib.Data.Prod.Lex
import Mathlib.Algebra.Order.Ring.Int

/-!
# The order of doubles

Doubles are compared by their ranks, and these are in a linear order (`compare_eq_rank`); only what is no number is
neither below nor above anything. So doubles can be chained (`le_trans`), of two numbers one is at most the other one
(`le_of_not_le`, `le_of_not_lt`), and every number is moved into the unit interval (`clampUnit_mem`).
-/

namespace Flowchart.Double

open Float.Model

/-- The place of a number among all numbers: first its sign, with infinity beyond everything that is finite, then its
exponent and its mantissa. -/
def rank : UnpackedFloat → Int ×ₗ Int ×ₗ Int
  | .infinity .negative => toLex (-2, toLex (0, 0))
  | .finite .negative mantissa exponent _ => toLex (-1, toLex (-exponent, -mantissa))
  | .zero _ => toLex (0, toLex (0, 0))
  | .finite .positive mantissa exponent _ => toLex (1, toLex (exponent, mantissa))
  | .infinity .positive => toLex (2, toLex (0, 0))
  | .notANumber => toLex (0, toLex (0, 0))

private theorem compare_toLex {β : Type} [LinearOrder β] (a b : Int) (x y : β) :
    compare (toLex (a, x)) (toLex (b, y)) = (compare a b).then (compare x y) := by
  rw [Prod.Lex.compare_def]
  rfl

private theorem compare_neg (a b : Int) : compare (-a) (-b) = (compare a b).swap := by
  rcases lt_trichotomy a b with h | rfl | h
  · rw [compare_lt_iff_lt.2 h, compare_gt_iff_gt.2 (neg_lt_neg h)]
    rfl
  · rw [compare_eq_iff_eq.2 rfl, compare_eq_iff_eq.2 rfl]
    rfl
  · rw [compare_gt_iff_gt.2 h, compare_lt_iff_lt.2 (neg_lt_neg h)]
    rfl

private theorem compare_natCast (m n : Nat) : compare (m : Int) n = compare m n := by
  rcases lt_trichotomy m n with h | rfl | h
  · rw [compare_lt_iff_lt.2 h, compare_lt_iff_lt.2 (Int.ofNat_lt.2 h)]
  · rw [compare_eq_iff_eq.2 rfl, compare_eq_iff_eq.2 rfl]
  · rw [compare_gt_iff_gt.2 h, compare_gt_iff_gt.2 (Int.ofNat_lt.2 h)]

/-- Numbers are compared by their ranks. -/
theorem compare_eq_rank {u v : UnpackedFloat} (hu : u.isNaN = false) (hv : v.isNaN = false) :
    u.compare v = some (compare (rank u) (rank v)) := by
  -- the exponents count only between finite numbers of one sign; else the first part of the rank decides
  cases u with
  | notANumber => cases hu
  | infinity s =>
    cases v with
    | notANumber => cases hv
    | infinity t => cases s <;> cases t <;> rfl
    | zero t => cases s <;> rfl
    | finite t n f hn => cases s <;> cases t <;> rfl
  | zero s =>
    cases v with
    | notANumber => cases hv
    | infinity t => cases t <;> rfl
    | zero t => rfl
    | finite t n f hn => cases t <;> rfl
  | finite s m e hm =>
    cases v with
    | notANumber => cases hv
    | infinity t => cases s <;> cases t <;> rfl
    | zero t => cases s <;> rfl
    | finite t n f hn =>
      cases s with
      | negative =>
        cases t with
        | negative =>
          show some ((compare e f).then (compare m n)).swap =
            some (compare (toLex (-1, toLex (-e, -(m : Int)))) (toLex (-1, toLex (-f, -(n : Int)))))
          rw [compare_toLex, compare_toLex, compare_neg e, compare_neg (m : Int), compare_natCast, Ordering.swap_then]
          rfl
        | positive => rfl
      | positive =>
        cases t with
        | negative => rfl
        | positive =>
          show some ((compare e f).then (compare m n)) =
            some (compare (toLex (1, toLex (e, (m : Int)))) (toLex (1, toLex (f, (n : Int)))))
          rw [compare_toLex, compare_toLex, compare_natCast]
          rfl

private theorem compare_eq_none {u v : UnpackedFloat} (h : u.isNaN = true ∨ v.isNaN = true) : u.compare v = none := by
  rcases h with h | h
  · cases u <;> cases h
    rfl
  · cases v <;> cases h
    cases u with
    | infinity s => cases s <;> rfl
    | notANumber => rfl
    | zero s => rfl
    | finite s m e hm => cases s <;> rfl

variable {a b c x : Float}

/-- Only numbers can be compared. -/
private theorem compare_cases (a b : Float) :
    a.toModel.unpack.compare b.toModel.unpack = none ∧ ¬ (a.isNaN = false ∧ b.isNaN = false) ∨
      a.toModel.unpack.compare b.toModel.unpack =
        some (compare (rank a.toModel.unpack) (rank b.toModel.unpack)) ∧ a.isNaN = false ∧ b.isNaN = false := by
  by_cases h : a.isNaN = false ∧ b.isNaN = false
  · exact .inr ⟨compare_eq_rank h.1 h.2, h⟩
  · rw [not_and_or, Bool.not_eq_false, Bool.not_eq_false] at h
    refine .inl ⟨compare_eq_none h, ?_⟩
    rwa [not_and_or, Bool.not_eq_false, Bool.not_eq_false]

theorem le_iff :
    a ≤ b ↔ a.isNaN = false ∧ b.isNaN = false ∧ rank a.toModel.unpack ≤ rank b.toModel.unpack := by
  rw [le_iff_compare, UnpackedFloat.le]
  rcases compare_cases a b with ⟨hnone, hnan⟩ | ⟨hsome, ha, hb⟩
  · rw [hnone]
    exact iff_of_false Bool.false_ne_true fun h => hnan ⟨h.1, h.2.1⟩
  · have hrank := Ordering.isLE_iff_ne_gt.trans
      (compare_le_iff_le (a := rank a.toModel.unpack) (b := rank b.toModel.unpack))
    rw [hsome, Option.any_some, hrank]
    exact ⟨fun h => ⟨ha, hb, h⟩, fun h => h.2.2⟩

theorem lt_iff :
    a < b ↔ a.isNaN = false ∧ b.isNaN = false ∧ rank a.toModel.unpack < rank b.toModel.unpack := by
  rw [lt_iff_compare]
  rcases compare_cases a b with ⟨hnone, hnan⟩ | ⟨hsome, ha, hb⟩
  · rw [hnone]
    exact iff_of_false (by simp) fun h => hnan ⟨h.1, h.2.1⟩
  · rw [hsome, beq_iff_eq, Option.some.injEq, compare_lt_iff_lt]
    exact ⟨fun h => ⟨ha, hb, h⟩, fun h => h.2.2⟩

/-- Numbers are equal if they have the same place. -/
theorem beq_iff :
    (a == b) = true ↔ a.isNaN = false ∧ b.isNaN = false ∧ rank a.toModel.unpack = rank b.toModel.unpack := by
  have hequal : (a == b) = (a.toModel.unpack.compare b.toModel.unpack == some .eq) := rfl
  rw [hequal]
  rcases compare_cases a b with ⟨hnone, hnan⟩ | ⟨hsome, ha, hb⟩
  · rw [hnone]
    exact iff_of_false (by simp) fun h => hnan ⟨h.1, h.2.1⟩
  · rw [hsome, beq_iff_eq, Option.some.injEq, compare_eq_iff_eq]
    exact ⟨fun h => ⟨ha, hb, h⟩, fun h => h.2.2⟩

theorem isNaN_of_isFinite (hx : x.isFinite = true) : x.isNaN = false := by
  have hfinite : x.toModel.unpack.isFinite = true := hx
  show x.toModel.unpack.isNaN = false
  generalize x.toModel.unpack = u at hfinite
  cases u with
  | notANumber => cases hfinite
  | infinity s => rfl
  | zero s => rfl
  | finite s m e hm => rfl

theorem le_refl (ha : a.isNaN = false) : a ≤ a :=
  le_iff.2 ⟨ha, ha, le_rfl⟩

theorem le_trans (hab : a ≤ b) (hbc : b ≤ c) : a ≤ c := by
  obtain ⟨ha, -, hab⟩ := le_iff.1 hab
  obtain ⟨-, hc, hbc⟩ := le_iff.1 hbc
  exact le_iff.2 ⟨ha, hc, hab.trans hbc⟩

theorem le_of_not_lt (ha : a.isNaN = false) (hb : b.isNaN = false) (h : ¬ a < b) : b ≤ a := by
  refine le_iff.2 ⟨hb, ha, not_lt.1 fun hlt => h ?_⟩
  exact lt_iff.2 ⟨ha, hb, hlt⟩

theorem le_of_not_le (ha : a.isNaN = false) (hb : b.isNaN = false) (h : ¬ a ≤ b) : b ≤ a := by
  refine le_iff.2 ⟨hb, ha, (not_le.1 fun hle => h ?_).le⟩
  exact le_iff.2 ⟨ha, hb, hle⟩

/-- Every number is moved into the unit interval. -/
theorem clampUnit_mem (hx : x.isNaN = false) : 0 ≤ Scalar.clampUnit x ∧ Scalar.clampUnit x ≤ 1 := by
  have hzero : (0 : Float).isNaN = false := by decide +kernel
  have hone : (1 : Float).isNaN = false := by decide +kernel
  have hlower : 0 ≤ Scalar.max x 0 := by
    unfold Scalar.max
    split
    · decide +kernel
    · next hlt => exact le_of_not_lt hx hzero hlt
  have hnumber := (le_iff.1 hlower).2.1
  unfold Scalar.clampUnit Scalar.min
  split
  · decide +kernel
  · next hlt => exact ⟨hlower, le_of_not_lt hone hnumber hlt⟩

end Flowchart.Double
