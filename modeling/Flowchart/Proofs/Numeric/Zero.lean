import Flowchart.Numeric.Double

/-!
# The two zeros

Two doubles that are equal as numbers are the same, apart from the sign of a zero (`eq_or_zero_of_compare`). So
they are greater than the same doubles (`lt_congr`), and they have the same sum with every
double that is not zero (`add_congr`). Every number is positive or at most zero (`pos_of_not_le_zero`).
-/

namespace Flowchart.Double

open Float.Model

private theorem compare_sign {s t : UnpackedFloat.Sign} (h : compare s t = .eq) : s = t := by
  cases s <;> cases t <;> first | rfl | cases h

private theorem compare_finite {e₁ e₂ : Int} {m₁ m₂ : Nat} (h : (compare e₁ e₂).then (compare m₁ m₂) = .eq) :
    e₁ = e₂ ∧ m₁ = m₂ := by
  obtain ⟨he, hm⟩ := Ordering.then_eq_eq.1 h
  exact ⟨Std.LawfulEqOrd.eq_of_compare he, Std.LawfulEqOrd.eq_of_compare hm⟩

/-- What compares as equal is the same, or zero. -/
theorem eq_or_zero_of_compare {x y : UnpackedFloat} (h : x.compare y = some .eq) :
    x = y ∨ ∃ s t, x = .zero s ∧ y = .zero t := by
  cases x with
  | notANumber => cases h
  | zero s =>
    cases y with
    | zero t => exact .inr ⟨s, t, rfl, rfl⟩
    | notANumber => cases h
    | infinity t => cases t <;> cases h
    | finite t m e hm => cases t <;> cases h
  | infinity s =>
    cases y with
    | infinity t => exact .inl (congrArg _ (compare_sign (Option.some.inj h)))
    | notANumber => cases s <;> cases h
    | zero t => cases s <;> cases h
    | finite t m e hm => cases s <;> cases h
  | finite s m₁ e₁ hm₁ =>
    cases y with
    | notANumber => cases s <;> cases h
    | infinity t => cases s <;> cases t <;> cases h
    | zero t => cases s <;> cases h
    | finite t m₂ e₂ hm₂ =>
      left
      cases s with
      | negative =>
        cases t with
        | negative =>
          obtain ⟨rfl, rfl⟩ := compare_finite (Ordering.swap_eq_eq.1 (Option.some.inj h))
          rfl
        | positive => cases h
      | positive =>
        cases t with
        | negative => cases h
        | positive =>
          obtain ⟨rfl, rfl⟩ := compare_finite (Option.some.inj h)
          rfl

private theorem compare_zero_right (x : UnpackedFloat) (s t : UnpackedFloat.Sign) :
    x.compare (.zero s) = x.compare (.zero t) := by
  cases x with
  | notANumber => rfl
  | zero u => rfl
  | infinity u => cases u <;> rfl
  | finite u m e hm => cases u <;> rfl

/-- The sign of a zero is lost in a sum with anything else. -/
private theorem add_zero_left (spec : Format) {x : UnpackedFloat} (hx : ∀ u, x ≠ .zero u)
    (s t : UnpackedFloat.Sign) :
    UnpackedFloat.add spec (.zero s) x = UnpackedFloat.add spec (.zero t) x := by
  cases x with
  | notANumber => rfl
  | zero u => exact absurd rfl (hx u)
  | infinity u => rfl
  | finite u m e hm => rfl

private theorem unpack_of_beq {a b : Float} (h : (a == b) = true) :
    a.toModel.unpack = b.toModel.unpack ∨ ∃ s t, a.toModel.unpack = .zero s ∧ b.toModel.unpack = .zero t := by
  have hcompare : (a.toModel.unpack.compare b.toModel.unpack == some .eq) = true := h
  exact eq_or_zero_of_compare (by simpa using hcompare)

theorem lt_iff_compare (a b : Float) :
    a < b ↔ (a.toModel.unpack.compare b.toModel.unpack == some .lt) = true :=
  decide_eq_true_iff

theorem le_iff_compare (a b : Float) : a ≤ b ↔ a.toModel.unpack.le b.toModel.unpack = true :=
  decide_eq_true_iff

/-- Only what is no number is neither positive nor at most zero. -/
theorem pos_of_not_le_zero {x : Float} (hnumber : x.isNaN = false) (h : ¬ x ≤ 0) : 0 < x := by
  have hnan : x.toModel.unpack.isNaN = false := hnumber
  have hle : ¬ (x.toModel.unpack.le (.zero .positive)) = true := mt (le_iff_compare x 0).2 h
  refine (lt_iff_compare 0 x).2 ?_
  show ((UnpackedFloat.zero .positive).compare x.toModel.unpack == some .lt) = true
  generalize x.toModel.unpack = u at hnan hle
  cases u with
  | notANumber => cases hnan
  | zero s => exact absurd rfl hle
  | infinity s =>
    cases s with
    | negative => exact absurd rfl hle
    | positive => rfl
  | finite s m e hm =>
    cases s with
    | negative => exact absurd rfl hle
    | positive => rfl

/-- Equal numbers are greater than the same numbers. -/
theorem lt_congr {a b : Float} (h : (a == b) = true) (c : Float) : c < a ↔ c < b := by
  have hcompare : c.toModel.unpack.compare a.toModel.unpack = c.toModel.unpack.compare b.toModel.unpack := by
    rcases unpack_of_beq h with heq | ⟨s, t, ha, hb⟩
    · rw [heq]
    · rw [ha, hb]
      exact compare_zero_right _ s t
  rw [lt_iff_compare, lt_iff_compare, hcompare]

/-- Equal numbers have the same sum with a number that is not zero. -/
theorem add_congr {a b c : Float} (h : (a == b) = true) (hc : (c == 0) = false) : a + c = b + c := by
  have hadd : UnpackedFloat.add .binary64 a.toModel.unpack c.toModel.unpack =
      UnpackedFloat.add .binary64 b.toModel.unpack c.toModel.unpack := by
    rcases unpack_of_beq h with heq | ⟨s, t, ha, hb⟩
    · rw [heq]
    · rw [ha, hb]
      refine add_zero_left .binary64 (fun u hu => ?_) s t
      have hzero : (c == 0) = (c.toModel.unpack.compare (.zero .positive) == some .eq) := rfl
      rw [hzero, hu] at hc
      cases hc
  show Float.ofModel (.pack (UnpackedFloat.add .binary64 a.toModel.unpack c.toModel.unpack)) =
    Float.ofModel (.pack (UnpackedFloat.add .binary64 b.toModel.unpack c.toModel.unpack))
  rw [hadd]

end Flowchart.Double
