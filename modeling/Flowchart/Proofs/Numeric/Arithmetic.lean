import Flowchart.Proofs.Numeric.Finite
import Flowchart.Proofs.Numeric.Order

/-!
# Results that are numbers

A result that was computed as a number is packed into a number, at worst into an infinite one (`isNaN_unpack_pack`).
So a sum whose first part is finite is a number if its second part is (`isNaN_add`), and so are a quotient of something
finite by a number other than zero (`isNaN_div`) and a product of two finite numbers (`isNaN_mul`).
-/

namespace Flowchart.Double

open Float.Model Float.Model.UnpackedFloat

private theorem isNaN_unpack {b : BitVec Format.binary64.numBits}
    (h : unpackExponent b ≠ -1#_ ∨ unpackMantissa b = 0#_) : (UnpackedFloat.unpack _ b).isNaN = false := by
  simp only [UnpackedFloat.unpack]
  split
  · next hexponent =>
    rw [if_pos (h.resolve_left fun hne => hne hexponent)]
    rfl
  · split
    · split <;> rfl
    · rfl

/-- What is no number comes from nothing else when it is packed. -/
theorem isNaN_unpack_pack {u : UnpackedFloat} (h : u.isNaN = false) :
    (UnpackedFloat.unpack .binary64 (UnpackedFloat.pack .binary64 u)).isNaN = false := by
  refine isNaN_unpack ?_
  fun_cases UnpackedFloat.pack .binary64 u with
  | case1 => cases h
  | case2 s => exact .inr (by simp [packedInfinity])
  | case3 s => exact .inr (by simp [packedZero])
  | case4 s m e hm biased hlarge => exact .inr (by simp [packedInfinity])
  | case5 s m e hm bits biased hsmall hnormal =>
    left
    rw [unpackExponent_packComponents]
    -- an exponent with all bits set would have been too large to be packed
    intro hones
    have hbits : biased % 2 ^ 11 = 2 ^ 11 - 1 := congrArg BitVec.toNat hones
    have hbound : biased + 1 < 2 ^ 11 := Nat.not_le.1 hsmall
    omega
  | case6 s m e hm bits biased hsmall hnormal =>
    left
    rw [unpackExponent_packComponents]
    decide

section Operations

variable {spec : Format} {u v : UnpackedFloat}

private theorem isNaN_roundWithAccuracy (s : Sign) (m : Nat) (e : Int) (a : Accuracy) :
    (roundWithAccuracy spec s m e a).isNaN = false := by
  unfold roundWithAccuracy
  dsimp only
  split <;> rfl

private theorem isNaN_normalize (m e : Int) (s : Sign) : (UnpackedFloat.normalize spec m e s).isNaN = false := by
  unfold UnpackedFloat.normalize
  split
  · exact isNaN_roundWithAccuracy ..
  · rfl
  · exact isNaN_roundWithAccuracy ..

private theorem isNaN_sum (hu : u.isFinite = true) (hv : v.isNaN = false) :
    (UnpackedFloat.add spec u v).isNaN = false := by
  cases u with
  | notANumber => cases hu
  | infinity s => cases hu
  | zero s =>
    cases v with
    | notANumber => cases hv
    | infinity t => rfl
    | zero t => cases s <;> cases t <;> rfl
    | finite t n f hn => rfl
  | finite s m e hm =>
    cases v with
    | notANumber => cases hv
    | infinity t => rfl
    | zero t => rfl
    | finite t n f hn => exact isNaN_normalize ..

private theorem isNaN_product (hu : u.isFinite = true) (hv : v.isFinite = true) :
    (UnpackedFloat.mul spec u v).isNaN = false := by
  cases u with
  | notANumber => cases hu
  | infinity s => cases hu
  | zero s =>
    cases v with
    | notANumber => cases hv
    | infinity t => cases hv
    | zero t => rfl
    | finite t n f hn => rfl
  | finite s m e hm =>
    cases v with
    | notANumber => cases hv
    | infinity t => cases hv
    | zero t => rfl
    | finite t n f hn => exact isNaN_roundWithAccuracy ..

private theorem isNaN_quotient (hu : u.isFinite = true) (hv : v.isNaN = false) (hne : ∀ t, v ≠ .zero t) :
    (UnpackedFloat.div spec u v).isNaN = false := by
  cases u with
  | notANumber => cases hu
  | infinity s => cases hu
  | zero s =>
    cases v with
    | notANumber => cases hv
    | infinity t => rfl
    | zero t => exact absurd rfl (hne t)
    | finite t n f hn => rfl
  | finite s m e hm =>
    cases v with
    | notANumber => cases hv
    | infinity t => rfl
    | zero t => exact absurd rfl (hne t)
    | finite t n f hn => exact isNaN_roundWithAccuracy ..

end Operations

variable {x y : Float}

theorem isNaN_add (hx : x.isFinite = true) (hy : y.isNaN = false) : (x + y).isNaN = false :=
  isNaN_unpack_pack (isNaN_sum hx hy)

theorem isNaN_mul (hx : x.isFinite = true) (hy : y.isFinite = true) : (x * y).isNaN = false :=
  isNaN_unpack_pack (isNaN_product hx hy)

theorem isNaN_div (hx : x.isFinite = true) (hy : y.isNaN = false) (hne : (y == 0) = false) :
    (x / y).isNaN = false := by
  refine isNaN_unpack_pack (isNaN_quotient hx hy fun t ht => ?_)
  have hequal : (y == 0) = (y.toModel.unpack.compare (.zero .positive) == some .eq) := rfl
  have hunpack : y.toModel.unpack = .zero t := ht
  rw [hequal, hunpack] at hne
  cases hne

private theorem isFinite_of_status (hnan : x.isNaN = false) (hinf : x.isInf = false) : x.isFinite = true := by
  have hnan' : x.toModel.unpack.isNaN = false := hnan
  have hinf' : x.toModel.unpack.isInf = false := hinf
  show x.toModel.unpack.isFinite = true
  generalize x.toModel.unpack = u at hnan' hinf'
  cases u with
  | notANumber => cases hnan'
  | infinity s => cases hinf'
  | zero s => rfl
  | finite s m e hm => rfl

/-- A whole number is a double only if that is finite. -/
theorem isFinite_of_ofInt {n : Int} (h : ofInt n = .ok x) : x.isFinite = true := by
  refine isFinite_of_status (isNaN_of_ofInt h) ?_
  simp only [ofInt] at h
  split at h
  · cases h
  · next hinf =>
    obtain rfl := Except.ok.inj h
    exact Bool.eq_false_iff.2 hinf

end Flowchart.Double
