import Mathlib
import Flowchart.Numeric.Double

/-!
# Doubles and whole numbers

A double has a nearest whole number unless it is no number or infinite (`round_eq_error`). The whole number is not
larger than the largest double (`natAbs_le_of_round`), and every whole number up to that one has a nearest double
again (`isInf_nearest`), so a double that was rounded can be used as a double. A whole number that is larger has an
infinite one at most, but it is always a number (`isNaN_nearest`).
-/

namespace Flowchart.Double

open Float.Model Float.Model.UnpackedFloat

section Bits

variable (b : BitVec Format.binary64.numBits)

/-- The exponent with all bits set is that of what is not finite. -/
private theorem exponent_eq_iff : unpackExponent b = -1#_ ↔ b.toNat / twoTo 52 % twoTo 11 = 2047 := by
  have hfield : (unpackExponent b).toNat = b.toNat / twoTo 52 % twoTo 11 := by
    simp only [unpackExponent, BitVec.toNat_cast, BitVec.extractLsb_toNat, Nat.shiftRight_eq_div_pow]
    rfl
  rw [← BitVec.toNat_inj, hfield]
  rfl

private theorem mantissa_eq_iff : unpackMantissa b = 0#_ ↔ b.toNat % twoTo 52 = 0 := by
  have hfraction : (unpackMantissa b).toNat = b.toNat % twoTo 52 := by
    simp only [unpackMantissa, BitVec.toNat_cast, BitVec.extractLsb_toNat, Nat.shiftRight_zero]
    rfl
  rw [← BitVec.toNat_inj, hfraction]
  rfl

variable {b}

private theorem isFinite_unpack (h : unpackExponent b ≠ -1#_) : (UnpackedFloat.unpack _ b).isFinite = true := by
  simp only [UnpackedFloat.unpack, h, ↓reduceIte]
  split
  · split <;> rfl
  · rfl

private theorem status_of_isFinite {u : UnpackedFloat} (h : u.isFinite = true) : u.isNaN = false ∧ u.isInf = false := by
  cases u with
  | notANumber => cases h
  | infinity s => cases h
  | zero s => exact ⟨rfl, rfl⟩
  | finite s m e hm => exact ⟨rfl, rfl⟩

private theorem unpack_of_exponent (h : unpackExponent b = -1#_) :
    UnpackedFloat.unpack _ b =
      if unpackMantissa b = 0#_ then .infinity (Sign.ofBitVec (unpackSign b)) else .notANumber := by
  simp only [UnpackedFloat.unpack, h, ↓reduceIte]

/-- Only what is no number can be changed by being taken apart and packed again. -/
private theorem pack_unpack_of_exponent (h : unpackExponent b ≠ -1#_) :
    UnpackedFloat.pack _ (UnpackedFloat.unpack _ b) = b := by
  rw [pack_unpack b (by decide), if_neg]
  unfold isNaNBits
  rw [decide_eq_true_iff]
  exact fun hnan => h hnan.1

end Bits

/-- What a double is taken apart into. -/
inductive Status (x : Float) : Binary → Prop
  | notANumber : x.isNaN = true → x.isInf = false → Status x .notANumber
  | infinite {negative : Bool} : x.isNaN = false → x.isInf = true → Status x (.infinite negative)
  | finite {negative : Bool} {mantissa : Nat} {exponent : Int} : x.isNaN = false → x.isInf = false →
      mantissa < twoTo 53 → exponent ≤ 971 → Status x (.finite negative mantissa exponent)

theorem status_ofFloat (x : Float) : Status x (Binary.ofFloat x) := by
  have hisNaN : x.isNaN = (UnpackedFloat.unpack .binary64 x.toModel.toBits.toBitVec).isNaN := rfl
  have hisInf : x.isInf = (UnpackedFloat.unpack .binary64 x.toModel.toBits.toBitVec).isInf := rfl
  have hexponent := exponent_eq_iff x.toModel.toBits.toBitVec
  have hmantissa := mantissa_eq_iff x.toModel.toBits.toBitVec
  unfold Binary.ofFloat
  by_cases hfield : x.toBits.toNat / twoTo 52 % twoTo 11 = 2047
  · rw [unpack_of_exponent (hexponent.2 hfield)] at hisNaN hisInf
    simp only [hfield, ↓reduceIte]
    by_cases hfraction : x.toBits.toNat % twoTo 52 = 0
    · rw [if_pos (hmantissa.2 hfraction)] at hisNaN hisInf
      rw [if_pos hfraction]
      exact .infinite hisNaN hisInf
    · rw [if_neg fun h => hfraction (hmantissa.1 h)] at hisNaN hisInf
      rw [if_neg hfraction]
      exact .notANumber hisNaN hisInf
  · have hsame := status_of_isFinite (isFinite_unpack fun h => hfield (hexponent.1 h))
    rw [← hisNaN, ← hisInf] at hsame
    have hlt : x.toBits.toNat / twoTo 52 % twoTo 11 < 2048 := Nat.mod_lt _ (by decide)
    have hfraction : x.toBits.toNat % twoTo 52 < twoTo 52 := Nat.mod_lt _ (twoTo_pos 52)
    have htwoTo : twoTo 53 = twoTo 52 + twoTo 52 := rfl
    simp only [hfield, ↓reduceIte]
    split
    · exact .finite hsame.1 hsame.2 (by omega) (by decide)
    · refine .finite hsame.1 hsame.2 (by omega) ?_
      unfold Binary.leastExponent
      omega

/-- Why a double has no nearest whole number. -/
inductive Unroundable (x : Float) : NumberFault → Prop
  | notANumber : x.isNaN = true → Unroundable x .notANumber
  | infinite : x.isInf = true → Unroundable x .infinite

theorem round_eq_error {x : Float} {cause : NumberFault} : round x = .error cause ↔ Unroundable x cause := by
  have h := status_ofFloat x
  unfold round
  generalize Binary.ofFloat x = b at h
  cases h with
  | notANumber hnan hinf =>
    constructor
    · rintro ⟨⟩
      exact .notANumber hnan
    · rintro (- | h)
      · rfl
      · rw [hinf] at h
        cases h
  | infinite hnan hinf =>
    constructor
    · rintro ⟨⟩
      exact .infinite hinf
    · rintro (h | -)
      · rw [hnan] at h
        cases h
      · rfl
  | finite hnan hinf _ _ =>
    constructor
    · rintro ⟨⟩
    · rintro (h | h)
      · rw [hnan] at h
        cases h
      · rw [hinf] at h
        cases h

/-! ### Putting together -/

/-- The largest double. -/
def largest : Nat := (twoTo 53 - 1) * twoTo 971

theorem natAbs_le_of_round {x : Float} {n : Int} (h : round x = .ok n) : n.natAbs ≤ largest := by
  have hstatus := status_ofFloat x
  unfold round at h
  generalize Binary.ofFloat x = b at h hstatus
  cases hstatus with
  | notANumber _ _ => cases h
  | infinite _ _ => cases h
  | @finite negative mantissa exponent _ _ hmantissa hexponent =>
    obtain rfl := Except.ok.inj h
    have hnum : roundQuotient (binaryQuotient mantissa exponent).1 (binaryQuotient mantissa exponent).2 ≤ largest := by
      refine roundQuotient_le (twoTo_pos _) ?_
      calc mantissa * twoTo exponent.toNat ≤ (twoTo 53 - 1) * twoTo 971 :=
            Nat.mul_le_mul (Nat.le_sub_one_of_lt hmantissa) (twoTo_le (by omega))
        _ ≤ largest * twoTo (-exponent).toNat := Nat.le_mul_of_pos_right largest (twoTo_pos _)
    unfold roundQuotientSigned
    split
    · rw [Int.natAbs_neg]
      exact hnum
    · exact hnum

/-- A whole number has 53 binary digits down to the unit of its double. -/
theorem unitExponent_one {num : Nat} (h : num ≠ 0) : Binary.unitExponent num 1 = Nat.log2 num - 52 := by
  have hlow : twoTo (Nat.log2 num) ≤ num := Nat.log2_self_le h
  have hfits : twoTo 53 * (1 * twoTo ((Nat.log2 num : Int) - 53).toNat) ≤
      num * twoTo (-((Nat.log2 num : Int) - 53)).toNat := by
    calc twoTo 53 * (1 * twoTo ((Nat.log2 num : Int) - 53).toNat)
        = twoTo (Nat.log2 num) * twoTo (-((Nat.log2 num : Int) - 53)).toNat := by
          rw [Nat.one_mul, ← twoTo_add, ← twoTo_add]
          congr 1
          omega
      _ ≤ num * twoTo (-((Nat.log2 num : Int) - 53)).toNat := Nat.mul_le_mul_right _ hlow
  have hlog : (Nat.log2 1 : Int) = 0 := by decide
  unfold Binary.unitExponent
  simp only [Binary.scale, hlog, Int.sub_zero]
  rw [if_pos hfits, if_neg]
  · omega
  · unfold Binary.leastExponent
    omega

/-- A whole number counted in units of its double. -/
theorem scale_lt {num : Nat} (h : num ≠ 0) :
    (Binary.scale num 1 (Binary.unitExponent num 1)).1 <
      twoTo 53 * (Binary.scale num 1 (Binary.unitExponent num 1)).2 := by
  rw [unitExponent_one h]
  show num * twoTo (-((Nat.log2 num : Int) - 52)).toNat < twoTo 53 * (1 * twoTo ((Nat.log2 num : Int) - 52).toNat)
  have hhigh : num < twoTo (Nat.log2 num + 1) := Nat.lt_log2_self
  calc num * twoTo (-((Nat.log2 num : Int) - 52)).toNat
      < twoTo (Nat.log2 num + 1) * twoTo (-((Nat.log2 num : Int) - 52)).toNat :=
        Nat.mul_lt_mul_of_pos_right hhigh (twoTo_pos _)
    _ = twoTo 53 * (1 * twoTo ((Nat.log2 num : Int) - 52).toNat) := by
        rw [Nat.one_mul, ← twoTo_add, ← twoTo_add]
        congr 1
        omega

private theorem log2_lt {num k : Nat} (h : num < twoTo k) (hzero : num ≠ 0) : Nat.log2 num < k :=
  (Nat.log2_lt hzero).2 h

theorem log2_largest {num : Nat} (h : num ≤ largest) (hzero : num ≠ 0) : Nat.log2 num < 53 + 971 := by
  refine log2_lt ?_ hzero
  calc num ≤ (twoTo 53 - 1) * twoTo 971 := h
    _ < twoTo 53 * twoTo 971 := Nat.mul_lt_mul_of_pos_right (by decide) (twoTo_pos 971)
    _ = twoTo (53 + 971) := (twoTo_add 53 971).symm

private theorem status_ofBits {bits : UInt64} (h : bits.toNat / twoTo 52 % twoTo 11 ≠ 2047) :
    (Float.ofBits bits).isNaN = false ∧ (Float.ofBits bits).isInf = false := by
  have hexponent := mt (exponent_eq_iff bits.toBitVec).1 h
  show (UnpackedFloat.unpack .binary64
      (UnpackedFloat.pack .binary64 (UnpackedFloat.unpack .binary64 bits.toBitVec))).isNaN = false ∧
    (UnpackedFloat.unpack .binary64
      (UnpackedFloat.pack .binary64 (UnpackedFloat.unpack .binary64 bits.toBitVec))).isInf = false
  rw [pack_unpack_of_exponent hexponent]
  exact status_of_isFinite (isFinite_unpack hexponent)

/-- The sign does not reach into the exponent. -/
private theorem field_of_signBit {negative : Bool} {magnitude : Nat} (h : magnitude < 2047 * twoTo 52) :
    (UInt64.ofNat (Binary.signBit negative + magnitude)).toNat / twoTo 52 % twoTo 11 ≠ 2047 := by
  have hsign : Binary.signBit negative = 9223372036854775808 ∨ Binary.signBit negative = 0 := by
    cases negative
    · exact .inr rfl
    · exact .inl rfl
  have h52 : twoTo 52 = 4503599627370496 := rfl
  have h11 : twoTo 11 = 2048 := rfl
  rw [UInt64.toNat_ofNat']
  rw [h52] at h ⊢
  rw [h11]
  omega

private theorem magnitude_lt {mantissa : Nat} {exponent : Int} (hmantissa : mantissa < twoTo 53)
    (hexponent : exponent ≤ 971) :
    (if 971 < exponent then 2047 * twoTo 52
      else if mantissa < twoTo 52 then mantissa
      else (exponent - Binary.leastExponent + 1).toNat * twoTo 52 + (mantissa - twoTo 52)) < 2047 * twoTo 52 := by
  have h52 : twoTo 52 = 4503599627370496 := rfl
  have h53 : twoTo 53 = 2 * twoTo 52 := rfl
  rw [if_neg (Int.not_lt.2 hexponent)]
  rw [h53] at hmantissa
  rw [h52] at hmantissa ⊢
  unfold Binary.leastExponent
  split <;> omega

/-- Up to the largest double, no whole number is too large for a double. -/
theorem isInf_nearest (negative : Bool) {num : Nat} (h : num ≤ largest) :
    (Binary.nearest negative num 1).isInf = false := by
  unfold Binary.nearest
  refine (status_ofBits (field_of_signBit ?_)).2
  by_cases hzero : num = 0
  · rw [if_pos hzero]
    exact Nat.mul_pos (by decide) (twoTo_pos 52)
  simp only [hzero, ↓reduceIte]
  have hscale := scale_lt hzero
  have hexponent : Binary.unitExponent num 1 ≤ 971 := by
    rw [unitExponent_one hzero]
    have := log2_largest h hzero
    omega
  generalize Binary.unitExponent num 1 = exponent at *
  have hpos : 0 < (Binary.scale num 1 exponent).2 := Nat.mul_pos Nat.one_pos (twoTo_pos _)
  have hmantissa := roundQuotient_le hpos (Nat.le_of_lt hscale)
  -- with the largest unit the digits are not carried over: 53 ones are the largest double
  have htop : exponent = 971 →
      roundQuotient (Binary.scale num 1 exponent).1 (Binary.scale num 1 exponent).2 ≤ twoTo 53 - 1 := by
    rintro rfl
    refine roundQuotient_le hpos ?_
    have hupper : (-(971 : Int)).toNat = 0 := rfl
    have hlower : (971 : Int).toNat = 971 := rfl
    have hone : twoTo 0 = 1 := rfl
    simp only [Binary.scale, hupper, hlower, hone, Nat.mul_one, Nat.one_mul]
    exact h
  generalize roundQuotient (Binary.scale num 1 exponent).1 (Binary.scale num 1 exponent).2 = mantissa at *
  by_cases hcarry : mantissa = twoTo 53
  · simp only [hcarry, ↓reduceIte]
    have hne : exponent ≠ 971 := fun he => by
      have := htop he
      rw [hcarry] at this
      exact absurd this (by decide)
    exact magnitude_lt (by decide) (by omega)
  · simp only [hcarry, ↓reduceIte]
    exact magnitude_lt (Nat.lt_of_le_of_ne hmantissa hcarry) hexponent

/-- What is too large becomes infinite; no whole number becomes no number. -/
theorem isNaN_nearest (negative : Bool) (num : Nat) : (Binary.nearest negative num 1).isNaN = false := by
  have hnumber : ∀ magnitude ≤ 2047 * twoTo 52,
      (Float.ofBits (UInt64.ofNat (Binary.signBit negative + magnitude))).isNaN = false := by
    intro magnitude hle
    rcases Nat.lt_or_eq_of_le hle with hlt | rfl
    · exact (status_ofBits (field_of_signBit hlt)).1
    · cases negative <;> decide +kernel
  have hmagnitude : ∀ {mantissa : Nat} {exponent : Int}, mantissa < twoTo 53 →
      (if 971 < exponent then 2047 * twoTo 52
        else if mantissa < twoTo 52 then mantissa
        else (exponent - Binary.leastExponent + 1).toNat * twoTo 52 + (mantissa - twoTo 52)) ≤ 2047 * twoTo 52 := by
    intro mantissa exponent hmantissa
    by_cases hexponent : exponent ≤ 971
    · exact (magnitude_lt hmantissa hexponent).le
    · rw [if_pos (not_le.1 hexponent)]
  unfold Binary.nearest
  refine hnumber _ ?_
  by_cases hzero : num = 0
  · rw [if_pos hzero]
    exact Nat.zero_le _
  simp only [hzero, ↓reduceIte]
  have hpos : 0 < (Binary.scale num 1 (Binary.unitExponent num 1)).2 := Nat.mul_pos Nat.one_pos (twoTo_pos _)
  have hmantissa := roundQuotient_le hpos (Nat.le_of_lt (scale_lt hzero))
  generalize roundQuotient (Binary.scale num 1 (Binary.unitExponent num 1)).1
    (Binary.scale num 1 (Binary.unitExponent num 1)).2 = mantissa at *
  by_cases hcarry : mantissa = twoTo 53
  · simp only [hcarry, ↓reduceIte]
    exact hmagnitude (by decide)
  · simp only [hcarry, ↓reduceIte]
    exact hmagnitude (Nat.lt_of_le_of_ne hmantissa hcarry)

theorem isNaN_of_ofInt {n : Int} {x : Float} (h : ofInt n = .ok x) : x.isNaN = false := by
  simp only [ofInt] at h
  split at h
  · cases h
  · obtain rfl := Except.ok.inj h
    exact isNaN_nearest _ _

theorem exists_ofInt_of_round {x : Float} {n : Int} (h : round x = .ok n) : ∃ y, ofInt n = .ok y := by
  have hinf := isInf_nearest (decide (n < 0)) (natAbs_le_of_round h)
  exact ⟨_, by rw [ofInt, hinf]; rfl⟩

end Flowchart.Double
