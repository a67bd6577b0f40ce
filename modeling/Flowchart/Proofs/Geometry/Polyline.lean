import Mathlib.Algebra.Order.BigOperators.Group.List
import Mathlib.Algebra.Order.Field.Basic
import Flowchart.Geometry.Curve
import Flowchart.Proofs.Geometry.Plane

/-!
# The middle of a polyline

The midpoint of a polyline is found by walking along its segments with the length that is left, over segments without
a length and past points that are repeated. If the polyline has a length at all, the walk ends on one of its segments
(`along?_segments`), so the point that it finds lies at half of the length (`midpoint?_halves`).

The midpoint is the same from the other end, although a walk that ends at a corner ends on different segments from the
two sides: at each length there lies one point only (`LiesAt.unique`), and a point at some length lies at the rest of
the length from the other end (`LiesAt.reverse`).
-/

namespace Flowchart

variable {α : Type}

section

variable [ExactScalar α] (p q : Point α)

theorem Point.between_zero : p.between q 0 = p := by
  simp [Point.between]

theorem Point.between_one : p.between q 1 = q := by
  simp [Point.between]

variable {p q} in
theorem Point.between_of_eq (h : p = q) (r : α) : p.between q r = p := by
  simp [Point.between, h]

end

namespace Polyline

theorem segments_concat (points : List (Point α)) (q p : Point α) :
    segments (points ++ [q, p]) = segments (points ++ [q]) ++ [(q, p)] := by
  induction points with
  | nil => rfl
  | cons a points ih =>
    cases points with
    | nil => rfl
    | cons b points => exact congrArg ((a, b) :: ·) ih

theorem length_segments_concat (points : List (Point α)) (q : Point α) :
    (segments (points ++ [q])).length = points.length := by
  induction points with
  | nil => rfl
  | cons a points ih =>
    cases points with
    | nil => rfl
    | cons b points => exact congrArg (· + 1) ih

section

variable [Scalar α] [Trigonometry α]

/-- The length of a polyline. -/
def length (points : List (Point α)) : α :=
  Scalar.sum (lengths points)

/-- A point lies on a polyline, and the way to it along the polyline has the length `s`: it divides the segment that
starts at place `i` in the ratio `r`. -/
def LiesAt (points : List (Point α)) (s : α) (m : Point α) : Prop :=
  ∃ (i : Nat) (r : α) (p q : Point α), points[i]? = some p ∧ points[i + 1]? = some q ∧ 0 ≤ r ∧ r ≤ 1 ∧
    m = p.between q r ∧ Scalar.sum ((lengths points).take i) + r * p.distance q = s

/-- The point at a given length along some segments, found by divisions that fail if the divisor is zero. -/
def alongChecked? (remaining : α) : List (Point α × Point α) → Except NumberFault (Option (Point α))
  | [] => .ok none
  | (p, q) :: rest =>
    let length := p.distance q
    if remaining ≤ length ∧ 0 < length then do
      let ratio ← Scalar.quotient remaining length
      .ok (some (p.between q ratio))
    else alongChecked? (remaining - length) rest

/-- The point halfway along a polyline, found by divisions that fail if the divisor is zero. -/
def midpointChecked? (points : List (Point α)) : Except NumberFault (Option (Point α)) :=
  match points with
  | [] => .ok none
  | [p] => .ok (some p)
  | first :: _ =>
    let total := Scalar.sum (lengths points)
    if total == 0 then .ok (some first)
    else do
      let half ← Scalar.quotient total 2
      let found ← alongChecked? half (segments points)
      .ok (found.or points.getLast?)

end

variable [ExactScalar α] [Trigonometry α] {points : List (Point α)} {p q m m' : Point α} {s r : α}

theorem length_cons_cons (p q : Point α) (points : List (Point α)) :
    length (p :: q :: points) = p.distance q + length (q :: points) := by
  unfold length
  rw [Scalar.sum_eq, Scalar.sum_eq]
  exact List.sum_cons

theorem length_concat (points : List (Point α)) (q p : Point α) :
    length (points ++ [q, p]) = length (points ++ [q]) + q.distance p := by
  unfold length lengths
  rw [segments_concat, Scalar.sum_eq, Scalar.sum_eq, List.map_append, List.sum_append]
  exact congrArg _ List.sum_singleton

theorem length_reverse (hdistances : MetricDistances α) (points : List (Point α)) :
    length points.reverse = length points := by
  induction points with
  | nil => rfl
  | cons p points ih =>
    cases points with
    | nil => rfl
    | cons q points =>
      have hreverse : (p :: q :: points).reverse = points.reverse ++ [q, p] := by simp
      rw [hreverse, length_concat, ← List.reverse_cons, ih, length_cons_cons, hdistances.symm q p, add_comm]

/-- The walk divides by lengths that are not zero only. -/
theorem alongChecked?_eq (s : α) (segments : List (Point α × Point α)) :
    alongChecked? s segments = .ok (along? s segments) := by
  induction segments generalizing s with
  | nil => rfl
  | cons segment rest ih =>
    obtain ⟨p, q⟩ := segment
    unfold alongChecked? along?
    by_cases h : s ≤ p.distance q ∧ 0 < p.distance q
    · simp only [if_pos h]
      rw [Scalar.quotient_eq_ok h.2.ne']
      rfl
    · simp only [if_neg h]
      exact ih _

theorem midpointChecked?_eq (points : List (Point α)) : midpointChecked? points = .ok (midpoint? points) := by
  have htwo : (2 : α) ≠ 0 := two_ne_zero
  match points with
  | [] => rfl
  | [_] => rfl
  | first :: second :: rest =>
    unfold midpointChecked? midpoint?
    simp only [Scalar.quotient_eq_ok htwo, alongChecked?_eq]
    split <;> rfl

/-! ### Points at a length -/

/-- A point lies on the first segment, or behind it. -/
theorem liesAt_cons_cons : LiesAt (p :: q :: points) s m ↔
    (∃ r, 0 ≤ r ∧ r ≤ 1 ∧ m = p.between q r ∧ r * p.distance q = s) ∨
      LiesAt (q :: points) (s - p.distance q) m := by
  have hsum : ∀ i, Scalar.sum ((lengths (p :: q :: points)).take (i + 1)) =
      p.distance q + Scalar.sum ((lengths (q :: points)).take i) := by
    intro i
    rw [Scalar.sum_eq, Scalar.sum_eq]
    exact List.sum_cons
  constructor
  · rintro ⟨i, r, a, b, ha, hb, hr₀, hr₁, hm, hs⟩
    cases i with
    | zero =>
      obtain rfl := Option.some.inj ha
      obtain rfl := Option.some.inj hb
      exact .inl ⟨r, hr₀, hr₁, hm, by rw [← hs]; exact (zero_add _).symm⟩
    | succ i =>
      rw [hsum] at hs
      exact .inr ⟨i, r, a, b, ha, hb, hr₀, hr₁, hm, by rw [← hs]; ring⟩
  · rintro (⟨r, hr₀, hr₁, hm, hs⟩ | ⟨i, r, a, b, ha, hb, hr₀, hr₁, hm, hs⟩)
    · exact ⟨0, r, p, q, rfl, rfl, hr₀, hr₁, hm, by rw [← hs]; exact zero_add _⟩
    · refine ⟨i + 1, r, a, b, ha, hb, hr₀, hr₁, hm, ?_⟩
      rw [hsum, add_assoc, hs]
      ring

theorem not_liesAt_nil : ¬ LiesAt ([] : List (Point α)) s m := by
  rintro ⟨i, r, a, b, ha, -⟩
  cases ha

theorem not_liesAt_singleton : ¬ LiesAt [p] s m := by
  rintro ⟨i, r, a, b, -, hb, -⟩
  cases hb

/-- A point on the last segment. -/
theorem liesAt_concat (points : List (Point α)) (q p : Point α) (hr : 0 ≤ r ∧ r ≤ 1) :
    LiesAt (points ++ [q, p]) (length (points ++ [q]) + r * q.distance p) (q.between p r) := by
  have hfirst : (points ++ [q, p])[points.length]? = some q := by simp
  have hlast : (points ++ [q, p])[points.length + 1]? = some p := by simp
  have hbefore : (lengths (points ++ [q, p])).take points.length = lengths (points ++ [q]) := by
    have hcount : (lengths (points ++ [q])).length = points.length := by
      rw [lengths, List.length_map, length_segments_concat]
    rw [lengths, segments_concat, List.map_append, ← hcount]
    exact List.take_left
  exact ⟨points.length, r, q, p, hfirst, hlast, hr.1, hr.2, rfl, by rw [hbefore]; rfl⟩

namespace LiesAt

/-- The way to a point does not depend on what follows it. -/
theorem append (h : LiesAt points s m) (more : List (Point α)) : LiesAt (points ++ more) s m := by
  induction points generalizing s with
  | nil => exact absurd h not_liesAt_nil
  | cons p points ih =>
    cases points with
    | nil => exact absurd h not_liesAt_singleton
    | cons q points => exact liesAt_cons_cons.2 ((liesAt_cons_cons.1 h).imp_right ih)

section

variable (hdistances : MetricDistances α)
include hdistances

theorem nonneg (h : LiesAt points s m) : 0 ≤ s := by
  obtain ⟨i, r, a, b, -, -, hr, -, -, rfl⟩ := h
  have hbefore : 0 ≤ Scalar.sum ((lengths points).take i) := by
    rw [Scalar.sum_eq]
    refine List.sum_nonneg fun x hx => ?_
    obtain ⟨⟨c, d⟩, -, rfl⟩ := List.mem_map.1 (List.mem_of_mem_take hx)
    exact hdistances.nonneg c d
  have hpart : 0 ≤ r * a.distance b := mul_nonneg hr (hdistances.nonneg a b)
  exact add_nonneg hbefore hpart

theorem eq_head (h : LiesAt (p :: points) 0 m) : m = p := by
  induction points generalizing p with
  | nil => exact absurd h not_liesAt_singleton
  | cons q points ih =>
    rcases liesAt_cons_cons.1 h with ⟨r, -, -, rfl, hr⟩ | h
    · rcases mul_eq_zero.1 hr with rfl | hzero
      · exact p.between_zero q
      · exact Point.between_of_eq ((hdistances.eq_zero_iff p q).1 hzero) r
    · -- the first segment has no length, so its two ends are the same point
      have hle : 0 ≤ 0 - p.distance q := h.nonneg hdistances
      have hzero : p.distance q = 0 := le_antisymm (by linarith) (hdistances.nonneg p q)
      obtain rfl := (hdistances.eq_zero_iff p q).1 hzero
      rw [hzero, sub_zero] at h
      exact ih h

private theorem between_eq_of_length_eq {r' : α} (h : r * p.distance q = r' * p.distance q) :
    p.between q r = p.between q r' := by
  by_cases hzero : p.distance q = 0
  · have hsame := (hdistances.eq_zero_iff p q).1 hzero
    rw [Point.between_of_eq hsame, Point.between_of_eq hsame]
  · rw [mul_right_cancel₀ hzero h]

/-- A point of the first segment at whose length there also lies one behind it is the corner between them. -/
private theorem between_eq_of_behind (hr : r ≤ 1) (h : LiesAt (q :: points) (r * p.distance q - p.distance q) m) :
    p.between q r = m := by
  have hd := hdistances.nonneg p q
  have hbehind : 0 ≤ r * p.distance q - p.distance q := h.nonneg hdistances
  have hwithin : r * p.distance q ≤ 1 * p.distance q := mul_le_mul_of_nonneg_right hr hd
  have hcorner : r * p.distance q = 1 * p.distance q := by linarith
  have hzero : r * p.distance q - p.distance q = 0 := by linarith
  rw [hzero] at h
  rw [h.eq_head hdistances, between_eq_of_length_eq hdistances hcorner, Point.between_one]

/-- At each length along a polyline there lies one point only. -/
theorem unique (h : LiesAt points s m) (h' : LiesAt points s m') : m = m' := by
  induction points generalizing s with
  | nil => exact absurd h not_liesAt_nil
  | cons p points ih =>
    cases points with
    | nil => exact absurd h not_liesAt_singleton
    | cons q points =>
      -- the two points may be told by different segments only where these meet
      rcases liesAt_cons_cons.1 h with ⟨r, -, hr, rfl, rfl⟩ | h
      · rcases liesAt_cons_cons.1 h' with ⟨r', -, -, rfl, hr'⟩ | h'
        · exact between_eq_of_length_eq hdistances hr'.symm
        · exact between_eq_of_behind hdistances hr h'
      · rcases liesAt_cons_cons.1 h' with ⟨r', -, hr', rfl, rfl⟩ | h'
        · exact (between_eq_of_behind hdistances hr' h).symm
        · exact ih h h'

/-- From the other end the rest of the length leads to the same point. -/
theorem reverse (h : LiesAt points s m) : LiesAt points.reverse (length points - s) m := by
  induction points generalizing s with
  | nil => exact absurd h not_liesAt_nil
  | cons p points ih =>
    cases points with
    | nil => exact absurd h not_liesAt_singleton
    | cons q points =>
      have hreverse : (p :: q :: points).reverse = points.reverse ++ [q, p] := by simp
      have hrest : (q :: points).reverse = points.reverse ++ [q] := List.reverse_cons
      rcases liesAt_cons_cons.1 h with ⟨r, hr₀, hr₁, rfl, rfl⟩ | h
      · -- the ratio is the one from the other end of the same segment
        have hlast := liesAt_concat points.reverse q p (r := 1 - r) ⟨by linarith, by linarith⟩
        have hpoint : q.between p (1 - r) = p.between q r := by
          unfold Point.between
          refine congrArg₂ Point.mk ?_ ?_ <;> ring
        have hlength : length (points.reverse ++ [q]) + (1 - r) * q.distance p =
            length (p :: q :: points) - r * p.distance q := by
          rw [← hrest, length_reverse hdistances, length_cons_cons, hdistances.symm q p]
          ring
        rw [hreverse, ← hpoint, ← hlength]
        exact hlast
      · have hlength : length (q :: points) - (s - p.distance q) = length (p :: q :: points) - s := by
          rw [length_cons_cons]
          ring
        rw [hreverse, ← hlength, List.append_cons, ← hrest]
        exact (ih h).append [p]

end

end LiesAt

/-! ### The walk -/

theorem midpoint?_cons_cons (p q : Point α) (points : List (Point α)) :
    midpoint? (p :: q :: points) = if length (p :: q :: points) == 0 then some p
      else (along? (length (p :: q :: points) / 2) (segments (p :: q :: points))).or
        (p :: q :: points).getLast? :=
  rfl

section

variable (hdistances : MetricDistances α)
include hdistances

/-- A walk that is not longer than the polyline ends on one of its segments. -/
theorem along?_segments (hpos : 0 < s) (hle : s ≤ length points) :
    ∃ m, along? s (segments points) = some m ∧ LiesAt points s m := by
  induction points generalizing s with
  | nil => exact absurd hpos (not_lt.2 hle)
  | cons p points ih =>
    cases points with
    | nil => exact absurd hpos (not_lt.2 hle)
    | cons q points =>
      have hd := hdistances.nonneg p q
      unfold segments along?
      by_cases h : s ≤ p.distance q ∧ 0 < p.distance q
      · have hratio : s / p.distance q * p.distance q = s := div_mul_cancel₀ s h.2.ne'
        refine ⟨_, if_pos h, liesAt_cons_cons.2 (.inl ⟨s / p.distance q, ?_, ?_, rfl, hratio⟩)⟩
        · exact div_nonneg hpos.le hd
        · exact (div_le_one h.2).2 h.1
      · -- a segment that is passed is shorter than what is left, be it that it has no length
        have hlt : p.distance q < s := by
          by_contra hshort
          have hle' : s ≤ p.distance q := not_lt.1 hshort
          exact h ⟨hle', hpos.trans_le hle'⟩
        rw [length_cons_cons] at hle
        obtain ⟨m, hm, hlies⟩ := ih (s := s - p.distance q) (by linarith) (by linarith)
        exact ⟨m, (if_neg h).trans hm, liesAt_cons_cons.2 (.inr hlies)⟩

theorem midpoint?_of_pos (hlength : 0 < length points) :
    ∃ m, along? (length points / 2) (segments points) = some m ∧ midpoint? points = some m ∧
      LiesAt points (length points / 2) m := by
  obtain ⟨m, hm, hlies⟩ := along?_segments hdistances (half_pos hlength) (half_le_self hlength.le)
  refine ⟨m, hm, ?_, hlies⟩
  match points with
  | [] => exact absurd hlies not_liesAt_nil
  | [_] => exact absurd hlies not_liesAt_singleton
  | first :: second :: rest =>
    have htotal : ¬ (length (first :: second :: rest) == 0) = true := by simpa using hlength.ne'
    rw [midpoint?_cons_cons, if_neg htotal, hm, Option.some_or]

/-- In exact numbers, a polyline with a length has a midpoint: a point that divides one of its segments, so that the
way to it is half of the length. It is found without a division by zero and before the segments end, and it is the same
from the other end. -/
theorem midpoint?_halves (hlength : 0 < length points) :
    ∃ m, midpoint? points = some m ∧ LiesAt points (length points / 2) m ∧
      along? (length points / 2) (segments points) = some m ∧ midpointChecked? points = .ok (some m) ∧
      midpoint? points.reverse = some m := by
  obtain ⟨m, hm, hmidpoint, hlies⟩ := midpoint?_of_pos hdistances hlength
  have hreverse := length_reverse hdistances points
  have hlength' : 0 < length points.reverse := by
    rw [hreverse]
    exact hlength
  obtain ⟨m', -, hmidpoint', hlies'⟩ := midpoint?_of_pos hdistances hlength'
  have hhalf : length points - length points / 2 = length points.reverse / 2 := by
    rw [hreverse]
    exact sub_half _
  have hback : LiesAt points.reverse (length points.reverse / 2) m := by
    rw [← hhalf]
    exact hlies.reverse hdistances
  refine ⟨m, hmidpoint, hlies, hm, ?_, ?_⟩
  · rw [midpointChecked?_eq, hmidpoint]
  · rw [hmidpoint', hlies'.unique hdistances hback]

end

/-- A way with repeated points that turns at half of its length. -/
theorem midpoint?_halves_corner :
    ∃ (points : List (Point Rat)) (m : Point Rat),
      points = [⟨0, 0⟩, ⟨0, 0⟩, ⟨4, 0⟩, ⟨4, 0⟩, ⟨4, 4⟩] ∧ m = ⟨4, 0⟩ ∧ @MetricDistances Rat _ axisParallel ∧
      0 < @length Rat _ axisParallel points ∧ @midpoint? Rat _ axisParallel points = some m ∧
      @LiesAt Rat _ axisParallel points (@length Rat _ axisParallel points / 2) m ∧
      @along? Rat _ axisParallel (@length Rat _ axisParallel points / 2) (segments points) = some m ∧
      @midpointChecked? Rat _ axisParallel points = .ok (some m) ∧
      @midpoint? Rat _ axisParallel points.reverse = some m := by
  let points : List (Point Rat) := [⟨0, 0⟩, ⟨0, 0⟩, ⟨4, 0⟩, ⟨4, 0⟩, ⟨4, 4⟩]
  have hmetric := metricDistances_axisParallel
  have hlength : 0 < @length Rat _ axisParallel points := by decide +kernel
  have hvalue : @midpoint? Rat _ axisParallel points = some ⟨4, 0⟩ := by decide +kernel
  have hhalves := @midpoint?_halves Rat exactRational axisParallel
  rw [scalar_exactRational] at hhalves
  obtain ⟨m, hm, hrest⟩ := hhalves hmetric hlength
  obtain rfl := Option.some.inj (hvalue.symm.trans hm)
  exact ⟨points, _, rfl, rfl, hmetric, hlength, hm, hrest⟩

end Polyline

end Flowchart
