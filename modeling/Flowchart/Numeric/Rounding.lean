import Flowchart.Numeric.Power

/-!
# Rounding of quotients

The whole number nearest to a quotient, a half going to the even neighbour. It is exact, for natural numbers of
any size.
-/

namespace Flowchart

/-- The whole number nearest to `num / den`; a half goes to the even neighbour. -/
def roundQuotient (num den : Nat) : Nat :=
  let q := num / den
  let r := num % den
  if 2 * r < den then q
  else if den < 2 * r then q + 1
  else if q % 2 = 0 then q
  else q + 1

/-- What is at most a whole number is rounded to at most that number. -/
theorem roundQuotient_le {num den k : Nat} (hden : 0 < den) (h : num ≤ k * den) : roundQuotient num den ≤ k := by
  have hdiv : num / den ≤ k := by
    simpa [Nat.mul_div_cancel k hden] using Nat.div_le_div_right (c := den) h
  rcases Nat.lt_or_eq_of_le hdiv with hlt | rfl
  · unfold roundQuotient
    simp only
    split
    · exact hdiv
    · split
      · exact hlt
      · split
        · exact hdiv
        · exact hlt
  · -- nothing is left over, so nothing is rounded up
    have hmod : num % den = 0 := by
      have := Nat.div_add_mod num den
      rw [Nat.mul_comm] at this
      omega
    simp [roundQuotient, hmod, hden]

/-- The nearest whole number to `num / den` with a sign in front. -/
def roundQuotientSigned (negative : Bool) (num den : Nat) : Int :=
  if negative then -(roundQuotient num den : Int) else roundQuotient num den

example : roundQuotient 5 2 = 2 ∧ roundQuotient 7 2 = 4 ∧ roundQuotient 8 3 = 3 := by decide

end Flowchart
