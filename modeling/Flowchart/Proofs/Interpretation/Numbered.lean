import Flowchart.Interpretation.State
import Flowchart.Proofs.Naming
import Mathlib.Logic.Function.Basic

/-!
# The ids of a chart

The id of a part tells the kind of the part and its number (`Part.idAt_inj`). Among nodes that are there already,
the parts of a kind get the ids of the free numbers in rising order (`Numbered.freshId_fst`): which id a part gets
depends on how many parts of its kind came before it, and on nothing else that happened.
-/

namespace Flowchart.Interpretation

private theorem stem_append_inj {p q : Part} {s t : String} (h : p.stem ++ "-" ++ s = q.stem ++ "-" ++ t) :
    p = q ∧ s = t := by
  have hlist := congrArg String.toList h
  simp only [String.toList_append] at hlist
  cases p <;> cases q <;> simp [Part.stem] at hlist <;> simp [← String.toList_inj, hlist]

theorem Part.idAt_inj {p q : Part} {m n : Nat} : p.idAt m = q.idAt n ↔ p = q ∧ m = n := by
  constructor
  · intro h
    obtain ⟨rfl, hs⟩ := stem_append_inj h
    exact ⟨rfl, toString_nat_injective hs⟩
  · rintro ⟨rfl, rfl⟩
    rfl

theorem Part.idAt_injective (p : Part) : Function.Injective p.idAt := fun _ _ h =>
  (Part.idAt_inj.1 h).2

/-- The id of the part of a kind that comes at place `k`, counted from zero, where `base` is taken. -/
noncomputable def Part.nthId (base : List String) (p : Part) (k : Nat) : String :=
  p.idAt (nthFree base p.idAt k)

theorem Part.nthId_inj {base : List String} {p q : Part} {i j : Nat} :
    p.nthId base i = q.nthId base j ↔ p = q ∧ i = j := by
  constructor
  · intro h
    obtain ⟨rfl, hn⟩ := Part.idAt_inj.1 h
    exact ⟨rfl, nthFree_injective p.idAt_injective base hn⟩
  · rintro ⟨rfl, rfl⟩
    rfl

theorem Part.nthId_injective (base : List String) (p : Part) : Function.Injective (p.nthId base) :=
  fun _ _ h => (Part.nthId_inj.1 h).2

theorem Part.nthId_not_mem (base : List String) (p : Part) (k : Nat) : p.nthId base k ∉ base :=
  (isFreeNumber_nthFree p.idAt_injective base k).2

/-- Only the ids of the same kind matter among those that are taken. -/
theorem Part.nthId_congr {base base' : List String} {p : Part} (h : ∀ m, p.idAt m ∈ base ↔ p.idAt m ∈ base') :
    p.nthId base = p.nthId base' := by
  funext k
  rw [Part.nthId, Part.nthId, nthFree_congr h]

variable {α : Type}

@[simp] theorem Counters.get_set_self (c : Counters) (n : Nat) (p : Part) : (c.set n p).get p = n := by
  cases p <;> rfl

theorem Counters.get_set_of_ne (c : Counters) (n : Nat) {p q : Part} (h : q ≠ p) :
    (c.set n p).get q = c.get q := by
  cases p <;> cases q <;> first | rfl | exact absurd rfl h

/-- The state has given out as many ids of each kind as `count` says. -/
structure Numbered (base : List String) (count : Part → Nat) (s : State α) : Prop where
  counters : ∀ p, s.counters.get p = lastFree base p.idAt (count p)
  taken : ∀ x, x ∈ s.taken ↔ x ∈ base ∨ ∃ p, ∃ k < count p, x = p.nthId base k

namespace Numbered

theorem initial (settings : Settings α) (existing : List (Node α)) :
    Numbered (existing.map (·.id)) (fun _ => 0) (State.initial settings existing) where
  counters p := by cases p <;> rfl
  taken x := by simp [State.initial]

variable {base : List String} {count : Part → Nat} {s : State α}

private theorem freshNumber_eq (h : Numbered base count s) (p : Part) :
    freshNumber s.taken p.idAt (s.counters.get p + 1) = nthFree base p.idAt (count p) := by
  rw [h.counters]
  refine freshNumber_eq_nthFree p.idAt_injective base fun m hm => ?_
  rw [h.taken]
  refine or_iff_left ?_
  rintro ⟨q, k, hk, hq⟩
  obtain ⟨rfl, rfl⟩ := Part.idAt_inj.1 hq
  have := nthFree_le_lastFree p.idAt_injective base hk
  omega

/-- The next id of a kind is the one at the place given by how many have been given out. -/
theorem freshId_fst (h : Numbered base count s) (p : Part) : (s.freshId p).1 = p.nthId base (count p) := by
  simp only [State.freshId, h.freshNumber_eq, Part.nthId]

theorem freshId_snd (h : Numbered base count s) (p : Part) :
    Numbered base (Function.update count p (count p + 1)) (s.freshId p).2 where
  counters q := by
    by_cases hq : q = p
    · subst hq
      simp [State.freshId, h.freshNumber_eq, lastFree]
    · simp only [State.freshId, Counters.get_set_of_ne _ _ hq, Function.update_of_ne hq, h.counters]
  taken x := by
    have hx : x ∈ (s.freshId p).2.taken ↔ x = p.nthId base (count p) ∨ x ∈ s.taken := by
      rw [← h.freshId_fst]
      exact List.mem_cons
    rw [hx, h.taken]
    constructor
    · rintro (rfl | hx | ⟨q, k, hk, rfl⟩)
      · exact .inr ⟨p, count p, by simp, rfl⟩
      · exact .inl hx
      · refine .inr ⟨q, k, ?_, rfl⟩
        rw [Function.update_apply]
        split
        · next hq => subst hq; omega
        · exact hk
    · rintro (hx | ⟨q, k, hk, rfl⟩)
      · exact .inr (.inl hx)
      · rw [Function.update_apply] at hk
        split at hk
        · next hq =>
          subst hq
          rcases Nat.lt_succ_iff_lt_or_eq.1 hk with hk | rfl
          · exact .inr (.inr ⟨q, k, hk, rfl⟩)
          · exact .inl rfl
        · exact .inr (.inr ⟨q, k, hk, rfl⟩)

end Numbered

end Flowchart.Interpretation
