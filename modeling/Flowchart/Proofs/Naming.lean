import Flowchart.Naming
import Mathlib.Data.Nat.Nth
import Mathlib.Data.List.Perm.Subperm
import Mathlib.Order.Preorder.Finite

/-!
# Which number is fresh

The search for a fresh number always ends at a free one (`freshNumber_not_mem`) and passes over taken ones only
(`mem_of_lt_freshNumber`), so its bound makes no difference (`searchEnds_iff`). The numbers that are given out one
after the other are, in rising order, exactly the positive numbers whose names are not taken at the beginning
(`freshNumber_eq_nthFree`).
-/

namespace Flowchart

/-- A number can be read from its digits. -/
theorem toString_nat_injective : Function.Injective (toString : Nat → String) := by
  intro m n h
  have hdigits := congrArg (fun s => Nat.ofDigitChars 10 s.toList 0) h
  simpa [Nat.toString_eq_ofList_toDigits] using hdigits

private theorem firstFree_le (taken : List String) (name : Nat → String) (start count : Nat) :
    start ≤ firstFree taken name start count := by
  induction count generalizing start with
  | zero => exact Nat.le_refl _
  | succ count ih =>
    unfold firstFree
    split
    · have := ih (start + 1); omega
    · exact Nat.le_refl _

private theorem mem_of_lt_firstFree {taken : List String} {name : Nat → String} {start count m : Nat}
    (hm : start ≤ m) (hlt : m < firstFree taken name start count) : name m ∈ taken := by
  induction count generalizing start with
  | zero => simp only [firstFree] at hlt; omega
  | succ count ih =>
    unfold firstFree at hlt
    split at hlt
    · next hstart =>
      rcases Nat.eq_or_lt_of_le hm with rfl | hm
      · simpa using hstart
      · exact ih hm hlt
    · omega

/-- The search stops at a free name, or has looked at as many names as it may. -/
private theorem firstFree_free_or (taken : List String) (name : Nat → String) (start count : Nat) :
    name (firstFree taken name start count) ∉ taken ∨ firstFree taken name start count = start + count := by
  induction count generalizing start with
  | zero => exact .inr rfl
  | succ count ih =>
    unfold firstFree
    split
    · rcases ih (start + 1) with h | h
      · exact .inl h
      · right; omega
    · next hstart => exact .inl (by simpa using hstart)

theorem le_freshNumber (taken : List String) (name : Nat → String) (start : Nat) :
    start ≤ freshNumber taken name start :=
  firstFree_le taken name start taken.length

theorem mem_of_lt_freshNumber {taken : List String} {name : Nat → String} {start m : Nat}
    (hm : start ≤ m) (hlt : m < freshNumber taken name start) : name m ∈ taken :=
  mem_of_lt_firstFree hm hlt

/-- The search ends at a free name: there are more names to look at than are taken. -/
theorem freshNumber_not_mem {name : Nat → String} (hname : Function.Injective name) (taken : List String)
    (start : Nat) : name (freshNumber taken name start) ∉ taken := by
  rcases firstFree_free_or taken name start taken.length with h | h
  · exact h
  · intro hlast
    let names := (List.range (taken.length + 1)).map fun i => name (start + i)
    have hnodup : names.Nodup :=
      List.nodup_range.map fun i j hij => Nat.add_left_cancel (hname hij)
    have hsub : names ⊆ taken := by
      intro x hx
      obtain ⟨i, hi, rfl⟩ := List.mem_map.1 hx
      have hi' := List.mem_range.1 hi
      by_cases hend : i = taken.length
      · subst hend
        rwa [← h]
      · exact mem_of_lt_freshNumber (Nat.le_add_right _ _) (by rw [freshNumber, h]; omega)
    have := (hnodup.subperm hsub).length_le
    simp [names] at this

/-- A search that knows no bound looks at the names from a number on, one after the other, and ends at the first
one that is free. -/
inductive SearchEnds (taken : List String) (name : Nat → String) : (start last : Nat) → Prop
  | free {start : Nat} : name start ∉ taken → SearchEnds taken name start start
  | next {start last : Nat} :
      name start ∈ taken → SearchEnds taken name (start + 1) last → SearchEnds taken name start last

/-- Where the names before a free one are taken, the search comes to that one. -/
private theorem searchEnds_of_mem {taken : List String} {name : Nat → String} {last : Nat}
    (hlast : name last ∉ taken) {start : Nat} (hle : start ≤ last)
    (hmem : ∀ m, start ≤ m → m < last → name m ∈ taken) : SearchEnds taken name start last := by
  -- induction on the way that is left
  obtain ⟨left, rfl⟩ := Nat.exists_eq_add_of_le hle
  induction left generalizing start with
  | zero => exact .free hlast
  | succ left ih =>
    have hnext : start + (left + 1) = start + 1 + left := by omega
    rw [hnext] at hlast hmem ⊢
    exact .next (hmem start (by omega) (by omega))
      (ih hlast (by omega) fun m hm hlt => hmem m (by omega) hlt)

/-- The search always ends, and at the number that is found with a bound. -/
theorem searchEnds_iff {name : Nat → String} (hname : Function.Injective name) {taken : List String}
    {start last : Nat} : SearchEnds taken name start last ↔ last = freshNumber taken name start := by
  constructor
  · intro h
    have hends : start ≤ last ∧ name last ∉ taken ∧ ∀ m, start ≤ m → m < last → name m ∈ taken := by
      induction h with
      | free hfree => exact ⟨Nat.le_refl _, hfree, fun m hm hlt => absurd hm (Nat.not_le_of_lt hlt)⟩
      | @next start last htaken _ ih =>
        obtain ⟨hle, hfree, hmem⟩ := ih
        refine ⟨by omega, hfree, fun m hm hlt => ?_⟩
        rcases Nat.eq_or_lt_of_le hm with rfl | hm
        · exact htaken
        · exact hmem m hm hlt
    obtain ⟨hle, hfree, hmem⟩ := hends
    apply Nat.le_antisymm
    · by_contra hlt
      exact freshNumber_not_mem hname taken start
        (hmem _ (le_freshNumber taken name start) (Nat.lt_of_not_le hlt))
    · by_contra hlt
      exact hfree (mem_of_lt_freshNumber hle (Nat.lt_of_not_le hlt))
  · rintro rfl
    exact searchEnds_of_mem (freshNumber_not_mem hname taken start) (le_freshNumber taken name start)
      fun m hm hlt => mem_of_lt_freshNumber hm hlt

/-! ### The free numbers in order -/

/-- Whether a number is positive and its name is not in `base`. -/
def IsFreeNumber (base : List String) (name : Nat → String) (m : Nat) : Prop :=
  0 < m ∧ name m ∉ base

/-- The free numbers in rising order, counted from zero. -/
noncomputable def nthFree (base : List String) (name : Nat → String) (k : Nat) : Nat :=
  Nat.nth (IsFreeNumber base name) k

/-- Which numbers are free depends only on which of their names are taken. -/
theorem nthFree_congr {base base' : List String} {name : Nat → String} (h : ∀ m, name m ∈ base ↔ name m ∈ base')
    (k : Nat) : nthFree base name k = nthFree base' name k := by
  have hfree : IsFreeNumber base name = IsFreeNumber base' name := by
    funext m
    simp only [IsFreeNumber, h]
  rw [nthFree, nthFree, hfree]

/-- The free number before the one at place `k`; zero before the first one. -/
noncomputable def lastFree (base : List String) (name : Nat → String) : (k : Nat) → Nat
  | 0 => 0
  | k + 1 => nthFree base name k

variable {name : Nat → String} (hname : Function.Injective name) (base : List String)
include hname

private theorem infinite_isFreeNumber : (Set.ofPred (IsFreeNumber base name)).Infinite := by
  refine Set.infinite_of_forall_exists_gt fun a => ?_
  have hle := le_freshNumber base name (a + 1)
  exact ⟨_, ⟨by omega, freshNumber_not_mem hname base (a + 1)⟩, by omega⟩

theorem isFreeNumber_nthFree (k : Nat) : IsFreeNumber base name (nthFree base name k) :=
  Nat.nth_mem_of_infinite (infinite_isFreeNumber hname base) k

theorem nthFree_injective : Function.Injective (nthFree base name) :=
  Nat.nth_injective (infinite_isFreeNumber hname base)

theorem nthFree_le_lastFree {i k : Nat} (h : i < k) : nthFree base name i ≤ lastFree base name k := by
  cases k with
  | zero => omega
  | succ k => exact Nat.nth_monotone (infinite_isFreeNumber hname base) (by omega)

private theorem lastFree_lt_nthFree (k : Nat) : lastFree base name k < nthFree base name k := by
  cases k with
  | zero => exact (isFreeNumber_nthFree hname base 0).1
  | succ k => exact (Nat.nth_lt_nth (infinite_isFreeNumber hname base)).2 (Nat.lt_succ_self k)

omit hname in
/-- No free number lies between two neighbours in the order. -/
private theorem nthFree_le {k m : Nat} (hm : IsFreeNumber base name m) (hlt : lastFree base name k < m) :
    nthFree base name k ≤ m := by
  cases k with
  | zero =>
    rw [nthFree, Nat.nth_zero]
    exact Nat.sInf_le hm
  | succ k =>
    by_contra h
    have := Nat.le_nth_of_lt_nth_succ (Nat.lt_of_not_le h) hm
    simp only [lastFree, nthFree] at hlt
    omega

/-- The search behind the last number that was given out finds the next one in the order, as long as no name of a
later number has been taken in the meantime. -/
theorem freshNumber_eq_nthFree {taken : List String} {k : Nat}
    (htaken : ∀ m, lastFree base name k < m → (name m ∈ taken ↔ name m ∈ base)) :
    freshNumber taken name (lastFree base name k + 1) = nthFree base name k := by
  have hle := le_freshNumber taken name (lastFree base name k + 1)
  apply Nat.le_antisymm
  · by_contra h
    have hmem := mem_of_lt_freshNumber (lastFree_lt_nthFree hname base k) (Nat.lt_of_not_le h)
    exact (isFreeNumber_nthFree hname base k).2 ((htaken _ (lastFree_lt_nthFree hname base k)).1 hmem)
  · refine nthFree_le base ⟨by omega, fun hmem => ?_⟩ hle
    exact freshNumber_not_mem hname taken _ ((htaken _ hle).2 hmem)

end Flowchart
