import Mathlib.Data.List.Forall2
import Mathlib.Data.List.Sort
import Flowchart.Sorting.Rising

/-!
# Sorting without repetition

Elements are compared by their ranks, and those of one rank count as the same. A list with one element of each rank, in
rising order, comes from any list by leaving out repetitions and sorting the rest (`lists_sort_eraseDupsBy`). The order
and the number of the elements that are listed do not matter: two such lists hold the same elements at the same places
(`Lists.forall₂_same`).
-/

namespace Flowchart.Sorting

variable {β γ : Type} {less same : β → β → Bool} {p values : β → Prop}

/-- On the elements with the property `p`, `less` and `same` compare the ranks. -/
structure RanksOn {L : Type} [LinearOrder L] (less same : β → β → Bool) (p : β → Prop) (rank : β → L) : Prop where
  less_iff : ∀ {a b}, p a → p b → (less a b = true ↔ rank a < rank b)
  same_iff : ∀ {a b}, p a → p b → (same a b = true ↔ rank a = rank b)

namespace RanksOn

variable {L : Type} [LinearOrder L] {rank : β → L} {a b : β}

theorem less_eq_false_iff (hr : RanksOn less same p rank) (ha : p a) (hb : p b) :
    less a b = false ↔ rank b ≤ rank a := by
  rw [← not_lt, ← hr.less_iff ha hb, Bool.not_eq_true]

theorem ordersOn (hr : RanksOn less same p rank) : OrdersOn less p where
  asymm _ _ ha hb h := (hr.less_eq_false_iff hb ha).2 ((hr.less_iff ha hb).1 h).le
  trans _ _ _ ha hb hc h h' := (hr.less_eq_false_iff hc ha).2
    (((hr.less_eq_false_iff hb ha).1 h).trans ((hr.less_eq_false_iff hc hb).1 h'))

end RanksOn

/-- Leaving out repetitions keeps an element and goes on with those that are not the same. -/
theorem erasing_induction (same : β → β → Bool) {motive : List β → Prop} (nil : motive [])
    (cons : ∀ x xs, motive (xs.filter fun y => same y x = false) → motive (x :: xs)) (xs : List β) : motive xs :=
  match xs with
  | [] => nil
  | x :: xs => cons x xs (erasing_induction same nil cons _)
termination_by xs.length
decreasing_by exact Nat.lt_succ_of_le (List.length_filter_le _ _)

theorem mem_of_mem_eraseDupsBy {xs : List β} {x : β} : x ∈ xs.eraseDupsBy same → x ∈ xs := by
  induction xs using erasing_induction same with
  | nil => simp
  | cons y ys ih =>
    rw [List.eraseDupsBy_cons, List.mem_cons, List.mem_cons]
    exact Or.imp_right fun hx => List.mem_of_mem_filter (ih hx)

theorem exists_same_of_mem {xs : List β} (hsame : ∀ x ∈ xs, same x x = true) {x : β} (hx : x ∈ xs) :
    ∃ y ∈ xs.eraseDupsBy same, same x y = true := by
  induction xs using erasing_induction same with
  | nil => cases hx
  | cons y ys ih =>
    rw [List.eraseDupsBy_cons]
    by_cases hxy : same x y = true
    · exact ⟨y, List.mem_cons_self, hxy⟩
    · have hmem : x ∈ ys := by
        refine (List.mem_cons.1 hx).resolve_left fun heq => hxy ?_
        rw [heq]
        exact hsame y List.mem_cons_self
      obtain ⟨z, hz, hxz⟩ := ih (fun w hw => hsame w (List.mem_cons_of_mem y (List.mem_of_mem_filter hw)))
        (List.mem_filter.2 ⟨hmem, by simpa using hxy⟩)
      exact ⟨z, List.mem_cons_of_mem y hz, hxz⟩

theorem pairwise_eraseDupsBy (same : β → β → Bool) (xs : List β) :
    (xs.eraseDupsBy same).Pairwise fun a b => same b a = false := by
  induction xs using erasing_induction same with
  | nil => exact .nil
  | cons y ys ih =>
    rw [List.eraseDupsBy_cons, List.pairwise_cons]
    exact ⟨fun z hz => by simpa using List.of_mem_filter (mem_of_mem_eraseDupsBy hz), ih⟩

/-- A list in rising order, with one element of each rank that the elements with the property `values` have. -/
structure Lists (less same : β → β → Bool) (values : β → Prop) (xs : List β) : Prop where
  increasing : xs.Pairwise fun a b => less a b = true
  of_mem : ∀ x ∈ xs, values x
  exists_same : ∀ v, values v → ∃ x ∈ xs, same v x = true

theorem Lists.congr {values' : β → Prop} {xs : List β} (h : Lists less same values xs)
    (hvalues : ∀ v, values v ↔ values' v) : Lists less same values' xs where
  increasing := h.increasing
  of_mem x hx := (hvalues x).1 (h.of_mem x hx)
  exists_same v hv := h.exists_same v ((hvalues v).2 hv)

section

variable {L : Type} [LinearOrder L] {rank : β → L}

theorem lists_sort_eraseDupsBy (hr : RanksOn less same p rank) {xs : List β} (hp : ∀ x ∈ xs, p x) :
    Lists less same (· ∈ xs) (sort less (xs.eraseDupsBy same)) := by
  have hmem : ∀ {x}, x ∈ sort less (xs.eraseDupsBy same) ↔ x ∈ xs.eraseDupsBy same := (sort_perm less _).mem_iff
  have hkept : ∀ x ∈ xs.eraseDupsBy same, p x := fun x hx => hp x (mem_of_mem_eraseDupsBy hx)
  have hdistinct : (sort less (xs.eraseDupsBy same)).Pairwise fun a b => rank a ≠ rank b := by
    refine ((sort_perm less _).pairwise_iff fun h => h.symm).2 ?_
    refine (pairwise_eraseDupsBy same xs).imp_of_mem fun ha hb h heq => ?_
    rw [(hr.same_iff (hkept _ hb) (hkept _ ha)).2 heq.symm] at h
    cases h
  constructor
  · refine ((rising_sort hr.ordersOn hkept).and hdistinct).imp_of_mem fun {a b} ha hb h => ?_
    have ha := hkept a (hmem.1 ha)
    have hb := hkept b (hmem.1 hb)
    exact (hr.less_iff ha hb).2 (lt_of_le_of_ne ((hr.less_eq_false_iff hb ha).1 h.1) h.2)
  · exact fun x hx => mem_of_mem_eraseDupsBy (hmem.1 hx)
  · intro x hx
    obtain ⟨y, hy, hxy⟩ := exists_same_of_mem (fun x hx => (hr.same_iff (hp x hx) (hp x hx)).2 rfl) hx
    exact ⟨y, hmem.2 hy, hxy⟩

/-- What is listed decides the list, up to elements that count as the same. -/
theorem Lists.forall₂_same {xs ys : List β} (hxs : Lists less same values xs) (hr : RanksOn less same p rank)
    (hp : ∀ v, values v → p v) (hys : Lists less same values ys) :
    List.Forall₂ (fun x y => same x y = true) xs ys := by
  -- both lists have the ranks of the values in them, and these are strictly rising
  have hincreasing : ∀ {zs : List β}, Lists less same values zs → (zs.map rank).Pairwise (· < ·) := by
    intro zs hzs
    refine List.pairwise_map.2 (hzs.increasing.imp_of_mem fun ha hb h => ?_)
    exact (hr.less_iff (hp _ (hzs.of_mem _ ha)) (hp _ (hzs.of_mem _ hb))).1 h
  have hranks : ∀ {zs : List β}, Lists less same values zs → ∀ r, r ∈ zs.map rank ↔ ∃ v, values v ∧ rank v = r := by
    intro zs hzs r
    rw [List.mem_map]
    constructor
    · rintro ⟨z, hz, hr⟩
      exact ⟨z, hzs.of_mem z hz, hr⟩
    · rintro ⟨v, hv, rfl⟩
      obtain ⟨z, hz, hsame⟩ := hzs.exists_same v hv
      exact ⟨z, hz, ((hr.same_iff (hp v hv) (hp z (hzs.of_mem z hz))).1 hsame).symm⟩
  have heq : xs.map rank = ys.map rank := by
    refine (hincreasing hxs).eq_of_mem_iff (hincreasing hys) fun r => ?_
    rw [hranks hxs, hranks hys]
  have hsame : List.Forall₂ (fun x y => rank x = rank y) xs ys := by
    refine List.forall₂_map_left_iff.1 (List.forall₂_map_right_iff.1 ?_)
    rw [heq]
    exact List.forall₂_same.2 fun _ _ => rfl
  have hvalues : List.Forall₂ (fun y x => values y ∧ rank x = rank y) ys xs :=
    (List.forall₂_and_left _ _).2 ⟨hys.of_mem, hsame.flip⟩
  have hboth := (List.forall₂_and_left _ _).2 ⟨hxs.of_mem, hvalues.flip⟩
  exact hboth.imp fun x y ⟨hx, hy, h⟩ => (hr.same_iff (hp x hx) (hp y hy)).2 h

end

/-- Listed elements may be replaced by something that is compared in the same way. -/
theorem Lists.map {less' same' : γ → γ → Bool} {f : β → γ} {xs : List β} (h : Lists less same values xs)
    (hless : ∀ {a b}, values a → values b → less a b = true → less' (f a) (f b) = true)
    (hsame : ∀ {a b}, values a → values b → same a b = true → same' (f a) (f b) = true) :
    Lists less' same' (fun c => ∃ b, values b ∧ f b = c) (xs.map f) where
  increasing := List.pairwise_map.2 (h.increasing.imp_of_mem fun ha hb => hless (h.of_mem _ ha) (h.of_mem _ hb))
  of_mem c hc := by
    obtain ⟨x, hx, rfl⟩ := List.mem_map.1 hc
    exact ⟨x, h.of_mem x hx, rfl⟩
  exists_same c hc := by
    obtain ⟨b, hb, rfl⟩ := hc
    obtain ⟨x, hx, hbx⟩ := h.exists_same b hb
    exact ⟨f x, List.mem_map_of_mem hx, hsame hb (h.of_mem x hx) hbx⟩

end Flowchart.Sorting
