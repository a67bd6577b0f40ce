import Flowchart.Sorting.Run

/-!
# Rising order

An order in which elements may be equal in rank, on the elements with some property, and lists in which it never
falls. Runs are such lists (`rising_extendedRun`).
-/

namespace Flowchart.Sorting

variable {β : Type}

/-- On the elements with the property `p`, `less` is an order in which some elements may be equal in rank. -/
structure OrdersOn (less : β → β → Bool) (p : β → Prop) : Prop where
  asymm : ∀ a b, p a → p b → less a b = true → less b a = false
  trans : ∀ a b c, p a → p b → p c → less b a = false → less c b = false → less c a = false

theorem OrdersOn.turned {less : β → β → Bool} {p : β → Prop} (ho : OrdersOn less p) :
    OrdersOn (fun a b => less b a) p :=
  ⟨fun a b ha hb h => ho.asymm b a hb ha h, fun a b c ha hb hc h h' => ho.trans c b a hc hb ha h' h⟩

/-- No element is less than one before it. -/
def Rising (less : β → β → Bool) (xs : List β) : Prop :=
  xs.Pairwise fun a b => less b a = false

theorem rising_append {less : β → β → Bool} {xs ys : List β} :
    Rising less (xs ++ ys) ↔ Rising less xs ∧ Rising less ys ∧ ∀ x ∈ xs, ∀ y ∈ ys, less y x = false := by
  unfold Rising
  exact List.pairwise_append

theorem rising_cons {less : β → β → Bool} {x : β} {xs : List β} :
    Rising less (x :: xs) ↔ (∀ y ∈ xs, less y x = false) ∧ Rising less xs := by
  unfold Rising
  exact List.pairwise_cons

theorem rising_take_drop {less : β → β → Bool} {xs : List β} (hxs : Rising less xs) (n : Nat) :
    Rising less (xs.take n) ∧ Rising less (xs.drop n) ∧ ∀ x ∈ xs.take n, ∀ y ∈ xs.drop n, less y x = false := by
  rw [← List.take_append_drop n xs] at hxs
  exact rising_append.mp hxs

theorem rising_reverse {less : β → β → Bool} {xs : List β} :
    Rising (fun a b => less b a) xs.reverse ↔ Rising less xs := by
  unfold Rising
  exact List.pairwise_reverse

theorem holdsFirst_notGreater {less : β → β → Bool} {p : β → Prop} (ho : OrdersOn less p) {xs : List β} {x : β}
    (hx : p x) (hp : ∀ y ∈ xs, p y) (hxs : Rising less xs) : HoldsFirst (fun y => !less x y) xs := by
  unfold HoldsFirst
  refine List.Pairwise.imp_of_mem ?_ hxs
  intro a b ha hb hab hcond
  rw [Bool.not_eq_true', ] at hcond ⊢
  exact ho.trans a b x (hp a ha) (hp b hb) hx hab hcond

theorem holdsFirst_less {less : β → β → Bool} {p : β → Prop} (ho : OrdersOn less p) {xs : List β} {x : β}
    (hx : p x) (hp : ∀ y ∈ xs, p y) (hxs : Rising less xs) : HoldsFirst (fun y => less y x) xs := by
  unfold HoldsFirst
  refine List.Pairwise.imp_of_mem ?_ hxs
  intro a b ha hb hab hcond
  by_cases h : less a x = true
  · exact h
  · have := ho.trans x a b hx (hp a ha) (hp b hb) (Bool.eq_false_iff.mpr h) hab
    exact absurd hcond (Bool.eq_false_iff.mp this)

theorem rising_insert {less : β → β → Bool} {p : β → Prop} (ho : OrdersOn less p) {run : List β} {x : β}
    (hx : p x) (hp : ∀ y ∈ run, p y) (hrun : Rising less run) : Rising less (insert less run x) := by
  have hlead := leads_countByHalving .late _ _ run (Nat.le_refl _) (holdsFirst_notGreater ho hx hp hrun)
  unfold insert
  dsimp only
  obtain ⟨htake, hdrop⟩ := hlead
  obtain ⟨hr, hr', hrr⟩ := rising_take_drop hrun
    (countByHalving .late (fun y => !less x y) run.length run)
  refine rising_append.mpr ⟨hr, rising_cons.mpr ⟨fun y hy => ?_, hr'⟩, fun y hy z hz => ?_⟩
  · have := hdrop y hy
    rw [Bool.not_eq_false'] at this
    exact ho.asymm x y hx (hp y (List.mem_of_mem_drop hy)) this
  · rcases List.mem_cons.mp hz with hz | hz
    · have := htake y hy
      rw [Bool.not_eq_true'] at this
      rw [hz]
      exact this
    · exact hrr y hy z hz

theorem rising_foldl_insert {less : β → β → Bool} {p : β → Prop} (ho : OrdersOn less p) {rest run : List β}
    (hrest : ∀ y ∈ rest, p y) (hp : ∀ y ∈ run, p y) (hrun : Rising less run) :
    Rising less (rest.foldl (insert less) run) := by
  induction rest generalizing run with
  | nil => exact hrun
  | cons x rest ih =>
    have hx := hrest x (List.mem_cons_self ..)
    refine ih (fun y hy => hrest y (List.mem_cons_of_mem _ hy)) (fun y hy => ?_) (rising_insert ho hx hp hrun)
    rcases List.mem_cons.mp ((insert_perm less run x).mem_iff.mp hy) with h | h
    · rw [h]
      exact hx
    · exact hp y h

theorem pairwise_splitRun (r : β → β → Prop) (goesOn : β → β → Bool) (last : β) (xs : List β)
    (hr : ∀ a ∈ last :: xs, ∀ b ∈ last :: xs, ∀ c ∈ last :: xs, r a b → r b c → r a c)
    (hgoes : ∀ a ∈ last :: xs, ∀ b ∈ last :: xs, goesOn a b = true → r a b) :
    (last :: (splitRun goesOn last xs).1).Pairwise r := by
  induction xs generalizing last with
  | nil => simp [splitRun]
  | cons x xs ih =>
    unfold splitRun
    split
    · next hx =>
      have hsub : ∀ a ∈ x :: xs, a ∈ last :: x :: xs := fun a ha => List.mem_cons_of_mem _ ha
      have ih := ih x
        (fun a ha b hb c hc => hr a (hsub a ha) b (hsub b hb) c (hsub c hc))
        (fun a ha b hb => hgoes a (hsub a ha) b (hsub b hb))
      have hlast : r last x :=
        hgoes last (List.mem_cons_self ..) x (hsub x (List.mem_cons_self ..)) hx
      refine List.pairwise_cons.mpr ⟨fun y hy => ?_, ih⟩
      rcases List.mem_cons.mp hy with hy | hy
      · rw [hy]
        exact hlast
      · have hmem : y ∈ x :: xs := by
          refine List.mem_cons_of_mem _ ?_
          rw [← splitRun_append goesOn x xs]
          exact List.mem_append_left _ hy
        exact hr last (List.mem_cons_self ..) x (hsub x (List.mem_cons_self ..)) y (hsub y hmem) hlast
          ((List.pairwise_cons.mp ih).1 y hy)
    · simp

theorem OrdersOn.less_trans {less : β → β → Bool} {p : β → Prop} (ho : OrdersOn less p) {a b c : β} (ha : p a)
    (hb : p b) (hc : p c) (hab : less a b = true) (hbc : less b c = true) : less a c = true := by
  by_cases h : less a c = true
  · exact h
  · have := ho.trans c a b hc ha hb (Bool.eq_false_iff.mpr h) (ho.asymm a b ha hb hab)
    rw [hbc] at this
    cases this

theorem splitRun_cons (goesOn : β → β → Bool) {last x : β} (h : goesOn last x = true) (xs : List β) :
    (splitRun goesOn last (x :: xs)).1 = x :: (splitRun goesOn x xs).1 := by
  simp [splitRun, h]

theorem rising_firstRun {less : β → β → Bool} {p : β → Prop} (ho : OrdersOn less p) (xs : List β)
    (hp : ∀ y ∈ xs, p y) : Rising less (firstRun less xs).1 := by
  fun_cases firstRun less xs with
  | case1 x y xs hxy split =>
    have h := pairwise_splitRun (fun a b => less b a = true) (fun a b => less b a) x (y :: xs)
      (fun a ha b hb c hc hab hbc => ho.less_trans (hp c hc) (hp b hb) (hp a ha) hbc hab)
      (fun a _ b _ h => h)
    rw [splitRun_cons (fun a b => less b a) hxy] at h
    have hmem : ∀ c ∈ x :: y :: split.1, p c := by
      intro c hc
      refine hp c ?_
      rw [← splitRun_append (fun a b => less b a) y xs]
      exact List.mem_append_left (splitRun (fun a b => less b a) y xs).2 hc
    unfold Rising
    rw [List.pairwise_reverse]
    exact h.imp_of_mem fun ha hb hab => ho.asymm _ _ (hmem _ hb) (hmem _ ha) hab
  | case2 x y xs hxy split =>
    have h := pairwise_splitRun (fun a b => less b a = false) (fun a b => !less b a) x (y :: xs)
      (fun a ha b hb c hc hab hbc => ho.trans a b c (hp a ha) (hp b hb) (hp c hc) hab hbc)
      (fun a _ b _ h => by simpa using h)
    rw [splitRun_cons (fun a b => !less b a) (by simpa using hxy)] at h
    exact h
  | case3 xs hxs =>
    cases xs with
    | nil => exact List.Pairwise.nil
    | cons x xs =>
      cases xs with
      | nil => exact List.pairwise_singleton _ x
      | cons y xs => exact (hxs x y xs rfl).elim

theorem rising_extendedRun {less : β → β → Bool} {p : β → Prop} (ho : OrdersOn less p) (least : Nat) {xs : List β}
    (hp : ∀ y ∈ xs, p y) : Rising less (extendedRun less least xs).1 := by
  have hmem : ∀ y ∈ (firstRun less xs).1 ++ (firstRun less xs).2, p y :=
    fun y hy => hp y ((firstRun_perm less xs).mem_iff.mp hy)
  unfold extendedRun
  exact rising_foldl_insert ho
    (fun y hy => hmem y (List.mem_append_right _ (List.mem_of_mem_take hy)))
    (fun y hy => hmem y (List.mem_append_left _ hy)) (rising_firstRun ho xs hp)

end Flowchart.Sorting
