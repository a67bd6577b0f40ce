/-!
# The leading elements of a list

How many elements at the beginning of a list satisfy a condition is found without looking at all of them, by
halving or by leaps of growing width. If the condition holds exactly on a beginning of the list, both count that
beginning (`leads_countByHalving`, `leads_countLeading`); in any other list the outcome depends on which elements
are looked at.
-/

namespace Flowchart.Sorting

variable {β : Type}

/-- How a list is halved: where its middle is, given its length. -/
inductive Halving where
  /-- The middle is the later one of two elements. -/
  | late
  /-- The middle is the earlier one of two elements. -/
  | early
deriving DecidableEq, Repr

/-- The number of elements before the middle of a list. -/
def Halving.before (h : Halving) (length : Nat) : Nat :=
  match h with
  | late => length / 2
  | early => (length - 1) / 2

/-- The number of leading elements, by halving: if the condition holds in the middle, all elements before it
count and those behind it are searched, else those before it are. The length bounds the `steps` that are
needed. -/
def countByHalving (h : Halving) (condition : β → Bool) : (steps : Nat) → List β → Nat
  | 0, _ => 0
  | steps + 1, xs =>
    let before := h.before xs.length
    match xs.drop before with
    | [] => 0
    | x :: behind =>
      if condition x then before + 1 + countByHalving h condition steps behind
      else countByHalving h condition steps (xs.take before)

/-- The number of leading elements, by leaps: as long as the condition holds at the end of a leap, the next one
is twice as wide; what the last leap has passed is searched by halving. -/
def countByLeaps (h : Halving) (condition : β → Bool) : (steps width : Nat) → List β → Nat
  | 0, _, _ => 0
  | steps + 1, width, xs =>
    match xs.drop (width - 1) with
    | [] => countByHalving h condition xs.length xs
    | x :: behind =>
      if condition x then width + countByLeaps h condition steps (2 * width) behind
      else countByHalving h condition xs.length (xs.take (width - 1))

/-- The number of leading elements, by leaps that start at the first element. -/
def countLeading (h : Halving) (condition : β → Bool) : List β → Nat
  | [] => 0
  | x :: xs => if condition x then 1 + countByLeaps h condition (xs.length + 1) 1 xs else 0

/-- The first `n` elements satisfy the condition and all others do not. -/
def Leads (condition : β → Bool) (xs : List β) (n : Nat) : Prop :=
  (∀ x ∈ xs.take n, condition x = true) ∧ ∀ x ∈ xs.drop n, condition x = false

/-- The condition holds exactly on a beginning of the list. -/
def HoldsFirst (condition : β → Bool) (xs : List β) : Prop :=
  xs.Pairwise fun a b => condition b = true → condition a = true

theorem leads_append {condition : β → Bool} {xs ys : List β} {n : Nat} (hxs : ∀ x ∈ xs, condition x = true)
    (hys : Leads condition ys n) : Leads condition (xs ++ ys) (xs.length + n) := by
  unfold Leads at hys ⊢
  rw [List.take_length_add_append, List.drop_length_add_append]
  refine ⟨fun x hx => ?_, hys.2⟩
  rcases List.mem_append.mp hx with h | h
  · exact hxs x h
  · exact hys.1 x h

theorem leads_append_of_le {condition : β → Bool} {xs ys : List β} {n : Nat} (hn : n ≤ xs.length)
    (hxs : Leads condition xs n) (hys : ∀ y ∈ ys, condition y = false) : Leads condition (xs ++ ys) n := by
  unfold Leads at hxs ⊢
  rw [List.take_append_of_le_length hn, List.drop_append_of_le_length hn]
  refine ⟨hxs.1, fun x hx => ?_⟩
  rcases List.mem_append.mp hx with h | h
  · exact hxs.2 x h
  · exact hys x h

theorem countByHalving_le (h : Halving) (condition : β → Bool) (steps : Nat) (xs : List β) :
    countByHalving h condition steps xs ≤ xs.length := by
  fun_induction countByHalving h condition steps xs with
  | case1 => exact Nat.zero_le _
  | case2 => exact Nat.zero_le _
  | case3 steps xs before x behind hdrop hx ih =>
    have hlen := congrArg List.length hdrop
    simp only [List.length_drop, List.length_cons] at hlen
    omega
  | case4 steps xs before x behind hdrop hx ih =>
    rw [List.length_take] at ih
    omega

theorem Halving.before_lt (h : Halving) {length : Nat} (hlength : 0 < length) : h.before length < length := by
  cases h <;> simp only [Halving.before] <;> omega

theorem leads_countByHalving (h : Halving) (condition : β → Bool) (steps : Nat) (xs : List β)
    (hsteps : xs.length ≤ steps) (hxs : HoldsFirst condition xs) :
    Leads condition xs (countByHalving h condition steps xs) := by
  fun_induction countByHalving h condition steps xs with
  | case1 xs =>
    have hnil : xs = [] := List.eq_nil_of_length_eq_zero (by omega)
    simp [hnil, Leads]
  | case2 steps xs before hdrop =>
    have hlen := congrArg List.length hdrop
    simp only [List.length_drop, List.length_nil] at hlen
    by_cases hpos : 0 < xs.length
    · have := h.before_lt hpos
      omega
    · have hnil : xs = [] := List.eq_nil_of_length_eq_zero (by omega)
      simp [hnil, Leads]
  | case3 steps xs before x behind hdrop hx ih =>
    have hsplit := List.take_append_drop before xs
    rw [hdrop] at hsplit
    have hlen := congrArg List.length hdrop
    simp only [List.length_drop, List.length_cons] at hlen
    unfold HoldsFirst at hxs
    rw [← hsplit, List.pairwise_append, List.pairwise_cons] at hxs
    have ih := ih (by omega) hxs.2.1.2
    have hfirst : ∀ y ∈ xs.take before ++ [x], condition y = true := by
      intro y hy
      rcases List.mem_append.mp hy with hy | hy
      · exact hxs.2.2 y hy x (List.mem_cons_self ..) hx
      · rw [List.mem_singleton.mp hy]
        exact hx
    have := leads_append hfirst ih
    rw [List.append_assoc, List.cons_append, List.nil_append, hsplit] at this
    rw [List.length_append, List.length_take, List.length_singleton] at this
    rwa [Nat.min_eq_left (by omega)] at this
  | case4 steps xs before x behind hdrop hx ih =>
    have hsplit := List.take_append_drop before xs
    rw [hdrop] at hsplit
    have hlen := congrArg List.length hdrop
    simp only [List.length_drop, List.length_cons] at hlen
    unfold HoldsFirst at hxs
    rw [← hsplit, List.pairwise_append, List.pairwise_cons] at hxs
    have ih := ih (by rw [List.length_take]; omega) hxs.1
    have hlast : ∀ y ∈ x :: behind, condition y = false := by
      intro y hy
      rcases List.mem_cons.mp hy with hy | hy
      · rw [hy]
        exact Bool.eq_false_iff.mpr hx
      · exact Bool.eq_false_iff.mpr fun hc => hx (hxs.2.1.1 y hy hc)
    have := leads_append_of_le (countByHalving_le h condition steps _) ih hlast
    rwa [hsplit] at this

theorem leads_countByLeaps (h : Halving) (condition : β → Bool) (steps width : Nat) (xs : List β)
    (hwidth : 0 < width) (hsteps : xs.length < steps) (hxs : HoldsFirst condition xs) :
    Leads condition xs (countByLeaps h condition steps width xs) := by
  fun_induction countByLeaps h condition steps width xs with
  | case1 => omega
  | case2 steps width xs hdrop =>
    exact leads_countByHalving h condition _ xs (Nat.le_refl _) hxs
  | case3 steps width xs x behind hdrop hx ih =>
    have hsplit := List.take_append_drop (width - 1) xs
    rw [hdrop] at hsplit
    have hlen := congrArg List.length hdrop
    simp only [List.length_drop, List.length_cons] at hlen
    unfold HoldsFirst at hxs
    rw [← hsplit, List.pairwise_append, List.pairwise_cons] at hxs
    have ih := ih (by omega) (by omega) hxs.2.1.2
    have hfirst : ∀ y ∈ xs.take (width - 1) ++ [x], condition y = true := by
      intro y hy
      rcases List.mem_append.mp hy with hy | hy
      · exact hxs.2.2 y hy x (List.mem_cons_self ..) hx
      · rw [List.mem_singleton.mp hy]
        exact hx
    have := leads_append hfirst ih
    rw [List.append_assoc, List.cons_append, List.nil_append, hsplit] at this
    rw [List.length_append, List.length_take, List.length_singleton] at this
    rwa [show min (width - 1) xs.length + 1 = width by omega] at this
  | case4 steps width xs x behind hdrop hx =>
    have hsplit := List.take_append_drop (width - 1) xs
    rw [hdrop] at hsplit
    unfold HoldsFirst at hxs
    rw [← hsplit, List.pairwise_append, List.pairwise_cons] at hxs
    have hfront := leads_countByHalving h condition xs.length (xs.take (width - 1))
      (by rw [List.length_take]; omega) hxs.1
    have hlast : ∀ y ∈ x :: behind, condition y = false := by
      intro y hy
      rcases List.mem_cons.mp hy with hy | hy
      · rw [hy]
        exact Bool.eq_false_iff.mpr hx
      · exact Bool.eq_false_iff.mpr fun hc => hx (hxs.2.1.1 y hy hc)
    have := leads_append_of_le (countByHalving_le h condition _ _) hfront hlast
    rwa [hsplit] at this

theorem leads_countLeading (h : Halving) (condition : β → Bool) (xs : List β) (hxs : HoldsFirst condition xs) :
    Leads condition xs (countLeading h condition xs) := by
  cases xs with
  | nil => simp [Leads]
  | cons x xs =>
    unfold HoldsFirst at hxs
    rw [List.pairwise_cons] at hxs
    simp only [countLeading]
    split
    · next hx =>
      have hrest := leads_countByLeaps h condition (xs.length + 1) 1 xs (by omega) (by omega) hxs.2
      have hfirst : ∀ y ∈ [x], condition y = true := by simpa using hx
      exact leads_append hfirst hrest
    · next hx =>
      refine ⟨by simp, fun y hy => ?_⟩
      rcases List.mem_cons.mp hy with hy | hy
      · rw [hy]
        exact Bool.eq_false_iff.mpr hx
      · exact Bool.eq_false_iff.mpr fun hc => hx (hxs.1 y hy hc)

end Flowchart.Sorting
