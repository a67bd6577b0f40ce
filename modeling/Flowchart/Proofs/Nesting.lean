import Mathlib.Data.List.Induction
import Mathlib.Data.List.Sort

/-!
# Nesting

A sequence of brackets of which some open and some close; a closing one closes what was opened last, and does
nothing where nothing is open. `IsOpen` says by counting alone which openings are not closed yet at a position,
and `innermost?` is the last of them. A stack that is pushed and popped along the sequence holds exactly the open
positions, innermost first (`openAfter_take`), so its top is the innermost one (`head?_openAfter_take`).
-/

namespace Flowchart

inductive Bracket where
  | opens
  | closes
  | plain
deriving DecidableEq, Repr

namespace Nesting

/-- What stands behind position `j`, up to and including position `m`. -/
def segment (bs : List Bracket) (j m : Nat) : List Bracket :=
  (bs.take (m + 1)).drop (j + 1)

/-- Whether the opening at position `j` is not closed yet at position `i`: nowhere in between do the closings
behind it outnumber the openings behind it. -/
def IsOpen (bs : List Bracket) (j i : Nat) : Prop :=
  j < i ∧ bs[j]? = some .opens ∧
    ∀ m < i, j < m → (segment bs j m).count .closes ≤ (segment bs j m).count .opens

instance (bs : List Bracket) (j i : Nat) : Decidable (IsOpen bs j i) :=
  inferInstanceAs (Decidable (_ ∧ _ ∧ _))

/-- The last position before `i` that is still open there. -/
def innermost? (bs : List Bracket) (i : Nat) : Option Nat :=
  (List.range i).reverse.find? fun j => IsOpen bs j i

/-- The stack after the bracket at a position. -/
def push (stack : List Nat) (position : Nat) : Bracket → List Nat
  | .opens => position :: stack
  | .closes => stack.drop 1
  | .plain => stack

/-- The stack after a sequence of brackets, innermost position first. -/
def openAfter (bs : List Bracket) : List Nat :=
  bs.zipIdx.foldl (fun stack (b, i) => push stack i b) []

private theorem segment_take {bs : List Bracket} {i m : Nat} (j : Nat) (hm : m < i) :
    segment (bs.take i) j m = segment bs j m := by
  unfold segment
  rw [List.take_take, Nat.min_eq_left (by omega)]

/-- What is open at a position depends on what stands before it only. -/
theorem isOpen_take {bs : List Bracket} {i n : Nat} (j : Nat) (hi : i ≤ n) :
    IsOpen (bs.take n) j i ↔ IsOpen bs j i := by
  unfold IsOpen
  refine and_congr_right fun hj => and_congr ?_ ?_
  · rw [List.getElem?_take_of_lt (by omega)]
  · refine forall₂_congr fun m hm => ?_
    rw [segment_take j (by omega)]

theorem innermost?_take {bs : List Bracket} {i n : Nat} (hi : i ≤ n) :
    innermost? (bs.take n) i = innermost? bs i := by
  unfold innermost?
  congr 1
  funext j
  exact decide_eq_decide.2 (isOpen_take j hi)

theorem innermost?_append {bs : List Bracket} (bs' : List Bracket) {i : Nat} (hi : i ≤ bs.length) :
    innermost? (bs ++ bs') i = innermost? bs i := by
  rw [← innermost?_take hi, List.take_left' rfl]

private theorem segment_concat_length {bs : List Bracket} (b : Bracket) {j : Nat} (hj : j < bs.length) :
    segment (bs ++ [b]) j bs.length = bs.drop (j + 1) ++ [b] := by
  unfold segment
  rw [List.take_of_length_le (by simp), List.drop_append_of_le_length (by omega)]

/-- One more bracket: what it opens is open behind it, and what was open stays so if it is not closed. -/
private theorem isOpen_concat (bs : List Bracket) (b : Bracket) (j : Nat) :
    IsOpen (bs ++ [b]) j (bs.length + 1) ↔
      (j = bs.length ∧ b = .opens) ∨
        (IsOpen bs j bs.length ∧
          (bs.drop (j + 1) ++ [b]).count .closes ≤ (bs.drop (j + 1) ++ [b]).count .opens) := by
  have hpre : IsOpen (bs ++ [b]) j bs.length ↔ IsOpen bs j bs.length := by
    rw [← isOpen_take j (Nat.le_refl _), List.take_left']
    rfl
  rw [← hpre]
  unfold IsOpen
  constructor
  · rintro ⟨hj, hb, hm⟩
    rcases Nat.lt_succ_iff_lt_or_eq.1 hj with hj | rfl
    · have hlast := hm bs.length (by omega) hj
      rw [segment_concat_length b hj] at hlast
      exact .inr ⟨⟨hj, hb, fun m hm' => hm m (by omega)⟩, hlast⟩
    · exact .inl ⟨rfl, by simpa using hb⟩
  · rintro (⟨rfl, rfl⟩ | ⟨⟨hj, hb, hm⟩, hlast⟩)
    · exact ⟨by omega, by simp, fun m hm hm' => by omega⟩
    · refine ⟨by omega, hb, fun m hm' hjm => ?_⟩
      rcases Nat.lt_succ_iff_lt_or_eq.1 hm' with hm' | rfl
      · exact hm m hm' hjm
      · rwa [segment_concat_length b hj]

private theorem count_closes_le {bs : List Bracket} {j : Nat} (h : IsOpen bs j bs.length) :
    (bs.drop (j + 1)).count .closes ≤ (bs.drop (j + 1)).count .opens := by
  obtain ⟨hj, -, hm⟩ := h
  by_cases hlast : j + 1 = bs.length
  · simp [hlast]
  · have := hm (bs.length - 1) (by omega) (by omega)
    rwa [segment, List.take_of_length_le (by omega)] at this

/-! ### The stack -/

theorem openAfter_concat (bs : List Bracket) (b : Bracket) :
    openAfter (bs ++ [b]) = push (openAfter bs) bs.length b := by
  unfold openAfter
  rw [List.zipIdx_append, List.foldl_append]
  simp

theorem lt_of_mem_openAfter {bs : List Bracket} : ∀ {j}, j ∈ openAfter bs → j < bs.length := by
  induction bs using List.reverseRecOn with
  | nil => simp [openAfter]
  | append_singleton bs b ih =>
    intro j hj
    rw [openAfter_concat] at hj
    rw [List.length_append, List.length_singleton]
    cases b with
    | opens =>
      rcases List.mem_cons.1 hj with rfl | hj
      · omega
      · have := ih hj; omega
    | closes => have := ih (List.mem_of_mem_drop hj); omega
    | plain => have := ih hj; omega

/-- The positions on the stack fall from the innermost one outwards. -/
theorem openAfter_pairwise (bs : List Bracket) : (openAfter bs).Pairwise (· > ·) := by
  induction bs using List.reverseRecOn with
  | nil => exact .nil
  | append_singleton bs b ih =>
    rw [openAfter_concat]
    cases b with
    | opens => exact List.pairwise_cons.2 ⟨fun j hj => lt_of_mem_openAfter hj, ih⟩
    | closes => exact ih.sublist (List.drop_sublist 1 _)
    | plain => exact ih

/-- The excess of openings over closings behind an open position, after one more bracket. -/
private theorem isOpen_excess_concat (bs : List Bracket) (b : Bracket) (j k : Nat) :
    (IsOpen (bs ++ [b]) j (bs.length + 1) ∧
        ((bs ++ [b]).drop (j + 1)).count .opens = ((bs ++ [b]).drop (j + 1)).count .closes + k) ↔
      (j = bs.length ∧ b = .opens ∧ k = 0) ∨
        (IsOpen bs j bs.length ∧
          (bs.drop (j + 1) ++ [b]).count .opens = (bs.drop (j + 1) ++ [b]).count .closes + k) := by
  have hdrop : IsOpen bs j bs.length → (bs ++ [b]).drop (j + 1) = bs.drop (j + 1) ++ [b] := fun h =>
    List.drop_append_of_le_length h.1
  rw [isOpen_concat]
  constructor
  · rintro ⟨⟨rfl, hb⟩ | ⟨ho, -⟩, hk⟩
    · have h0 : (bs ++ [b]).drop (bs.length + 1) = [] := List.drop_of_length_le (by simp)
      rw [h0] at hk
      exact .inl ⟨rfl, hb, by simpa using hk.symm⟩
    · exact .inr ⟨ho, hdrop ho ▸ hk⟩
  · rintro (⟨rfl, rfl, rfl⟩ | ⟨ho, hk⟩)
    · exact ⟨.inl ⟨rfl, rfl⟩, by simp⟩
    · exact ⟨.inr ⟨ho, by omega⟩, (hdrop ho).symm ▸ hk⟩

/-- The place of an open position on the stack is the number by which the openings behind it exceed the
closings behind it. -/
private theorem getElem?_openAfter (bs : List Bracket) (k j : Nat) :
    (openAfter bs)[k]? = some j ↔ IsOpen bs j bs.length ∧
      (bs.drop (j + 1)).count .opens = (bs.drop (j + 1)).count .closes + k := by
  induction bs using List.reverseRecOn generalizing k with
  | nil => simp [openAfter, IsOpen]
  | append_singleton bs b ih =>
    rw [openAfter_concat, List.length_append, List.length_singleton, isOpen_excess_concat]
    cases b with
    | opens =>
      cases k with
      | zero =>
        constructor
        · intro h
          exact .inl ⟨(Option.some.inj h).symm, rfl, rfl⟩
        · rintro (⟨rfl, -, -⟩ | ⟨ho, hk⟩)
          · rfl
          · have := count_closes_le ho
            simp at hk
            omega
      | succ k =>
        -- what lay on the stack has gone down by one place, and its excess has risen by one
        rw [show (push (openAfter bs) bs.length .opens)[k + 1]? = (openAfter bs)[k]? from rfl, ih]
        simp
        omega
    | closes =>
      rw [show (push (openAfter bs) bs.length .closes)[k]? = (openAfter bs)[k + 1]? by
        simp [push], ih]
      simp
      omega
    | plain =>
      rw [show (push (openAfter bs) bs.length .plain)[k]? = (openAfter bs)[k]? from rfl, ih]
      simp

theorem mem_openAfter (bs : List Bracket) (j : Nat) :
    j ∈ openAfter bs ↔ IsOpen bs j bs.length := by
  rw [List.mem_iff_getElem?]
  constructor
  · rintro ⟨k, hk⟩
    exact ((getElem?_openAfter bs k j).1 hk).1
  · intro h
    have := count_closes_le h
    exact ⟨_, (getElem?_openAfter bs _ j).2 ⟨h, (Nat.add_sub_cancel' this).symm⟩⟩

/-- The stack holds exactly what is open, the innermost position first. -/
theorem openAfter_take {bs : List Bracket} {i : Nat} (hi : i ≤ bs.length) :
    openAfter (bs.take i) = (List.range i).reverse.filter fun j => IsOpen bs j i := by
  have hlen : (bs.take i).length = i := List.length_take_of_le hi
  have hrange : ((List.range i).reverse.filter fun j => IsOpen bs j i).Pairwise (· > ·) := by
    refine List.Pairwise.filter _ ?_
    rw [List.pairwise_reverse]
    exact List.pairwise_lt_range
  refine (openAfter_pairwise _).eq_of_mem_iff hrange fun j => ?_
  rw [mem_openAfter, hlen, isOpen_take j (Nat.le_refl _), List.mem_filter, List.mem_reverse, List.mem_range]
  simp only [decide_eq_true_eq]
  exact ⟨fun h => ⟨h.1, h⟩, And.right⟩

theorem head?_openAfter_take {bs : List Bracket} {i : Nat} (hi : i ≤ bs.length) :
    (openAfter (bs.take i)).head? = innermost? bs i := by
  rw [openAfter_take hi, List.head?_filter]
  rfl

theorem head?_openAfter (bs : List Bracket) : (openAfter bs).head? = innermost? bs bs.length := by
  rw [← head?_openAfter_take (Nat.le_refl _), List.take_length]

theorem isOpen_of_innermost? {bs : List Bracket} {i j : Nat} (h : innermost? bs i = some j) : IsOpen bs j i := by
  simpa using List.find?_some h

theorem IsOpen.of_le {bs : List Bracket} {j i n : Nat} (h : IsOpen bs j i) (hj : j < n) (hn : n ≤ i) :
    IsOpen bs j n :=
  ⟨hj, h.2.1, fun m hm => h.2.2 m (by omega)⟩

/-- What has been closed is not open any more. -/
theorem not_isOpen_of_closes {bs : List Bracket} {i j n : Nat} (hi : bs[i]? = some .closes)
    (h : innermost? bs i = some j) (hn : i < n) : ¬ IsOpen bs j n := by
  intro hopen
  obtain ⟨hlt, hclose⟩ := List.getElem?_eq_some_iff.1 hi
  have hj := (isOpen_of_innermost? h).1
  have hmem : j ∈ openAfter (bs.take (i + 1)) := by
    rw [openAfter_take hlt, List.mem_filter, List.mem_reverse, List.mem_range]
    exact ⟨by omega, by simpa using hopen.of_le (by omega) hn⟩
  -- behind the closing bracket the stack holds only what lies around `j`
  rw [← head?_openAfter_take (Nat.le_of_lt hlt)] at h
  obtain ⟨outer, houter⟩ := List.head?_eq_some_iff.1 h
  rw [List.take_succ_eq_append_getElem hlt, openAfter_concat, hclose, houter] at hmem
  have hfalls := openAfter_pairwise (bs.take i)
  rw [houter] at hfalls
  exact Nat.lt_irrefl j (List.rel_of_pairwise_cons hfalls hmem)

/-- Below an open position the stack is what it was at this position. -/
private theorem eq_openAfter_take (bs : List Bracket) (inner : List Nat) {outer : List Nat} {j : Nat}
    (h : openAfter bs = inner ++ j :: outer) : outer = openAfter (bs.take j) := by
  induction bs using List.reverseRecOn generalizing inner with
  | nil => simp [openAfter] at h
  | append_singleton bs b ih =>
    have hold : ∀ inner : List Nat, openAfter bs = inner ++ j :: outer →
        outer = openAfter ((bs ++ [b]).take j) := by
      intro inner h
      have hj : j < bs.length := lt_of_mem_openAfter (by rw [h]; simp)
      rw [List.take_append_of_le_length (by omega)]
      exact ih inner h
    -- but for a new opening, `j` has been on the stack before the last bracket
    rw [openAfter_concat] at h
    cases b with
    | opens =>
      rcases List.append_eq_cons_iff.1 h.symm with ⟨rfl, hnew⟩ | ⟨inner', rfl, hinner⟩
      · obtain ⟨rfl, rfl⟩ := List.cons.inj hnew
        rw [List.take_left' rfl]
      · exact hold inner' hinner
    | closes =>
      cases hs : openAfter bs with
      | nil =>
        rw [hs] at h
        simp [push] at h
      | cons i stack =>
        rw [hs] at h
        exact hold (i :: inner) (by rw [hs, show stack = inner ++ j :: outer from h]; rfl)
    | plain => exact hold inner h

/-- Inside the innermost open position there is one more of them than at this position. -/
theorem openAfter_take_of_innermost? {bs : List Bracket} {i j : Nat} (hi : i ≤ bs.length)
    (h : innermost? bs i = some j) : openAfter (bs.take i) = j :: openAfter (bs.take j) := by
  rw [← head?_openAfter_take hi] at h
  obtain ⟨outer, houter⟩ := List.head?_eq_some_iff.1 h
  have hj := (isOpen_of_innermost? ((head?_openAfter_take hi).symm.trans h)).1
  have hrest := eq_openAfter_take (bs.take i) [] houter
  rw [List.take_take, Nat.min_eq_left (by omega)] at hrest
  rw [houter, hrest]

end Nesting

end Flowchart
