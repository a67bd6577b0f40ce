import Flowchart.Proofs.Outline.Lines

/-!
# The containers around a line

The containers and the nodes of an outline are numbered in the order of their lines. A line lies in the container
whose opening is the innermost one that is open there (`frameAt?`), at the level given by the number of openings
that are (`levelAt`). All this depends on what stands before the line only.
-/

namespace Flowchart.Outline

/-- How many lines of a kind come before a place; a line is of the kind if something is picked from it. -/
def countBefore {γ : Type} (pick : Content → Option γ) (cs : List Content) (p : Nat) : Nat :=
  (cs.take p).countP fun c => (pick c).isSome

/-- How many containers are opened before a place. -/
def opensBefore (cs : List Content) (p : Nat) : Nat :=
  countBefore Content.name? cs p

/-- How many nodes are added before a place. -/
def nodesBefore (cs : List Content) (p : Nat) : Nat :=
  countBefore Content.node? cs p

/-- The number of the container in which the line at a place lies. -/
def frameAt? (cs : List Content) (p : Nat) : Option Nat :=
  (Nesting.innermost? (cs.map Content.framing) p).map (opensBefore cs)

/-- The number of the containers in which the line at a place lies. -/
def levelAt (cs : List Content) (p : Nat) : Nat :=
  (Nesting.openAfter ((cs.map Content.framing).take p)).length

/-- A line of a kind is counted behind it. -/
theorem countBefore_lt {γ : Type} (pick : Content → Option γ) {cs : List Content} {p q : Nat} {c : Content}
    {y : γ} (hp : cs[p]? = some c) (hc : pick c = some y) (hq : p < q) :
    countBefore pick cs p < countBefore pick cs q := by
  obtain ⟨hlt, hval⟩ := List.getElem?_eq_some_iff.1 hp
  have hprefix : cs.take (p + 1) <+: cs.take q := List.take_prefix_take_left hq
  have hle : (cs.take (p + 1)).countP (fun c => (pick c).isSome) ≤ (cs.take q).countP fun c => (pick c).isSome :=
    hprefix.sublist.countP_le
  rw [List.take_succ_eq_append_getElem hlt, List.countP_append, hval] at hle
  simp [hc] at hle
  unfold countBefore
  omega

/-- Different lines of a kind have different numbers. -/
theorem countBefore_inj {γ : Type} (pick : Content → Option γ) {cs : List Content} {p q : Nat} {c d : Content}
    {y z : γ} (hp : cs[p]? = some c) (hc : pick c = some y) (hq : cs[q]? = some d) (hd : pick d = some z)
    (h : countBefore pick cs p = countBefore pick cs q) : p = q := by
  rcases Nat.lt_trichotomy p q with hlt | heq | hlt
  · exact absurd h (Nat.ne_of_lt (countBefore_lt pick hp hc hlt))
  · exact heq
  · exact absurd h.symm (Nat.ne_of_lt (countBefore_lt pick hq hd hlt))

section Concat

variable (cs : List Content) (c : Content) {p : Nat}

theorem countBefore_concat {γ : Type} (pick : Content → Option γ) (hp : p ≤ cs.length) :
    countBefore pick (cs ++ [c]) p = countBefore pick cs p := by
  unfold countBefore
  rw [List.take_append_of_le_length hp]

theorem opensBefore_concat (hp : p ≤ cs.length) : opensBefore (cs ++ [c]) p = opensBefore cs p :=
  countBefore_concat cs c Content.name? hp

theorem frameAt?_concat (hp : p ≤ cs.length) : frameAt? (cs ++ [c]) p = frameAt? cs p := by
  unfold frameAt?
  rw [List.map_append, Nesting.innermost?_append _ (by simpa using hp)]
  refine Option.map_congr fun q hq => ?_
  have := (Nesting.isOpen_of_innermost? hq).1
  exact opensBefore_concat cs c (by omega)

theorem levelAt_concat (hp : p ≤ cs.length) : levelAt (cs ++ [c]) p = levelAt cs p := by
  unfold levelAt
  rw [List.map_append, List.take_append_of_le_length (by simpa using hp)]

end Concat

/-- The list holds what is made of the lines of a kind, in their order. -/
structure Listed {β γ : Type} (pick : Content → Option γ) (cs : List Content) (make : Nat → γ → β)
    (xs : List β) : Prop where
  length_eq : xs.length = cs.countP fun c => (pick c).isSome
  getElem?_eq : ∀ (p : Nat) (c : Content) (y : γ), cs[p]? = some c → pick c = some y →
    xs[countBefore pick cs p]? = some (make p y)

theorem Listed.nil {β γ : Type} (pick : Content → Option γ) (make : Nat → γ → β) : Listed pick [] make [] :=
  ⟨rfl, fun p c y hp => by cases hp⟩

/-- One more line adds what is made of it, and changes nothing before. -/
theorem Listed.concat {β γ : Type} {pick : Content → Option γ} {cs : List Content} {make make' : Nat → γ → β}
    {xs : List β} (h : Listed pick cs make xs) (c : Content)
    (hmake : ∀ p ≤ cs.length, ∀ y, make' p y = make p y) :
    Listed pick (cs ++ [c]) make' (xs ++ ((pick c).map (make cs.length)).toList) where
  length_eq := by
    rw [List.length_append, h.length_eq, List.countP_append]
    cases hc : pick c <;> simp [hc]
  getElem?_eq p d y hp hd := by
    rcases getElem?_concat_eq_some.1 hp with hp | ⟨rfl, rfl⟩
    · have hlt := (List.getElem?_eq_some_iff.1 hp).1
      have hold := h.getElem?_eq p d y hp hd
      rw [countBefore_concat cs c pick (by omega), hmake p (by omega),
        List.getElem?_append_left (List.getElem?_eq_some_iff.1 hold).1]
      exact hold
    · have hcount : countBefore pick cs cs.length = xs.length := by
        unfold countBefore
        rw [List.take_length, h.length_eq]
      rw [countBefore_concat cs c pick (Nat.le_refl _), hcount, hmake _ (Nat.le_refl _), hd]
      exact List.getElem?_concat_length

/-- Every number below the number of the lines of a kind is the number of one of them. -/
theorem exists_place {γ : Type} (pick : Content → Option γ) {cs : List Content} {j : Nat}
    (hj : j < cs.countP fun c => (pick c).isSome) :
    ∃ p c y, cs[p]? = some c ∧ pick c = some y ∧ countBefore pick cs p = j := by
  induction cs using List.reverseRecOn with
  | nil => cases hj
  | append_singleton cs c ih =>
    by_cases hold : j < cs.countP fun c => (pick c).isSome
    · obtain ⟨p, d, y, hp, hd, hcount⟩ := ih hold
      have hlt := (List.getElem?_eq_some_iff.1 hp).1
      refine ⟨p, d, y, (List.getElem?_append_left hlt).trans hp, hd, ?_⟩
      rw [countBefore_concat cs c pick (by omega), hcount]
    · rw [List.countP_append] at hj
      have hc : (pick c).isSome := by
        by_contra hnone
        simp [hnone] at hj
        omega
      obtain ⟨y, hy⟩ := Option.isSome_iff_exists.1 hc
      refine ⟨cs.length, c, y, List.getElem?_concat_length, hy, ?_⟩
      rw [countBefore_concat cs c pick (Nat.le_refl _), countBefore, List.take_length]
      simp [hc] at hj
      omega

theorem innermost?_eq_none_iff {cs : List Content} {p : Nat} (hp : p ≤ cs.length) :
    Nesting.innermost? (cs.map Content.framing) p = none ↔ levelAt cs p = 0 := by
  unfold levelAt
  rw [← Nesting.head?_openAfter_take (by simpa using hp), List.head?_eq_none_iff, List.length_eq_zero_iff]

/-- A line lies one level deeper than the opening of the container around it. -/
theorem levelAt_of_innermost? {cs : List Content} {p q : Nat} (hp : p ≤ cs.length)
    (h : Nesting.innermost? (cs.map Content.framing) p = some q) : levelAt cs p = levelAt cs q + 1 := by
  unfold levelAt
  rw [Nesting.openAfter_take_of_innermost? (by simpa using hp) h]
  rfl

/-- What is open is the opening of a container. -/
theorem opening_of_isOpen {cs : List Content} {p q : Nat} (h : Nesting.IsOpen (cs.map Content.framing) q p) :
    ∃ name, cs[q]? = some (.opening name) := by
  obtain ⟨-, hopens, -⟩ := h
  rw [List.getElem?_map] at hopens
  obtain ⟨c, hc, hopens⟩ := Option.map_eq_some_iff.1 hopens
  cases c with
  | opening name => exact ⟨name, hc⟩
  | _ => cases hopens

/-- The container around a line is opened by an earlier line. -/
theorem opening_of_innermost? {cs : List Content} {p q : Nat}
    (h : Nesting.innermost? (cs.map Content.framing) p = some q) :
    q < p ∧ ∃ name, cs[q]? = some (.opening name) :=
  ⟨(Nesting.isOpen_of_innermost? h).1, opening_of_isOpen (Nesting.isOpen_of_innermost? h)⟩

end Flowchart.Outline
