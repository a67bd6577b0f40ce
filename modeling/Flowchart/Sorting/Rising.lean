import Flowchart.Sorting
import Flowchart.Sorting.Order

/-!
# Sorting by an order

If `less` is an order of the elements, every move of a merge takes elements that are not greater than what it
leaves, so the merge of two runs is in rising order (`rising_merge`), and so is the sorted list (`rising_sort`).
-/

namespace Flowchart.Sorting

variable {β : Type}

/-- What a move has to keep for the merge to be in rising order. -/
structure Move.Keeps (less : β → β → Bool) (m : Move β) : Prop where
  taken_ne : m.taken ≠ []
  taken : Rising less m.taken
  left : Rising less m.left
  right : Rising less m.right
  taken_left : ∀ a ∈ m.taken, ∀ b ∈ m.left, less b a = false
  taken_right : ∀ a ∈ m.taken, ∀ b ∈ m.right, less b a = false
  last : ∀ x ∈ m.left.getLast?, ∀ y ∈ m.right, less x y = false

theorem keeps_stepMove {less : β → β → Bool} {p : β → Prop} (ho : OrdersOn less p) (patience lefts rights : Nat)
    {x y z : β} {left right : List β} (hp : ∀ w ∈ (x :: y :: left) ++ z :: right, p w)
    (hleft : Rising less (x :: y :: left)) (hright : Rising less (z :: right))
    (hlast : ∀ w ∈ (x :: y :: left).getLast?, ∀ v ∈ z :: right, less w v = false) :
    (stepMove less patience lefts rights x (y :: left) z right).Keeps less := by
  have hx : p x := hp x (by simp)
  have hz : p z := hp z (by simp)
  have hl : ∀ w ∈ y :: left, p w := fun w hw =>
    hp w (List.mem_append_left _ (List.mem_cons_of_mem _ hw))
  have hr : ∀ w ∈ right, p w := fun w hw => hp w (by simp [hw])
  have hleft' := rising_cons.mp hleft
  have hright' := rising_cons.mp hright
  unfold stepMove
  split
  · next h =>
    have hzx := ho.asymm z x hz hx h
    refine ⟨by simp, by simp [Rising], hleft, hright'.2, ?_, ?_, fun w hw v hv => hlast w hw v (by simp [hv])⟩
    · intro a ha b hb
      rw [List.mem_singleton.mp ha]
      rcases List.mem_cons.mp hb with hb | hb
      · rw [hb]
        exact hzx
      · exact ho.trans z x b hz hx (hl b hb) hzx (hleft'.1 b hb)
    · intro a ha b hb
      rw [List.mem_singleton.mp ha]
      exact hright'.1 b hb
  · next h =>
    have hxz := Bool.eq_false_iff.mpr h
    refine ⟨by simp, by simp [Rising], hleft'.2, hright, ?_, ?_, ?_⟩
    · intro a ha b hb
      rw [List.mem_singleton.mp ha]
      exact hleft'.1 b hb
    · intro a ha b hb
      rw [List.mem_singleton.mp ha]
      rcases List.mem_cons.mp hb with hb | hb
      · rw [hb]
        exact hxz
      · exact ho.trans x z b hx hz (hr b hb) hxz (hright'.1 b hb)
    · intro w hw
      exact hlast w (by rw [List.getLast?_cons_cons]; exact hw)

theorem keeps_leapLeft {less : β → β → Bool} {p : β → Prop} (ho : OrdersOn less p) (halving : Halving)
    (gait : Nat → Gait) {left : List β} {z : β} {right : List β} (hp : ∀ w ∈ left ++ z :: right, p w)
    (hlen : 2 ≤ left.length) (hleft : Rising less left) (hright : Rising less (z :: right))
    (hlast : ∀ w ∈ left.getLast?, ∀ v ∈ z :: right, less w v = false) :
    (leapLeft less halving gait left z right).Keeps less := by
  have hz : p z := hp z (by simp)
  have hl : ∀ w ∈ left, p w := fun w hw => hp w (by simp [hw])
  have hr : ∀ w ∈ right, p w := fun w hw => hp w (by simp [hw])
  have hlead := leads_countLeading halving _ _ (holdsFirst_notGreater ho hz hl hleft)
  have hright' := rising_cons.mp hright
  unfold leapLeft
  dsimp only
  generalize countLeading halving (fun y => !less z y) left = width at hlead
  obtain ⟨htake, hdrop, htd⟩ := rising_take_drop hleft width
  have htz : ∀ a ∈ left.take width, less z a = false := fun a ha => by simpa using hlead.1 a ha
  have hzd : ∀ a ∈ left.drop width, less a z = false := fun a ha =>
    ho.asymm z a hz (hl a (List.mem_of_mem_drop ha)) (by simpa using hlead.2 a ha)
  have htr : ∀ a ∈ left.take width, ∀ b ∈ z :: right, less b a = false := by
    intro a ha b hb
    rcases List.mem_cons.mp hb with hb | hb
    · rw [hb]
      exact htz a ha
    · exact ho.trans a z b (hl a (List.mem_of_mem_take ha)) hz (hr b hb) (htz a ha) (hright'.1 b hb)
  have hlast' : ∀ w ∈ (left.drop width).getLast?, ∀ v ∈ z :: right, less w v = false := by
    intro w hw
    rw [List.getLast?_drop] at hw
    split at hw
    · simp at hw
    · exact hlast w hw
  split
  · next hshort =>
    refine ⟨?_, htake, hdrop, hright, htd, htr, hlast'⟩
    intro hnil
    have := congrArg List.length hnil
    simp only [List.length_take, List.length_drop, List.length_nil] at this hshort
    omega
  · refine ⟨by simp, ?_, hdrop, hright'.2, ?_, ?_, fun w hw v hv => hlast' w hw v (by simp [hv])⟩
    · refine rising_append.mpr ⟨htake, by simp [Rising], fun a ha b hb => ?_⟩
      rw [List.mem_singleton.mp hb]
      exact htz a ha
    · intro a ha b hb
      rcases List.mem_append.mp ha with ha | ha
      · exact htd a ha b hb
      · rw [List.mem_singleton.mp ha]
        exact hzd b hb
    · intro a ha b hb
      rcases List.mem_append.mp ha with ha | ha
      · exact htr a ha b (by simp [hb])
      · rw [List.mem_singleton.mp ha]
        exact hright'.1 b hb

theorem keeps_leapRight {less : β → β → Bool} {p : β → Prop} (ho : OrdersOn less p) (halving : Halving)
    (gait : Nat → Gait) {x y : β} {left right : List β} (hp : ∀ w ∈ (x :: y :: left) ++ right, p w)
    (hne : right ≠ []) (hleft : Rising less (x :: y :: left)) (hright : Rising less right)
    (hlast : ∀ w ∈ (x :: y :: left).getLast?, ∀ v ∈ right, less w v = false) :
    (leapRight less halving gait x (y :: left) right).Keeps less := by
  have hx : p x := hp x (by simp)
  have hl : ∀ w ∈ y :: left, p w := fun w hw =>
    hp w (List.mem_append_left _ (List.mem_cons_of_mem _ hw))
  have hr : ∀ w ∈ right, p w := fun w hw => hp w (by simp [hw])
  have hlead := leads_countLeading halving _ _ (holdsFirst_less ho hx hr hright)
  have hleft' := rising_cons.mp hleft
  unfold leapRight
  dsimp only
  generalize countLeading halving (fun y => less y x) right = width at hlead
  obtain ⟨htake, hdrop, htd⟩ := rising_take_drop hright width
  have htx : ∀ a ∈ right.take width, less x a = false := fun a ha =>
    ho.asymm a x (hr a (List.mem_of_mem_take ha)) hx (hlead.1 a ha)
  have htl : ∀ a ∈ right.take width, ∀ b ∈ x :: y :: left, less b a = false := by
    intro a ha b hb
    rcases List.mem_cons.mp hb with hb | hb
    · rw [hb]
      exact htx a ha
    · exact ho.trans a x b (hr a (List.mem_of_mem_take ha)) hx (hl b hb) (htx a ha) (hleft'.1 b hb)
  split
  · next hrest =>
    refine ⟨?_, htake, hleft, List.Pairwise.nil, htl, by simp, by simp⟩
    intro hnil
    have := List.take_append_drop width right
    change right.take width = [] at hnil
    rw [hnil, List.isEmpty_iff.mp hrest] at this
    exact hne this.symm
  · refine ⟨by simp, ?_, hleft'.2, hdrop, ?_, ?_, ?_⟩
    · refine rising_append.mpr ⟨htake, by simp [Rising], fun a ha b hb => ?_⟩
      rw [List.mem_singleton.mp hb]
      exact htx a ha
    · intro a ha b hb
      rcases List.mem_append.mp ha with ha | ha
      · exact htl a ha b (List.mem_cons_of_mem _ hb)
      · rw [List.mem_singleton.mp ha]
        exact hleft'.1 b hb
    · intro a ha b hb
      rcases List.mem_append.mp ha with ha | ha
      · exact htd a ha b hb
      · rw [List.mem_singleton.mp ha]
        exact hlead.2 b hb
    · intro w hw v hv
      exact hlast w (by rw [List.getLast?_cons_cons]; exact hw) v (List.mem_of_mem_drop hv)

theorem keeps_move {less : β → β → Bool} {p : β → Prop} (ho : OrdersOn less p) (side : Side) (gait : Gait)
    {x y z : β} {left right : List β} (hp : ∀ w ∈ (x :: y :: left) ++ z :: right, p w)
    (hleft : Rising less (x :: y :: left)) (hright : Rising less (z :: right))
    (hlast : ∀ w ∈ (x :: y :: left).getLast?, ∀ v ∈ z :: right, less w v = false) :
    (gait.move less side x (y :: left) z right).Keeps less := by
  have hlen : 2 ≤ (x :: y :: left).length := by simp
  unfold Gait.move leapMove
  split
  · exact keeps_stepMove ho _ _ _ hp hleft hright hlast
  · split
    · exact keeps_leapLeft ho _ _ hp hlen hleft hright hlast
    · exact keeps_leapRight ho _ _ hp (by simp) hleft hright hlast
  · split
    · exact keeps_leapLeft ho _ _ hp hlen hleft hright hlast
    · exact keeps_leapRight ho _ _ hp (by simp) hleft hright hlast

theorem rising_mergeMoves {less : β → β → Bool} {p : β → Prop} (ho : OrdersOn less p) (side : Side) (moves : Nat)
    (gait : Gait) (patience : Nat) (left right : List β) (hmoves : left.length + right.length ≤ moves)
    (hp : ∀ w ∈ left ++ right, p w) (hleft : Rising less left) (hright : Rising less right)
    (hlast : ∀ w ∈ left.getLast?, ∀ v ∈ right, less w v = false) :
    Rising less (mergeMoves less side moves gait patience left right).1 := by
  fun_induction mergeMoves less side moves gait patience left right with
  | case1 _ moves gait x y left z right m merged patience h ih =>
    rw [h] at ih
    have hk : m.Keeps less := keeps_move ho side gait hp hleft hright hlast
    have hperm : (m.taken ++ (m.left ++ m.right)).Perm (x :: y :: left ++ z :: right) :=
      Gait.move_perm less side gait x (y :: left) z right rfl
    have hlen := hperm.length_eq
    have htaken := List.length_pos_iff.mpr hk.taken_ne
    have hmem : ∀ w ∈ m.left ++ m.right, p w := fun w hw =>
      hp w (hperm.mem_iff.mp (List.mem_append_right _ hw))
    simp only [List.length_append, List.length_cons] at hlen hmoves
    have ih := ih (by omega) hmem hk.left hk.right hk.last
    have hmerged := mergeMoves_perm less side moves m.gait gait.patience m.left m.right
    rw [h] at hmerged
    refine rising_append.mpr ⟨hk.taken, ih, fun a ha b hb => ?_⟩
    rcases List.mem_append.mp (hmerged.mem_iff.mp hb) with hb | hb
    · exact hk.taken_left a ha b hb
    · exact hk.taken_right a ha b hb
  | case2 _ _ _ x right =>
    refine rising_append.mpr ⟨hright, by simp [Rising], fun a ha b hb => ?_⟩
    rw [List.mem_singleton.mp hb]
    exact hlast x (by simp) a ha
  | case3 moves _ _ left right hone hmore =>
    cases left with
    | nil => exact hright
    | cons x left =>
      cases left with
      | nil => exact (hone x rfl).elim
      | cons y left =>
        cases right with
        | nil =>
          rw [List.append_nil]
          exact hleft
        | cons z right =>
          cases moves with
          | zero => simp at hmoves
          | succ moves => exact (hmore moves x y left z right rfl rfl rfl).elim

theorem rising_mergeFrom {less : β → β → Bool} {p : β → Prop} (ho : OrdersOn less p) (side : Side)
    (patience : Nat) {left right : List β} (hp : ∀ w ∈ left ++ right, p w) (hleft : Rising less left)
    (hright : Rising less right) (hfirst : ∀ v ∈ right.head?, ∀ w ∈ left, less w v = false)
    (hlast : ∀ w ∈ left.getLast?, ∀ v ∈ right, less w v = false) :
    Rising less (mergeFrom less side patience left right).1 := by
  unfold mergeFrom
  split
  · exact hleft
  · next z right =>
    have hright' := rising_cons.mp hright
    refine rising_cons.mpr ⟨fun y hy => ?_, ?_⟩
    · rcases List.mem_append.mp ((mergeMoves_perm less side _ _ _ _ _).mem_iff.mp hy) with hy | hy
      · exact hfirst z (by simp) y hy
      · exact hright'.1 y hy
    · refine rising_mergeMoves ho side _ _ _ left right (Nat.le_refl _) (fun w hw => hp w ?_) hleft hright'.2
        (fun w hw v hv => hlast w hw v (List.mem_cons_of_mem _ hv))
      rcases List.mem_append.mp hw with hw | hw
      · exact List.mem_append_left _ hw
      · exact List.mem_append_right _ (List.mem_cons_of_mem _ hw)

theorem rising_mergeFromEnd {less : β → β → Bool} {p : β → Prop} (ho : OrdersOn less p) (patience : Nat)
    {left right : List β} (hp : ∀ w ∈ left ++ right, p w) (hleft : Rising less left)
    (hright : Rising less right) (hfirst : ∀ v ∈ right.head?, ∀ w ∈ left, less w v = false)
    (hlast : ∀ w ∈ left.getLast?, ∀ v ∈ right, less w v = false) :
    Rising less (mergeFromEnd less patience left right).1 := by
  unfold mergeFromEnd
  split
  · exact rising_mergeFrom ho .front patience hp hleft hright hfirst hlast
  · refine rising_reverse.mp ?_
    rw [List.reverse_reverse]
    refine rising_mergeFrom ho.turned .back patience (fun w hw => hp w ?_) (rising_reverse.mpr hright)
      (rising_reverse.mpr hleft) ?_ ?_
    · simpa [or_comm] using hw
    · intro v hv w hw
      rw [List.head?_reverse] at hv
      exact hlast v hv w (List.mem_reverse.mp hw)
    · intro w hw v hv
      rw [List.getLast?_reverse] at hw
      exact hfirst w hw v (List.mem_reverse.mp hv)

/-- The elements in place are not greater than any of the other list, and those behind them are greater than its
first one. -/
theorem leads_countInPlace {less : β → β → Bool} {p : β → Prop} (ho : OrdersOn less p) (h : Halving)
    {xs ys : List β} (hp : ∀ w ∈ xs ++ ys, p w) (hxs : Rising less xs) (hys : Rising less ys) :
    (∀ x ∈ xs.take (countInPlace less h xs ys), ∀ y ∈ ys, less y x = false) ∧
      ∀ y ∈ ys.head?, ∀ x ∈ xs.drop (countInPlace less h xs ys), less x y = false := by
  have hpx : ∀ w ∈ xs, p w := fun w hw => hp w (List.mem_append_left _ hw)
  have hpy : ∀ w ∈ ys, p w := fun w hw => hp w (List.mem_append_right _ hw)
  unfold countInPlace
  cases ys with
  | nil => simp
  | cons y ys =>
    have hy : p y := hpy y (List.mem_cons_self ..)
    have hlead := leads_countLeading h _ _ (holdsFirst_notGreater ho hy hpx hxs)
    have hys' := rising_cons.mp hys
    simp only [List.head?_cons, Option.all_some]
    refine ⟨fun x hx z hz => ?_, fun z hz x hx => ?_⟩
    · have hyx : less y x = false := by simpa using hlead.1 x hx
      rcases List.mem_cons.mp hz with hz | hz
      · rw [hz]
        exact hyx
      · exact ho.trans x y z (hpx x (List.mem_of_mem_take hx)) hy (hpy z (List.mem_cons_of_mem _ hz)) hyx
          (hys'.1 z hz)
    · rw [← Option.some.inj hz]
      exact ho.asymm y x hy (hpx x (List.mem_of_mem_drop hx)) (by simpa using hlead.2 x hx)

theorem rising_merge {less : β → β → Bool} {p : β → Prop} (ho : OrdersOn less p) (patience : Nat)
    {left right : List β} (hp : ∀ w ∈ left ++ right, p w) (hleft : Rising less left)
    (hright : Rising less right) : Rising less (merge less patience left right).1 := by
  have hbefore := leads_countInPlace ho .late hp hleft hright
  unfold merge
  dsimp only
  generalize countInPlace less .late left right = before at hbefore
  obtain ⟨hb, hrest, hbr⟩ := rising_take_drop hleft before
  have hp' : ∀ w ∈ left.drop before ++ right, p w := by
    intro w hw
    rcases List.mem_append.mp hw with hw | hw
    · exact hp w (List.mem_append_left _ (List.mem_of_mem_drop hw))
    · exact hp w (List.mem_append_right _ hw)
  have hbehind := leads_countInPlace ho.turned .early (fun w hw => hp' w (by simpa [or_comm] using hw))
    (rising_reverse.mpr hright) (rising_reverse.mpr hrest)
  generalize countInPlace (fun a b => less b a) .early right.reverse (left.drop before).reverse = behind
    at hbehind
  have hsplit := reverse_drop_append_reverse_take behind right
  generalize hrear : (right.reverse.drop behind).reverse = rear at hsplit
  generalize hend : (right.reverse.take behind).reverse = tail at hsplit
  obtain ⟨hrise, htail, hrt⟩ := rising_append.mp (hsplit ▸ hright)
  have hrearMem : ∀ w ∈ rear, w ∈ right := fun w hw => hsplit ▸ List.mem_append_left _ hw
  have htailMem : ∀ w ∈ tail, w ∈ right := fun w hw => hsplit ▸ List.mem_append_right _ hw
  have hmerged := mergeFromEnd_perm less patience (left.drop before) rear
  refine rising_append.mpr ⟨hb, rising_append.mpr ⟨?_, htail, fun x hx y hy => ?_⟩, fun x hx y hy => ?_⟩
  · refine rising_mergeFromEnd ho patience (fun w hw => hp' w ?_) hrest hrise ?_ ?_
    · rcases List.mem_append.mp hw with hw | hw
      · exact List.mem_append_left _ hw
      · exact List.mem_append_right _ (hrearMem w hw)
    · intro v hv
      refine hbefore.2 v ?_
      rw [← hsplit, List.head?_append, hv]
      rfl
    · intro w hw v hv
      refine hbehind.2 w (by rw [List.head?_reverse]; exact hw) v ?_
      rw [← List.mem_reverse, hrear]
      exact hv
  · rcases List.mem_append.mp (hmerged.mem_iff.mp hx) with hx | hx
    · refine hbehind.1 y ?_ x (List.mem_reverse.mpr hx)
      rw [← List.mem_reverse, hend]
      exact hy
    · exact hrt x hx y hy
  · rcases List.mem_append.mp hy with hy | hy
    · rcases List.mem_append.mp (hmerged.mem_iff.mp hy) with hy | hy
      · exact hbr x hx y hy
      · exact hbefore.1 x hx y (hrearMem y hy)
    · exact hbefore.1 x hx y (htailMem y hy)

/-! ### Sorting -/

theorem rising_settle {less : β → β → Bool} {p : β → Prop} (ho : OrdersOn less p) (depth : Nat)
    (latest : Waiting β) (patience : Nat) (runs : List (Waiting β))
    (hp : ∀ x ∈ latest.run ++ elements runs, p x) (hlatest : Rising less latest.run)
    (hruns : ∀ w ∈ runs, Rising less w.run) :
    ∀ w ∈ (settle less depth latest patience runs).runs, Rising less w.run := by
  induction runs generalizing latest patience with
  | nil =>
    intro w hw
    rw [List.mem_singleton.mp hw]
    exact hlatest
  | cons v runs ih =>
    have hv := hruns v (List.mem_cons_self ..)
    have hruns' : ∀ w ∈ runs, Rising less w.run := fun w hw => hruns w (List.mem_cons_of_mem _ hw)
    have hp' : ∀ x ∈ v.run ++ latest.run, p x := by
      intro x hx
      refine hp x ?_
      simp only [elements, List.flatMap_cons, List.mem_append] at hx ⊢
      rcases hx with hx | hx
      · exact .inr (.inl hx)
      · exact .inl hx
    unfold settle
    split
    · refine ih _ _ (fun x hx => ?_) (rising_merge ho patience hp' hv hlatest) hruns'
      rcases List.mem_append.mp hx with hx | hx
      · exact hp' x ((merge_perm less patience v.run latest.run).mem_iff.mp hx)
      · exact hp x (by simp only [elements, List.flatMap_cons, List.mem_append] at hx ⊢; exact .inr (.inr hx))
    · intro w hw
      rcases List.mem_cons.mp hw with hw | hw
      · rw [hw]
        exact hlatest
      · exact hruns w hw

theorem rising_push {less : β → β → Bool} {p : β → Prop} (ho : OrdersOn less p) (total : Nat) (s : Stack β)
    (start : Nat) (run : List β) (hp : ∀ x ∈ elements s.runs, p x) (hs : ∀ w ∈ s.runs, Rising less w.run)
    (hrun : Rising less run) : ∀ w ∈ (s.push less total start run).runs, Rising less w.run := by
  unfold Stack.push
  split
  · intro w hw
    rw [List.mem_singleton.mp hw]
    exact hrun
  · next latest runs h =>
    rw [h] at hp hs
    intro w hw
    rcases List.mem_cons.mp hw with hw | hw
    · rw [hw]
      exact hrun
    · exact rising_settle ho _ latest s.patience runs hp (hs latest (List.mem_cons_self ..))
        (fun w hw => hs w (List.mem_cons_of_mem _ hw)) w hw

theorem firstRun_ne_nil (less : β → β → Bool) {xs : List β} (hxs : xs ≠ []) : (firstRun less xs).1 ≠ [] := by
  fun_cases firstRun less xs with
  | case1 => simp
  | case2 => simp
  | case3 => exact hxs

theorem length_extendedRun_snd_lt (less : β → β → Bool) (least : Nat) {xs : List β} (hxs : xs ≠ []) :
    (extendedRun less least xs).2.length < xs.length := by
  have hlen := (firstRun_perm less xs).length_eq
  have hpos := List.length_pos_iff.mpr (firstRun_ne_nil less hxs)
  unfold extendedRun
  simp only [List.length_append, List.length_drop] at hlen ⊢
  omega

theorem rising_pushRuns {less : β → β → Bool} {p : β → Prop} (ho : OrdersOn less p) (total least runs : Nat)
    (s : Stack β) (start : Nat) (xs : List β) (hp : ∀ x ∈ xs ++ elements s.runs, p x)
    (hs : ∀ w ∈ s.runs, Rising less w.run) (hleast : xs.length ≤ runs) :
    ∀ w ∈ (pushRuns less total least runs s start xs).runs, Rising less w.run := by
  induction runs generalizing s start xs with
  | zero =>
    have hnil : xs = [] := List.eq_nil_of_length_eq_zero (by omega)
    subst hnil
    exact hs
  | succ runs ih =>
    unfold pushRuns
    split
    · exact hs
    · next hxs =>
      have hne : xs ≠ [] := fun h => hxs (List.isEmpty_iff.mpr h)
      have hpx : ∀ x ∈ xs, p x := fun x hx => hp x (List.mem_append_left _ hx)
      have hps : ∀ x ∈ elements s.runs, p x := fun x hx => hp x (List.mem_append_right _ hx)
      have hrun := rising_extendedRun ho least hpx
      have hlen := length_extendedRun_snd_lt less least hne
      have hmem := fun x hx => hpx x ((extendedRun_perm less least xs).mem_iff.mp hx)
      refine ih _ _ _ (fun x hx => ?_) (rising_push ho total s start _ hps hs hrun)
        (Nat.le_of_lt_succ (Nat.lt_of_lt_of_le hlen hleast))
      rcases List.mem_append.mp hx with hx | hx
      · exact hmem x (List.mem_append_right _ hx)
      · rcases List.mem_append.mp ((push_perm less total s start _).mem_iff.mp hx) with hx | hx
        · exact hmem x (List.mem_append_left _ hx)
        · exact hps x hx

theorem rising_mergeAll {less : β → β → Bool} {p : β → Prop} (ho : OrdersOn less p) (merges patience : Nat)
    (latest : List β) (runs : List (List β)) (hpl : ∀ x ∈ latest, p x) (hpr : ∀ r ∈ runs, ∀ x ∈ r, p x)
    (hlatest : Rising less latest) (hruns : ∀ r ∈ runs, Rising less r) (hmerges : runs.length ≤ merges) :
    Rising less (mergeAll less merges patience latest runs) := by
  have hmerge : ∀ {patience : Nat} {left right : List β}, (∀ x ∈ left, p x) → (∀ x ∈ right, p x) →
      Rising less left → Rising less right → (∀ x ∈ (merge less patience left right).1, p x) ∧
        Rising less (merge less patience left right).1 := by
    intro patience left right hpl hpr hl hr
    have hp : ∀ x ∈ left ++ right, p x := fun x hx => (List.mem_append.mp hx).elim (hpl x) (hpr x)
    exact ⟨fun x hx => hp x ((merge_perm less patience left right).mem_iff.mp hx), rising_merge ho patience hp hl hr⟩
  fun_induction mergeAll less merges patience latest runs with
  | case1 merges patience latest second third runs _ run patience' h ih =>
    have hm := @hmerge patience third second (hpr third (by simp)) (hpr second (by simp)) (hruns third (by simp))
      (hruns second (by simp))
    rw [h] at hm
    refine ih hpl (fun r hr => ?_) hlatest (fun r hr => ?_) (by simpa using hmerges)
    · rcases List.mem_cons.mp hr with hr | hr
      · rw [hr]
        exact hm.1
      · exact hpr r (by simp [hr])
    · rcases List.mem_cons.mp hr with hr | hr
      · rw [hr]
        exact hm.2
      · exact hruns r (by simp [hr])
  | case2 merges patience latest second third runs _ run patience' h ih =>
    have hm := @hmerge patience second latest (hpr second (by simp)) hpl (hruns second (by simp)) hlatest
    rw [h] at hm
    exact ih hm.1 (fun r hr => hpr r (List.mem_cons_of_mem _ hr)) hm.2
      (fun r hr => hruns r (List.mem_cons_of_mem _ hr)) (by simpa using hmerges)
  | case3 merges patience latest second =>
    exact (hmerge (hpr second (by simp)) hpl (hruns second (by simp)) hlatest).2
  | case4 merges _ latest runs hone hmore =>
    cases runs with
    | nil => exact hlatest
    | cons second runs =>
      cases merges with
      | zero => simp at hmerges
      | succ merges =>
        cases runs with
        | nil => exact (hmore _ second rfl rfl).elim
        | cons third runs => exact (hone _ second third runs rfl rfl).elim

/-- Sorting by an order puts no element before one that is less. -/
theorem rising_sort {less : β → β → Bool} {p : β → Prop} (ho : OrdersOn less p) {xs : List β}
    (hp : ∀ x ∈ xs, p x) : Rising less (sort less xs) := by
  have hperm := pushRuns_perm less xs.length (leastRunLength xs.length) xs.length ⟨[], wideLeap⟩ 0 xs
  have hrise := rising_pushRuns ho xs.length (leastRunLength xs.length) xs.length ⟨[], wideLeap⟩ 0 xs
    (by simpa [elements] using hp) (by simp) (Nat.le_refl _)
  have hmem : ∀ x ∈ elements (pushRuns less xs.length (leastRunLength xs.length) xs.length
      ⟨[], wideLeap⟩ 0 xs).runs, p x := fun x hx => hp x (by simpa [elements] using hperm.mem_iff.mp hx)
  unfold sort
  dsimp only
  split
  · exact List.Pairwise.nil
  · next latest runs hs =>
    rw [hs] at hrise hmem
    have hpw : ∀ w ∈ latest :: runs, ∀ x ∈ w.run, p x := fun w hw x hx =>
      hmem x (List.mem_flatMap.mpr ⟨w, hw, hx⟩)
    refine rising_mergeAll ho _ _ _ _ (hpw latest (List.mem_cons_self ..)) (fun r hr => ?_)
      (hrise latest (List.mem_cons_self ..)) (fun r hr => ?_) (by simp)
    · obtain ⟨w, hw, rfl⟩ := List.mem_map.mp hr
      exact hpw w (List.mem_cons_of_mem _ hw)
    · obtain ⟨w, hw, rfl⟩ := List.mem_map.mp hr
      exact hrise w (List.mem_cons_of_mem _ hw)

end Flowchart.Sorting
