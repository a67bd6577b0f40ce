import Flowchart.Proofs.Hook.Editing
import Flowchart.Proofs.Numeric.Rational

/-!
# Hooks spread along a side

The hooks of a side are spread through a table that gives each id a slot. Where ids are distinct, this puts the hooks of
the side at its slots one after the other, as they come in the list (`spread`, `redistributeHooks_of_nodup`). What
follows is shown of that: in exact numbers the offsets rise evenly from 0.15 to 0.85, spreading again changes nothing,
and two directions may be spread in any order (`redistributing_spreads`).
-/

namespace Flowchart

variable {α : Type} [Scalar α]

/-- The hooks with those of a direction at the slots of a side that has room for `total` of them, the first one at slot
`next`. -/
def spread (d : Term Direction) (total : Nat) : (next : Nat) → List (Hook α) → List (Hook α)
  | _, [] => []
  | next, h :: hooks =>
    if h.isOn d then { h with offset := slotOffset total next } :: spread d total (next + 1) hooks
    else h :: spread d total next hooks

section Spread

variable {d e : Term Direction} {total total' next next' : Nat} {h : Hook α} {hooks : List (Hook α)}

theorem spread_cons_of_isOn (hon : h.isOn d = true) :
    spread d total next (h :: hooks) =
      { h with offset := slotOffset total next } :: spread d total (next + 1) hooks :=
  if_pos hon

theorem spread_cons_of_not_isOn (hon : h.isOn d = false) :
    spread d total next (h :: hooks) = h :: spread d total next hooks :=
  if_neg (by simp [hon])

omit [Scalar α] in
/-- A hook is on one direction. -/
theorem isOn_unique (hd : h.isOn d = true) (he : h.isOn e = true) : d = e :=
  (of_decide_eq_true hd).symm.trans (of_decide_eq_true he)

/-- Where hooks were spread before makes no difference. -/
theorem spread_spread : spread d total' next' (spread d total next hooks) = spread d total' next' hooks := by
  induction hooks generalizing next next' with
  | nil => rfl
  | cons h hooks ih =>
    cases hon : h.isOn d with
    | true =>
      rw [spread_cons_of_isOn hon, spread_cons_of_isOn, spread_cons_of_isOn hon, ih]
      exact hon
    | false => rw [spread_cons_of_not_isOn hon, spread_cons_of_not_isOn hon, spread_cons_of_not_isOn hon, ih]

theorem spread_append {more : List (Hook α)} :
    spread d total next (hooks ++ more) =
      spread d total next hooks ++ spread d total (next + hooks.countP (·.isOn d)) more := by
  induction hooks generalizing next with
  | nil => rfl
  | cons h hooks ih =>
    rw [List.cons_append, List.countP_cons]
    cases hon : h.isOn d with
    | true =>
      have hnext : next + (hooks.countP (·.isOn d) + 1) = next + 1 + hooks.countP (·.isOn d) := by omega
      rw [spread_cons_of_isOn hon, spread_cons_of_isOn hon, ih, if_pos rfl, hnext, List.cons_append]
    | false =>
      rw [spread_cons_of_not_isOn hon, spread_cons_of_not_isOn hon, ih, if_neg Bool.false_ne_true, Nat.add_zero,
        List.cons_append]

/-- What does not depend on the offset of a hook stays. -/
theorem map_spread {β : Type} {f : Hook α → β} (hf : ∀ h offset, f { h with offset := offset } = f h) :
    (spread d total next hooks).map f = hooks.map f := by
  induction hooks generalizing next with
  | nil => rfl
  | cons h hooks ih =>
    cases hon : h.isOn d with
    | true => rw [spread_cons_of_isOn hon, List.map_cons, List.map_cons, hf, ih]
    | false => rw [spread_cons_of_not_isOn hon, List.map_cons, List.map_cons, ih]

theorem countP_spread : (spread d total next hooks).countP (·.isOn e) = hooks.countP (·.isOn e) := by
  have hdirections : ∀ hooks : List (Hook α),
      hooks.countP (·.isOn e) = (hooks.map (·.direction)).countP fun k => decide (.known k = e) := by
    intro hooks
    rw [List.countP_map]
    rfl
  rw [hdirections, hdirections, map_spread fun _ _ => rfl]

theorem spread_comm (hde : d ≠ e) :
    spread e total' next' (spread d total next hooks) = spread d total next (spread e total' next' hooks) := by
  induction hooks generalizing next next' with
  | nil => rfl
  | cons h hooks ih =>
    cases hd : h.isOn d with
    | true =>
      have he : h.isOn e = false := by
        cases he : h.isOn e with
        | true => exact absurd (isOn_unique hd he) hde
        | false => rfl
      rw [spread_cons_of_isOn hd, spread_cons_of_not_isOn he, spread_cons_of_isOn hd, spread_cons_of_not_isOn, ih]
      exact he
    | false =>
      cases he : h.isOn e with
      | true =>
        rw [spread_cons_of_not_isOn hd, spread_cons_of_isOn he, spread_cons_of_isOn he, spread_cons_of_not_isOn, ih]
        exact hd
      | false =>
        rw [spread_cons_of_not_isOn hd, spread_cons_of_not_isOn he, spread_cons_of_not_isOn he,
          spread_cons_of_not_isOn hd, ih]

/-- The offsets of the hooks of the direction are those of the slots, in their order. -/
theorem map_offset_spread :
    ((spread d total next hooks).filter (·.isOn d)).map (·.offset) =
      (List.range' next (hooks.countP (·.isOn d))).map (slotOffset total) := by
  induction hooks generalizing next with
  | nil => rfl
  | cons h hooks ih =>
    cases hon : h.isOn d with
    | true =>
      rw [spread_cons_of_isOn hon, List.filter_cons_of_pos, List.map_cons, ih, List.countP_cons, if_pos hon,
        List.range'_succ, List.map_cons]
      exact hon
    | false =>
      have hoff : ¬h.isOn d = true := by simp [hon]
      rw [spread_cons_of_not_isOn hon, List.filter_cons, if_neg hoff, ih, List.countP_cons, if_neg hoff, Nat.add_zero]

/-- The hooks of another direction stay. -/
theorem filter_spread (hde : d ≠ e) :
    (spread d total next hooks).filter (·.isOn e) = hooks.filter (·.isOn e) := by
  induction hooks generalizing next with
  | nil => rfl
  | cons h hooks ih =>
    cases hon : h.isOn d with
    | true =>
      have hoff : ¬h.isOn e = true := fun he => hde (isOn_unique hon he)
      rw [spread_cons_of_isOn hon, List.filter_cons, List.filter_cons, if_neg hoff, ← ih]
      exact if_neg hoff
    | false => rw [spread_cons_of_not_isOn hon, List.filter_cons, List.filter_cons, ih]

/-- Whether a hook is another one with at most its offset changed, and that only if it is on a direction. -/
structure Hook.OffsetOnly (d : Term Direction) (h h' : Hook α) : Prop where
  id : h'.id = h.id
  direction : h'.direction = h.direction
  visible : h'.visible = h.visible
  eq_of_not_isOn : h.isOn d = false → h' = h

theorem offsetOnly_spread : List.Forall₂ (Hook.OffsetOnly d) hooks (spread d total next hooks) := by
  induction hooks generalizing next with
  | nil => exact .nil
  | cons h hooks ih =>
    cases hon : h.isOn d with
    | true =>
      rw [spread_cons_of_isOn hon]
      refine .cons ⟨rfl, rfl, rfl, fun hoff => ?_⟩ ih
      rw [hon] at hoff
      cases hoff
    | false =>
      rw [spread_cons_of_not_isOn hon]
      exact .cons ⟨rfl, rfl, rfl, fun _ => rfl⟩ ih

end Spread

namespace Node

variable {n : Node α}

omit [Scalar α] in
/-- Where ids are distinct, the other hooks have other ids. -/
theorem id_ne_of_nodup (hids : (n.hooks.map (·.id)).Nodup) {before after : List (Hook α)} {h : Hook α}
    (hhooks : n.hooks = before ++ h :: after) : ∀ g, g ∈ before ∨ g ∈ after → g.id ≠ h.id := by
  rw [hhooks, List.map_append, List.map_cons, List.nodup_middle, List.nodup_cons] at hids
  intro g hg hid
  refine hids.1 (hid ▸ List.mem_append.2 ?_)
  exact hg.imp List.mem_map_of_mem List.mem_map_of_mem

/-- Where ids are distinct, a hook of the direction gets the slot behind those of the hooks before it. -/
theorem assignedOffset?_of_nodup (hids : (n.hooks.map (·.id)).Nodup) (d : Term Direction) {before after : List (Hook α)}
    {h : Hook α} (hhooks : n.hooks = before ++ h :: after) :
    n.assignedOffset? d h.id =
      if h.isOn d then some (slotOffset (n.hookCount d) (before.countP (·.isOn d))) else none := by
  have hother := id_ne_of_nodup hids hhooks
  split
  · next hon =>
    refine assignedOffset?_eq_some.2
      ⟨_, ⟨before.filter (·.isOn d), h, after.filter (·.isOn d), ?_, rfl, fun g hg => ?_, rfl⟩, ?_⟩
    · rw [hhooks, List.filter_append, List.filter_cons, if_pos hon]
    · exact hother g (.inr (List.mem_of_mem_filter hg))
    · rw [List.countP_eq_length_filter]
  · next hoff =>
    refine assignedOffset?_eq_none fun g hg hon => ?_
    rw [hhooks, List.mem_append, List.mem_cons] at hg
    rcases hg with hg | rfl | hg
    · exact hother g (.inl hg)
    · exact absurd hon hoff
    · exact hother g (.inr hg)

/-- Spreading keeps the ids. -/
theorem map_id_redistributeHooks (n : Node α) (d : Term Direction) :
    (n.redistributeHooks d).hooks.map (·.id) = n.hooks.map (·.id) := by
  rw [redistributeHooks_eq_map]
  exact List.map_map

/-- Spreading moves no hook to another direction. -/
theorem hookCount_redistributeHooks (n : Node α) (d e : Term Direction) :
    (n.redistributeHooks d).hookCount e = n.hookCount e := by
  rw [redistributeHooks_eq_map]
  exact List.countP_map

theorem redistributeHooks_of_nodup (hids : (n.hooks.map (·.id)).Nodup) (d : Term Direction) :
    n.redistributeHooks d = n.withHooks (spread d (n.hookCount d) 0 n.hooks) := by
  have hmap : ∀ before hooks, n.hooks = before ++ hooks →
      hooks.map (fun h => { h with offset := (n.assignedOffset? d h.id).getD h.offset }) =
        spread d (n.hookCount d) (before.countP (·.isOn d)) hooks := by
    intro before hooks hhooks
    induction hooks generalizing before with
    | nil => rfl
    | cons h hooks ih =>
      have hrest := ih (before ++ [h]) (by simp [hhooks])
      rw [List.map_cons, hrest, assignedOffset?_of_nodup hids d hhooks, List.countP_append, List.countP_singleton]
      cases hon : h.isOn d with
      | true =>
        rw [spread_cons_of_isOn hon]
        rfl
      | false =>
        rw [spread_cons_of_not_isOn hon]
        rfl
  rw [redistributeHooks_eq_map, hmap [] n.hooks rfl, List.countP_nil]

/-- The offsets of the hooks on a direction, in their order. -/
def offsetsOn (n : Node α) (d : Term Direction) : List α :=
  (n.hooks.filter (·.isOn d)).map (·.offset)

theorem offsetsOn_redistributeHooks (hids : (n.hooks.map (·.id)).Nodup) (d : Term Direction) :
    (n.redistributeHooks d).offsetsOn d = (List.range (n.hookCount d)).map (slotOffset (n.hookCount d)) := by
  rw [redistributeHooks_of_nodup hids, List.range_eq_range']
  exact map_offset_spread

theorem offsetsOn_redistributeHooks_of_ne (hids : (n.hooks.map (·.id)).Nodup) {d e : Term Direction} (hde : d ≠ e) :
    (n.redistributeHooks d).offsetsOn e = n.offsetsOn e := by
  rw [redistributeHooks_of_nodup hids]
  exact congrArg (List.map _) (filter_spread hde)

theorem slotOffset_eq {total : Nat} (htotal : 2 ≤ total) (index : Nat) :
    (slotOffset total index : Rat) = 0.15 + 0.7 * index / (total - 1) := by
  have hlast : ((total - 1 : Nat) : Rat) = total - 1 := by
    rw [Nat.cast_sub (by omega), Nat.cast_one]
  rw [slotOffset, if_neg (by omega)]
  show (0.15 + (0.85 - 0.15) * (index : Rat) / ((total - 1 : Nat) : Rat) : Rat) = _
  rw [hlast]
  norm_num

theorem slotOffset_one : (slotOffset 1 0 : Rat) = 0.5 := rfl

theorem slotOffset_first {total : Nat} (htotal : 2 ≤ total) : (slotOffset total 0 : Rat) = 0.15 := by
  rw [slotOffset_eq htotal]
  simp

theorem slotOffset_last {total : Nat} (htotal : 2 ≤ total) : (slotOffset total (total - 1) : Rat) = 0.85 := by
  have hpos : ((total : Rat) - 1) ≠ 0 := by
    have : (2 : Rat) ≤ total := by exact_mod_cast htotal
    linarith
  rw [slotOffset_eq htotal, Nat.cast_sub (by omega), Nat.cast_one, mul_div_assoc, div_self hpos]
  norm_num

/-- From each slot to the next one it is as far. -/
theorem slotOffset_succ {total : Nat} (htotal : 2 ≤ total) (index : Nat) :
    (slotOffset total (index + 1) : Rat) = slotOffset total index + 0.7 / (total - 1) := by
  rw [slotOffset_eq htotal, slotOffset_eq htotal]
  push_cast
  ring

theorem slotOffset_lt {total i j : Nat} (htotal : 2 ≤ total) (hij : i < j) :
    (slotOffset total i : Rat) < slotOffset total j := by
  have hgap : (0 : Rat) < 0.7 / (total - 1) := by
    have : (2 : Rat) ≤ total := by exact_mod_cast htotal
    exact div_pos (by norm_num) (by linarith)
  induction hij with
  | refl =>
    rw [slotOffset_succ htotal]
    linarith
  | step _ ih =>
    rw [slotOffset_succ htotal]
    linarith

theorem slotOffset_mem_middle {total i : Nat} (hi : i < total) :
    0.15 ≤ (slotOffset total i : Rat) ∧ (slotOffset total i : Rat) ≤ 0.85 := by
  have hle : ∀ j k : Nat, 2 ≤ total → j ≤ k → (slotOffset total j : Rat) ≤ slotOffset total k := by
    intro j k htotal hjk
    rcases Nat.lt_or_eq_of_le hjk with hlt | rfl
    · exact (slotOffset_lt htotal hlt).le
    · exact le_rfl
  rcases Nat.lt_or_ge 1 total with htotal | hone
  · rw [← slotOffset_first htotal, ← slotOffset_last htotal]
    exact ⟨hle 0 i htotal (Nat.zero_le i), hle i _ htotal (by omega)⟩
  · obtain rfl : total = 1 := by omega
    obtain rfl : i = 0 := by omega
    rw [slotOffset_one]
    norm_num

/-! ### The node with spread hooks -/

/-- A list of numbers in which each one is as much larger than the one before as any other. -/
def RisesEvenly (xs : List Rat) : Prop :=
  xs.Pairwise (· < ·) ∧ ∃ gap, ∀ (i : Nat) (x y : Rat), xs[i]? = some x → xs[i + 1]? = some y → y = x + gap

theorem risesEvenly_slots (total : Nat) : RisesEvenly ((List.range total).map (slotOffset total)) := by
  refine ⟨List.pairwise_map.2 (List.pairwise_lt_range.imp_of_mem fun _ hj hlt => ?_), 0.7 / (total - 1), ?_⟩
  · have := List.mem_range.1 hj
    exact slotOffset_lt (by omega) hlt
  · intro i x y hx hy
    obtain ⟨-, rfl⟩ := List.getElem?_eq_some_iff.1 hx
    obtain ⟨hlt, rfl⟩ := List.getElem?_eq_some_iff.1 hy
    rw [List.length_map, List.length_range] at hlt
    simp only [List.getElem_map, List.getElem_range]
    exact slotOffset_succ (by omega) i

/-- Whether a node is another one with the hooks of a direction spread evenly over the middle part of its side. -/
structure SpreadEvenly (d : Term Direction) (n m : Node Rat) : Prop where
  sameNode : n.SameNode m
  rect : m.rect = n.rect
  others : List.Forall₂ (Hook.OffsetOnly d) n.hooks m.hooks
  rises : RisesEvenly (m.offsetsOn d)
  middle : ∀ x ∈ m.offsetsOn d, 0.15 ≤ x ∧ x ≤ 0.85
  ends : 2 ≤ n.hookCount d → (m.offsetsOn d).head? = some 0.15 ∧ (m.offsetsOn d).getLast? = some 0.85
  alone : n.hookCount d = 1 → m.offsetsOn d = [0.5]

theorem spreadEvenly_redistributeHooks {n : Node Rat} (hids : (n.hooks.map (·.id)).Nodup) (d : Term Direction) :
    SpreadEvenly d n (n.redistributeHooks d) := by
  have hoffsets := offsetsOn_redistributeHooks hids d
  refine ⟨⟨rfl, rfl, rfl, rfl⟩, rfl, ?_, ?_, ?_, fun htotal => ?_, fun hone => ?_⟩
  · rw [redistributeHooks_of_nodup hids]
    exact offsetOnly_spread
  · rw [hoffsets]
    exact risesEvenly_slots _
  · rw [hoffsets]
    intro x hx
    obtain ⟨i, hi, rfl⟩ := List.mem_map.1 hx
    exact slotOffset_mem_middle (List.mem_range.1 hi)
  · rw [hoffsets, List.head?_map, List.head?_range, List.getLast?_map, List.getLast?_range, if_neg (by omega),
      if_neg (by omega), Option.map_some, Option.map_some, slotOffset_first htotal, slotOffset_last htotal]
    exact ⟨rfl, rfl⟩
  · rw [hoffsets, hone]
    rfl

/-- Spreading the hooks of a direction, where ids are distinct: their offsets rise evenly from 0.15 to 0.85, a lone hook
sits in the middle, and nothing else changes. So spreading once more changes nothing, and any two directions may be
spread in either order. -/
theorem redistributing_spreads (n : Node Rat) (hids : (n.hooks.map (·.id)).Nodup) :
    (∀ d : Term Direction, SpreadEvenly d n (n.redistributeHooks d)) ∧
    (∀ d : Term Direction, (n.redistributeHooks d).redistributeHooks d = n.redistributeHooks d) ∧
    ∀ d e : Term Direction,
      (n.redistributeHooks d).redistributeHooks e = (n.redistributeHooks e).redistributeHooks d := by
  have hagain : ∀ d, ((n.redistributeHooks d).hooks.map (·.id)).Nodup := by
    intro d
    rwa [map_id_redistributeHooks]
  have htwice : ∀ d e, (n.redistributeHooks d).redistributeHooks e =
      n.withHooks (spread e (n.hookCount e) 0 (spread d (n.hookCount d) 0 n.hooks)) := by
    intro d e
    rw [redistributeHooks_of_nodup (hagain d), hookCount_redistributeHooks, redistributeHooks_of_nodup hids]
    rfl
  refine ⟨fun d => spreadEvenly_redistributeHooks hids d, fun d => ?_, fun d e => ?_⟩
  · rw [htwice, spread_spread, redistributeHooks_of_nodup hids]
  · by_cases hde : d = e
    · rw [hde]
    · rw [htwice, htwice, spread_comm hde]

/-- Three hooks on the top among others, of which one stands where a slot is and one is hidden. -/
theorem redistributing_spreads_interleaved :
    ∃ n : Node Rat, n.hooks = [⟨"c", .top, 0.5, true⟩, ⟨"a", .left, 0.1, true⟩, ⟨"b", .top, 0, false⟩,
          ⟨"d", .top, 0.5, true⟩, ⟨"e", .left, 0.1, true⟩, ⟨"f", .topLeft, 1, true⟩] ∧
      (n.hooks.map (·.id)).Nodup ∧
      (n.redistributeHooks (.known .top)).hooks = [⟨"c", .top, 0.15, true⟩, ⟨"a", .left, 0.1, true⟩,
        ⟨"b", .top, 0.5, false⟩, ⟨"d", .top, 0.85, true⟩, ⟨"e", .left, 0.1, true⟩, ⟨"f", .topLeft, 1, true⟩] ∧
      (∀ d : Term Direction, SpreadEvenly d n (n.redistributeHooks d)) ∧
      (∀ d : Term Direction, (n.redistributeHooks d).redistributeHooks d = n.redistributeHooks d) ∧
      ∀ d e : Term Direction,
        (n.redistributeHooks d).redistributeHooks e = (n.redistributeHooks e).redistributeHooks d := by
  let n : Node Rat := ⟨"n", .known .process, ⟨0, 0, 200, 80⟩, "N", .absent,
    [⟨"c", .top, 0.5, true⟩, ⟨"a", .left, 0.1, true⟩, ⟨"b", .top, 0, false⟩, ⟨"d", .top, 0.5, true⟩,
      ⟨"e", .left, 0.1, true⟩, ⟨"f", .topLeft, 1, true⟩]⟩
  have hids : (n.hooks.map (·.id)).Nodup := by decide
  exact ⟨n, rfl, hids, by decide +kernel, redistributing_spreads n hids⟩

end Node

end Flowchart
