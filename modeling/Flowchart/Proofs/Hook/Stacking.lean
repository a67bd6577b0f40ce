import Flowchart.Proofs.Hook.Changing
import Flowchart.Proofs.Hook.Removing

/-!
# Hooks stacked on one slot

A hook that is moved to another direction without an offset gets the last slot of a side that has room for the hooks
that are there and this one. But the hooks that are there keep the slots of a side for fewer hooks, and the last one of
these is the same: 0.85. Each edit without an offset is described by what it makes of the offsets on a direction
(`Placed`, `placed_edit`): some of them go, or all are spread, or the last slot comes to them. So hooks are stacked at
0.85 only, and no hooks are stacked in a run of edits if and only if no hook moves to a direction on which a hook is at
0.85 (`moving_stacks_iff`).
-/

namespace Flowchart

namespace Node

section Offsets

variable {α : Type} [Scalar α] {n : Node α} {d : Term Direction} {id : String} {h updated : Hook α}

omit [Scalar α] in
theorem length_offsetsOn (n : Node α) (d : Term Direction) : (n.offsetsOn d).length = n.hookCount d := by
  rw [offsetsOn, List.length_map, ← List.countP_eq_length_filter]
  rfl

omit [Scalar α] in
theorem offsetsOn_eq_nil (hnone : n.hookCount d = 0) : n.offsetsOn d = [] := by
  rw [← List.length_eq_zero_iff, length_offsetsOn, hnone]

omit [Scalar α] in
theorem offsetsOn_append (n : Node α) (hooks more : List (Hook α)) (d : Term Direction) :
    (n.withHooks (hooks ++ more)).offsetsOn d =
      (n.withHooks hooks).offsetsOn d ++ (n.withHooks more).offsetsOn d := by
  simp [offsetsOn, withHooks]

omit [Scalar α] in
theorem offsetsOn_cons_of_isOn (hooks : List (Hook α)) (hon : h.isOn d = true) :
    (n.withHooks (h :: hooks)).offsetsOn d = h.offset :: (n.withHooks hooks).offsetsOn d := by
  simp [offsetsOn, withHooks, hon]

omit [Scalar α] in
theorem offsetsOn_cons_of_not_isOn (hooks : List (Hook α)) (hoff : h.isOn d = false) :
    (n.withHooks (h :: hooks)).offsetsOn d = (n.withHooks hooks).offsetsOn d := by
  simp [offsetsOn, withHooks, hoff]

omit [Scalar α] in
/-- Where ids are distinct, a hook is replaced at its place and nowhere else. -/
theorem exists_withReplaced (hids : (n.hooks.map (·.id)).Nodup) (hhook : n.hook id = .ok h) :
    ∃ before after, n = n.withHooks (before ++ h :: after) ∧
      ∀ updated, n.withReplaced id updated = n.withHooks (before ++ updated :: after) := by
  obtain ⟨hmem, rfl⟩ := mem_of_hook hhook
  obtain ⟨before, after, hhooks⟩ := List.append_of_mem hmem
  have hother := id_ne_of_nodup hids hhooks
  refine ⟨before, after, congrArg n.withHooks hhooks, fun updated => congrArg n.withHooks ?_⟩
  have hbefore : (before.map fun g => if g.id = h.id then updated else g) = before :=
    (List.map_congr_left fun g hg => if_neg (hother g (.inl hg))).trans (List.map_id' before)
  have hafter : (after.map fun g => if g.id = h.id then updated else g) = after :=
    (List.map_congr_left fun g hg => if_neg (hother g (.inr hg))).trans (List.map_id' after)
  rw [hhooks, List.map_append, List.map_cons, hbefore, hafter, if_pos rfl]

omit [Scalar α] in
/-- A hook that does not come to a direction brings no offset to it. -/
theorem offsetsOn_withReplaced_sublist (hids : (n.hooks.map (·.id)).Nodup) (hhook : n.hook id = .ok h)
    (hstays : updated.isOn d = true → h.isOn d = true ∧ updated.offset = h.offset) :
    ((n.withReplaced id updated).offsetsOn d).Sublist (n.offsetsOn d) := by
  obtain ⟨before, after, hhooks, hreplaced⟩ := exists_withReplaced hids hhook
  rw [hreplaced, hhooks, offsetsOn_append, offsetsOn_append]
  refine List.Sublist.append (List.Sublist.refl _) ?_
  show ((n.withHooks (updated :: after)).offsetsOn d).Sublist ((n.withHooks (h :: after)).offsetsOn d)
  cases hupdated : updated.isOn d with
  | true =>
    obtain ⟨hon, hoffset⟩ := hstays hupdated
    rw [offsetsOn_cons_of_isOn _ hupdated, offsetsOn_cons_of_isOn _ hon, hoffset]
  | false =>
    rw [offsetsOn_cons_of_not_isOn _ hupdated]
    cases hon : h.isOn d with
    | true =>
      rw [offsetsOn_cons_of_isOn _ hon]
      exact List.sublist_cons_self _ _
    | false => rw [offsetsOn_cons_of_not_isOn _ hon]

omit [Scalar α] in
/-- A hook that comes to a direction brings its offset to those that are there. -/
theorem offsetsOn_withReplaced_perm (hids : (n.hooks.map (·.id)).Nodup) (hhook : n.hook id = .ok h)
    (hoff : h.isOn d = false) (hon : updated.isOn d = true) :
    ((n.withReplaced id updated).offsetsOn d).Perm (updated.offset :: n.offsetsOn d) := by
  obtain ⟨before, after, hhooks, hreplaced⟩ := exists_withReplaced hids hhook
  have hthere : n.offsetsOn d = (n.withHooks before).offsetsOn d ++ (n.withHooks after).offsetsOn d := by
    conv_lhs => rw [hhooks]
    rw [offsetsOn_append, offsetsOn_cons_of_not_isOn _ hoff]
  rw [hreplaced, offsetsOn_append, offsetsOn_cons_of_isOn _ hon, hthere]
  exact List.perm_middle

/-- The default hooks of a direction are at its slots. -/
theorem offsetsOn_defaults (n : Node α) (d : Direction) :
    ∃ total, (n.withHooks (Hook.defaults n.id)).offsetsOn (.known d) = (List.range total).map (slotOffset total) := by
  cases d with
  | top | right | bottom | left => exact ⟨1, rfl⟩
  | topLeft | topRight | bottomLeft | bottomRight => exact ⟨0, rfl⟩

end Offsets

/-! ### Edits without offsets -/

/-- Whether an edit leaves it to the node where hooks are put. A change to the empty name does not move the hook to
another direction and is left out. -/
inductive Edit.Automatic : Edit Rat → Prop
  | add (d : Term Direction) : Automatic (.add d none)
  | remove (id : String) : Automatic (.remove id)
  | move (id : String) (d : Term Direction) (visible : Option Bool) :
      d.name ≠ "" → Automatic (.update id ⟨some d, none, visible⟩)
  | redistribute (d : Term Direction) : Automatic (.redistribute d)

/-- Whether an edit moves a hook from another direction to this one, where there is room for it. -/
def Moves (n : Node Rat) (e : Edit Rat) (d : Direction) : Prop :=
  ∃ id visible h, e = .update id ⟨some (.known d), none, visible⟩ ∧ n.hook id = .ok h ∧ h.direction ≠ d ∧
    n.hookCount (.known d) < maxHooksPerDirection

/-- The slot behind the hooks on a direction. -/
def lastSlot (n : Node Rat) (d : Direction) : Rat :=
  slotOffset (n.hookCount (.known d) + 1) (n.hookCount (.known d))

/-- What an edit makes of the offsets on a direction. -/
inductive Placed (n : Node Rat) (e : Edit Rat) (d : Direction) (offsets : List Rat) : Prop
  | kept : ¬ n.Moves e d → offsets.Sublist (n.offsetsOn (.known d)) → Placed n e d offsets
  | spread (total : Nat) : ¬ n.Moves e d → offsets = (List.range total).map (slotOffset total) → Placed n e d offsets
  | moved : n.Moves e d → offsets.Perm (n.lastSlot d :: n.offsetsOn (.known d)) → Placed n e d offsets

variable {n m : Node Rat} {d : Direction}

/-- A hook that comes to a direction with room for it gets the last slot there. -/
theorem updateHook_of_moves (hn : n.WellHooked) {id : String} {visible : Option Bool} {h : Hook Rat}
    (hhook : n.hook id = .ok h) (hd : h.direction ≠ d) (hroom : n.hookCount (.known d) < maxHooksPerDirection) :
    n.updateHook id ⟨some (.known d), none, visible⟩ =
      .ok (n.withReplaced id ⟨id, d, n.lastSlot d, visible.getD h.visible⟩) := by
  have hoff : h.isOn (.known d) = false := decide_eq_false fun hsame => hd (Term.known.inj hsame)
  have hpeers := peerCount_of_not_isOn hn.ids_nodup (mem_of_hook hhook).1 hoff
  have hside : 0 ≤ n.lastSlot d ∧ n.lastSlot d ≤ 1 := UnitSlots.slotOffset_mem _ hroom _ (Nat.lt_succ_self _)
  have hgoal : HookChange.goal ⟨some (.known d), none, visible⟩ h = .known d :=
    if_neg (by cases d <;> decide)
  refine updateHook_eq_ok_iff.2 ⟨h, n.lastSlot d, _, hhook, ?_, ?_, rfl⟩
  · rw [nextOffset_of_leaves rfl hoff, hpeers]
    exact if_neg (Nat.not_le_of_lt hroom)
  · unfold remade
    rw [hgoal, Scalar.clampUnit_of_mem hside]
    exact Hook.make_known_eq_ok.2 ⟨hside, rfl⟩

/-- A change that moves no hook to a direction brings no offset to it. -/
theorem offsetsOn_updateHook_sublist (hn : n.WellHooked) {id : String} {t : Term Direction} {visible : Option Bool}
    (ht : t.name ≠ "") (hstill : ¬ n.Moves (.update id ⟨some t, none, visible⟩) d)
    (hm : n.updateHook id ⟨some t, none, visible⟩ = .ok m) :
    (m.offsetsOn (.known d)).Sublist (n.offsetsOn (.known d)) := by
  obtain ⟨h, offset, updated, hhook, hoffset, hmake, rfl⟩ := updateHook_eq_ok_iff.1 hm
  have hmem := (mem_of_hook hhook).1
  have hgoal : HookChange.goal ⟨some t, none, visible⟩ h = t := if_neg ht
  obtain ⟨hdirection, -, hupdated, -⟩ := Hook.make_eq_ok hmake
  rw [hgoal] at hdirection
  subst hdirection
  refine offsetsOn_withReplaced_sublist hn.ids_nodup hhook fun hon => ?_
  obtain rfl : updated.direction = d := Term.known.inj (of_decide_eq_true hon)
  rcases stays_or_leaves h ⟨some (.known updated.direction), none, visible⟩ with hstays | ⟨t, ht, hoff⟩
  · rw [nextOffset_of_stays hstays] at hoffset
    obtain rfl := Except.ok.inj hoffset
    exact ⟨hstays _ rfl, hupdated.trans (Scalar.clampUnit_of_mem (hn.sound.offset_mem hmem))⟩
  · -- the hook would have moved here
    obtain rfl := Option.some.inj ht
    rw [nextOffset_of_leaves rfl hoff] at hoffset
    split at hoffset
    · cases hoffset
    · next hroom =>
      rw [peerCount_of_not_isOn hn.ids_nodup hmem hoff, not_le] at hroom
      exact absurd ⟨id, visible, h, rfl, hhook, fun hsame => of_decide_eq_false hoff (congrArg _ hsame), hroom⟩ hstill

/-- Adding without an offset spreads the direction of the new hook and leaves the others as they are. -/
theorem offsetsOn_addHook (hn : n.WellHooked) {t : Term Direction} (hm : n.addHook t none = .ok m) :
    (∃ total, m.offsetsOn (.known d) = (List.range total).map (slotOffset total)) ∨
      m.offsetsOn (.known d) = n.offsetsOn (.known d) := by
  obtain ⟨hook, ht, -, hid, -, -, rfl⟩ := addHook_eq_ok hm
  have hfresh : hook.id ∉ n.hooks.map (·.id) := hid ▸ n.freshHookId_not_mem t
  have hids : ((n.withHooks (n.hooks ++ [hook])).hooks.map (·.id)).Nodup := nodup_map_id_append hn.ids_nodup hfresh
  by_cases hd : t = .known d
  · subst hd
    exact .inl ⟨_, offsetsOn_redistributeHooks hids _⟩
  · have hoff : hook.isOn (.known d) = false := decide_eq_false (ht ▸ hd)
    refine .inr ((offsetsOn_redistributeHooks_of_ne hids hd).trans ?_)
    rw [offsetsOn_append, offsetsOn_cons_of_not_isOn _ hoff]
    exact List.append_nil _

/-- What one edit without an offset makes of the offsets on each direction. -/
theorem placed_edit (hn : n.WellHooked) {e : Edit Rat} (he : e.Automatic) (d : Direction) :
    n.Placed e d ((n.edit e).offsetsOn (.known d)) := by
  cases he with
  | add t =>
    have hstill : ¬ n.Moves (.add t none) d := fun ⟨_, _, _, he, _⟩ => nomatch he
    unfold edit
    split
    · next m hm =>
      rcases offsetsOn_addHook hn hm with ⟨total, hspread⟩ | hsame
      · exact .spread total hstill hspread
      · exact .kept hstill (hsame ▸ List.Sublist.refl _)
    · exact .kept hstill (List.Sublist.refl _)
  | remove id =>
    have hstill : ¬ n.Moves (.remove id) d := fun ⟨_, _, _, he, _⟩ => nomatch he
    show n.Placed _ d ((n.removeHook id).offsetsOn (.known d))
    rcases n.removeHook_eq id with ⟨-, hdefaults⟩ | ⟨-, hrest⟩
    · obtain ⟨total, hspread⟩ := n.offsetsOn_defaults d
      exact .spread total hstill (hdefaults ▸ hspread)
    · rw [hrest]
      exact .kept hstill ((List.filter_sublist.filter _).map _)
  | move id t visible ht =>
    by_cases hmoves : n.Moves (.update id ⟨some t, none, visible⟩) d
    · refine .moved hmoves ?_
      obtain ⟨_, _, h, ⟨⟩, hhook, hd, hroom⟩ := hmoves
      have hedit : n.tryEdit (.update id ⟨some (.known d), none, visible⟩) = .ok _ :=
        updateHook_of_moves hn hhook hd hroom
      rw [edit_eq_of_ok hedit]
      exact offsetsOn_withReplaced_perm hn.ids_nodup hhook
        (decide_eq_false fun hsame => hd (Term.known.inj hsame)) (decide_eq_true rfl)
    · unfold edit
      split
      · next m hm => exact .kept hmoves (offsetsOn_updateHook_sublist hn ht hmoves hm)
      · exact .kept hmoves (List.Sublist.refl _)
  | redistribute t =>
    have hstill : ¬ n.Moves (.redistribute t) d := fun ⟨_, _, _, he, _⟩ => nomatch he
    show n.Placed _ d ((n.redistributeHooks t).offsetsOn (.known d))
    by_cases hd : t = .known d
    · subst hd
      exact .spread _ hstill (offsetsOn_redistributeHooks hn.ids_nodup _)
    · rw [offsetsOn_redistributeHooks_of_ne hn.ids_nodup hd]
      exact .kept hstill (List.Sublist.refl _)

/-! ### Runs of edits -/

/-- Whether no two hooks on one direction have the same offset. -/
def Unstacked (n : Node Rat) : Prop :=
  ∀ d : Direction, (n.offsetsOn (.known d)).Nodup

/-- Whether hooks on one direction have the same offset at its end only. -/
def StackedAtEnd (n : Node Rat) : Prop :=
  ∀ (d : Direction) (x : Rat), 1 < (n.offsetsOn (.known d)).count x → x = 0.85

theorem nodup_slots (total : Nat) : ((List.range total).map (slotOffset total : Nat → Rat)).Nodup :=
  (risesEvenly_slots total).1.imp fun hlt => ne_of_lt hlt

/-- The slot behind the hooks on a direction is its end, unless there is none. -/
theorem lastSlot_cases (n : Node Rat) (d : Direction) : n.offsetsOn (.known d) = [] ∨ n.lastSlot d = 0.85 := by
  rcases Nat.eq_zero_or_pos (n.hookCount (.known d)) with hnone | hpos
  · exact .inl (offsetsOn_eq_nil hnone)
  · exact .inr (slotOffset_last (by omega))

theorem StackedAtEnd.edit (hs : n.StackedAtEnd) (hn : n.WellHooked) {e : Edit Rat} (he : e.Automatic) :
    (n.edit e).StackedAtEnd := by
  intro d x hx
  cases placed_edit hn he d with
  | kept _ hsub => exact hs d x (hx.trans_le (hsub.count_le x))
  | spread total _ hspread =>
    rw [hspread] at hx
    exact absurd (List.nodup_iff_count_le_one.1 (nodup_slots total) x) (not_le.2 hx)
  | moved _ hperm =>
    rw [hperm.count_eq, List.count_cons] at hx
    rcases n.lastSlot_cases d with hnil | hlast
    · rw [hnil, List.count_nil] at hx
      split at hx <;> omega
    · rw [hlast] at hx
      split at hx
      · next hsame => exact (eq_of_beq hsame).symm
      · exact hs d x hx

/-- Hooks get stacked exactly by moving to a direction on which a hook is at the end. -/
theorem unstacked_edit_iff (hu : n.Unstacked) (hn : n.WellHooked) {e : Edit Rat} (he : e.Automatic) :
    (n.edit e).Unstacked ↔ ∀ d, n.Moves e d → (0.85 : Rat) ∉ n.offsetsOn (.known d) := by
  constructor
  · intro hafter d hmoves hend
    cases placed_edit hn he d with
    | kept hstill _ => exact hstill hmoves
    | spread _ hstill _ => exact hstill hmoves
    | moved _ hperm =>
      have hfree := (List.nodup_cons.1 (hperm.nodup_iff.1 (hafter d))).1
      rcases n.lastSlot_cases d with hnil | hlast
      · exact List.not_mem_nil (hnil ▸ hend)
      · exact hfree (hlast ▸ hend)
  · intro hfree d
    cases placed_edit hn he d with
    | kept _ hsub => exact hsub.nodup (hu d)
    | spread total _ hspread => exact hspread ▸ nodup_slots total
    | moved hmoves hperm =>
      refine hperm.nodup_iff.2 (List.nodup_cons.2 ⟨?_, hu d⟩)
      rcases n.lastSlot_cases d with hnil | hlast
      · rw [hnil]
        exact List.not_mem_nil
      · rw [hlast]
        exact hfree d hmoves

theorem StackedAtEnd.edited (hs : n.StackedAtEnd) (hn : n.WellHooked) {edits : List (Edit Rat)}
    (hedits : ∀ e ∈ edits, e.Automatic) : (n.edited edits).StackedAtEnd := by
  induction edits using List.reverseRecOn with
  | nil => exact hs
  | append_singleton edits e ih =>
    rw [edited_append_singleton]
    have hbefore := ih fun e he => hedits e (List.mem_append_left _ he)
    exact hbefore.edit (hn.edited edits).1 (hedits e (by simp))

/-- A run stacks no hooks on the way if and only if none of its edits does. -/
theorem unstacked_edited_iff (hu : n.Unstacked) (hn : n.WellHooked) {edits : List (Edit Rat)}
    (hedits : ∀ e ∈ edits, e.Automatic) :
    (∀ before, before <+: edits → (n.edited before).Unstacked) ↔
      ∀ before e, before ++ [e] <+: edits → ∀ d, (n.edited before).Moves e d →
        (0.85 : Rat) ∉ (n.edited before).offsetsOn (.known d) := by
  induction edits using List.reverseRecOn with
  | nil =>
    refine iff_of_true (fun before hbefore => ?_) fun before e hbefore => ?_
    · rw [List.prefix_nil.1 hbefore]
      exact hu
    · exact absurd (List.prefix_nil.1 hbefore) (by simp)
  | append_singleton edits e ih =>
    have ih := ih fun e he => hedits e (List.mem_append_left _ he)
    have hlast : (n.edited edits).Unstacked → ((n.edited (edits ++ [e])).Unstacked ↔
        ∀ d, (n.edited edits).Moves e d → (0.85 : Rat) ∉ (n.edited edits).offsetsOn (.known d)) := by
      intro hbefore
      rw [edited_append_singleton]
      exact unstacked_edit_iff hbefore (hn.edited edits).1 (hedits e (by simp))
    constructor
    · intro hall before e' hbefore
      have hedited := hall edits (List.prefix_append _ _)
      rcases List.prefix_concat_iff.1 hbefore with hsame | hbefore
      · obtain ⟨rfl, hlastEdit⟩ := List.append_inj' hsame rfl
        obtain rfl := List.singleton_inj.1 hlastEdit
        exact (hlast hedited).1 (hall _ (List.prefix_refl _))
      · exact ih.1 (fun before hbefore => hall before (hbefore.trans (List.prefix_append _ _))) before e' hbefore
    · intro hfree before hbefore
      have hedited := ih.2 fun before e' hbefore => hfree before e' (hbefore.trans (List.prefix_append _ _))
      rcases List.prefix_concat_iff.1 hbefore with rfl | hbefore
      · exact (hlast (hedited edits (List.prefix_refl _))).2 (hfree edits e (List.prefix_refl _))
      · exact hedited before hbefore

/-- Starting from the default hooks, edits without offsets stack hooks of a direction at 0.85 only. They stack none, at
any time, if and only if none of them moves a hook to a direction on which there is a hook at 0.85. -/
theorem moving_stacks_iff (n : Node Rat) (hmake : n.make = .ok n) (hhooks : n.hooks = Hook.defaults n.id)
    (edits : List (Edit Rat)) (hedits : ∀ e ∈ edits, e.Automatic) :
    (∀ (d : Direction) (x : Rat), 1 < ((n.edited edits).offsetsOn (.known d)).count x → x = 0.85) ∧
      ((∀ before, before <+: edits → (n.edited before).Unstacked) ↔
        ∀ before e, before ++ [e] <+: edits → ∀ d, (n.edited before).Moves e d →
          (0.85 : Rat) ∉ (n.edited before).offsetsOn (.known d)) := by
  have hdefaults : n.withHooks (Hook.defaults n.id) = n := by
    rw [← hhooks]
    rfl
  have hsound : n.Sound := ⟨hmake, fun h hh => Hook.make_of_mem_defaults (hhooks ▸ hh)⟩
  have hn : n.WellHooked := hdefaults ▸ hsound.wellHooked_defaults
  have hu : n.Unstacked := by
    intro d
    obtain ⟨total, hspread⟩ := n.offsetsOn_defaults d
    rw [hdefaults] at hspread
    exact hspread ▸ nodup_slots total
  have hs : n.StackedAtEnd := by
    intro d x hx
    exact absurd (List.nodup_iff_count_le_one.1 (hu d) x) (not_le.2 hx)
  exact ⟨hs.edited hn hedits, unstacked_edited_iff hu hn hedits⟩

/-- The hook on the right goes to the top beside the one that is there, and when it has been removed the one on the left
goes there. After spreading the top there is a hook at 0.85, and so the next one that comes is stacked on it. -/
theorem moving_stacks_iff_crossed :
    ∃ (n : Node Rat) (apart spread : List (Edit Rat)),
      n = ⟨"n", .known .process, ⟨0, 0, 200, 80⟩, "", .absent, Hook.defaults "n"⟩ ∧ n.make = .ok n ∧
      apart = [.update "n-hook-right-0" ⟨some (.known .top), none, none⟩, .remove "n-hook-right-0",
        .update "n-hook-left-0" ⟨some (.known .top), none, some false⟩] ∧
      spread = [.redistribute (.known .top), .update "n-hook-bottom-0" ⟨some (.known .top), none, none⟩] ∧
      (∀ e ∈ apart ++ spread, e.Automatic) ∧
      (∀ before, before <+: apart → (n.edited before).Unstacked) ∧
      (¬ ∀ before, before <+: apart ++ spread → (n.edited before).Unstacked) ∧
      ((n.edited (apart ++ spread)).offsetsOn (.known .top)) = [0.15, 0.85, 0.85] ∧
      ∀ (d : Direction) (x : Rat), 1 < ((n.edited (apart ++ spread)).offsetsOn (.known d)).count x → x = 0.85 := by
  let n : Node Rat := ⟨"n", .known .process, ⟨0, 0, 200, 80⟩, "", .absent, Hook.defaults "n"⟩
  let apart : List (Edit Rat) := [.update "n-hook-right-0" ⟨some (.known .top), none, none⟩, .remove "n-hook-right-0",
    .update "n-hook-left-0" ⟨some (.known .top), none, some false⟩]
  let spread : List (Edit Rat) :=
    [.redistribute (.known .top), .update "n-hook-bottom-0" ⟨some (.known .top), none, none⟩]
  have hmake : n.make = .ok n := by decide +kernel
  have hedits : ∀ e ∈ apart ++ spread, e.Automatic := by
    intro e he
    simp only [apart, spread, List.cons_append, List.nil_append, List.mem_cons, List.not_mem_nil, or_false] at he
    rcases he with rfl | rfl | rfl | rfl | rfl
    · exact .move _ _ _ (by decide)
    · exact .remove _
    · exact .move _ _ _ (by decide)
    · exact .redistribute _
    · exact .move _ _ _ (by decide)
  have hapart : ∀ e ∈ apart, e.Automatic := fun e he => hedits e (List.mem_append_left _ he)
  obtain ⟨hend, hall⟩ := moving_stacks_iff n hmake rfl (apart ++ spread) hedits
  refine ⟨n, apart, spread, rfl, hmake, rfl, rfl, hedits,
    (moving_stacks_iff n hmake rfl apart hapart).2.2 fun before e hbefore d hmoves => ?_, fun hunstacked => ?_,
    by decide +kernel, hend⟩
  · -- only the first edit and the last one move a hook, and both move it to the top
    obtain ⟨after, hafter⟩ := hbefore
    rcases before with _ | ⟨e₁, _ | ⟨e₂, _ | ⟨e₃, before⟩⟩⟩ <;>
      simp only [apart, List.nil_append, List.cons_append, List.cons.injEq] at hafter
    · obtain ⟨rfl, -⟩ := hafter
      obtain ⟨_, _, _, ⟨⟩, -⟩ := hmoves
      decide +kernel
    · obtain ⟨-, rfl, -⟩ := hafter
      obtain ⟨_, _, _, ⟨⟩, -⟩ := hmoves
    · obtain ⟨rfl, rfl, rfl, -⟩ := hafter
      obtain ⟨_, _, _, ⟨⟩, -⟩ := hmoves
      decide +kernel
    · simp at hafter
  · have hmoves : (n.edited (apart ++ spread.take 1)).Moves
        (.update "n-hook-bottom-0" ⟨some (.known .top), none, none⟩) .top :=
      ⟨_, _, ⟨"n-hook-bottom-0", .bottom, 0.5, true⟩, rfl, by decide +kernel, by decide, by decide +kernel⟩
    exact hall.1 hunstacked _ _ ⟨[], rfl⟩ .top hmoves (by decide +kernel)

/-- A hook is added on the top, which spreads the two hooks there, and then the hook on the right is moved to the top. It
gets the place of the one that was added. -/
theorem moved_hook_stacked :
    ∃ (n : Node Rat) (edits : List (Edit Rat)),
      n = ⟨"n", .known .process, ⟨0, 0, 200, 80⟩, "", .absent, Hook.defaults "n"⟩ ∧ n.make = .ok n ∧
      edits = [.add (.known .top) none, .update "n-hook-right-0" ⟨some (.known .top), none, none⟩] ∧
      (∀ e ∈ edits, e.Automatic) ∧ ¬ (n.edited edits).Unstacked ∧
      (n.edited edits).hooks = [⟨"n-hook-top-0", .top, 0.15, true⟩, ⟨"n-hook-right-0", .top, 0.85, true⟩,
        ⟨"n-hook-bottom-0", .bottom, 0.5, true⟩, ⟨"n-hook-left-0", .left, 0.5, true⟩,
        ⟨"n-hook-top-1", .top, 0.85, true⟩] := by
  refine ⟨_, _, rfl, by decide +kernel, rfl, fun e he => ?_, fun hunstacked => ?_, by decide +kernel⟩
  · simp only [List.mem_cons, List.not_mem_nil, or_false] at he
    rcases he with rfl | rfl
    · exact .add _
    · exact .move _ _ _ (by decide)
  · exact absurd (hunstacked .top) (by decide +kernel)

end Node

end Flowchart
