import Flowchart.Hook.Editing
import Flowchart.Proofs.Concat
import Flowchart.Proofs.Lookup
import Flowchart.Proofs.Naming
import Flowchart.Proofs.Node
import Mathlib.Data.List.Nodup

/-!
# Edited nodes stay in order

Whatever is done to the hooks of a node, one call after the other, the node keeps at least one hook, hooks with ids
of their own, no more hooks on a direction than fit there, and offsets that lie on their side (`editing_keeps_order`).

Each operation is described by what it makes of the list of hooks (`addHook_eq_ok`, `redistributeHooks_eq`,
`updateHook_eq_ok`). `WellHooked` is what all of them keep, together with the node itself (`WellHooked.tryEdit`); a
run of edits keeps it by induction (`WellHooked.edited`).
-/

namespace Flowchart

variable {α : Type} [Scalar α]

theorem hookName_injective (node direction : String) : Function.Injective (hookName node direction) := by
  intro m n h
  unfold hookName at h
  rw [String.append_right_inj] at h
  exact toString_nat_injective h

private theorem name_injective : Function.Injective (Vocabulary.name : Direction → String) := by
  intro d e h
  cases d <;> cases e <;> first | rfl | exact absurd h (by decide)

/-- The default hooks have ids of their own. -/
theorem Hook.nodup_defaults (node : String) : ((Hook.defaults node : List (Hook α)).map (·.id)).Nodup := by
  have hids : (Hook.defaults node : List (Hook α)).map (·.id) =
      Direction.cardinals.map fun d => hookName node (Vocabulary.name d) 0 := by
    unfold Hook.defaults
    rw [List.map_map]
    rfl
  rw [hids]
  refine List.Nodup.map (fun d e h => name_injective ?_) (by decide)
  unfold hookName at h
  simpa only [String.append_left_inj, String.append_right_inj] using h

/-- Scalars in which the slots of a side lie on it, for as many hooks as fit there. -/
class UnitSlots (α : Type) [Scalar α] : Prop where
  slotOffset_mem : ∀ total ≤ maxHooksPerDirection, ∀ index < total,
    (0 : α) ≤ slotOffset total index ∧ (slotOffset total index : α) ≤ 1

instance : UnitSlots Float where
  slotOffset_mem := by decide +kernel

instance : UnitSlots Rat where
  slotOffset_mem := by decide +kernel

namespace Node

variable {n m : Node α}

/-- The node with other hooks. -/
def withHooks (n : Node α) (hooks : List (Hook α)) : Node α :=
  { n with hooks := hooks }

/-- The offset that spreading the hooks of a direction gives to the hooks with an id, if it gives them one. -/
def assignedOffset? (n : Node α) (d : Term Direction) (id : String) : Option α :=
  let members := n.hooks.filter (·.isOn d)
  (members.zipIdx.map fun (h, i) => (h.id, slotOffset members.length i)).reverse.lookup id

theorem redistributeHooks_eq_map (n : Node α) (d : Term Direction) :
    n.redistributeHooks d =
      n.withHooks (n.hooks.map fun h => { h with offset := (n.assignedOffset? d h.id).getD h.offset }) := by
  refine congrArg n.withHooks (List.map_congr_left fun h _ => ?_)
  unfold assignedOffset?
  split
  · next offset hassigned =>
    rw [hassigned]
    rfl
  · next hnone =>
    rw [hnone]
    rfl

omit [Scalar α] in
/-- Of several hooks with an id the last one decides what is looked up. -/
private theorem lookup_slots {members : List (Hook α)} {slot : Nat → α} {id : String} {x : α} :
    (members.zipIdx.map fun (h, i) => (h.id, slot i)).reverse.lookup id = some x ↔
      ∃ before h after, members = before ++ h :: after ∧ h.id = id ∧ (∀ k ∈ after, k.id ≠ id) ∧
        x = slot before.length := by
  induction members using List.reverseRecOn with
  | nil => simp
  | append_singleton members h ih =>
    rw [List.zipIdx_append, List.map_append, List.reverse_append]
    simp only [List.zipIdx_singleton, List.map_singleton, List.reverse_singleton, List.singleton_append, Nat.zero_add]
    rw [List.lookup_cons]
    by_cases hid : id = h.id
    · rw [hid, beq_self_eq_true]
      constructor
      · rintro ⟨⟩
        exact ⟨members, h, [], rfl, rfl, by simp, rfl⟩
      · rintro ⟨before, g, after, hmembers, -, hafter, rfl⟩
        rcases concat_eq_append_cons.1 hmembers with ⟨rfl, -, -⟩ | ⟨rest, rfl, -⟩
        · rfl
        · exact absurd rfl (hafter h (by simp))
    · rw [beq_eq_false_iff_ne.2 hid]
      refine ih.trans ⟨?_, ?_⟩
      · rintro ⟨before, g, after, rfl, hg, hafter, hx⟩
        refine ⟨before, g, after ++ [h], by simp, hg, ?_, hx⟩
        simpa [or_imp, forall_and] using ⟨hafter, Ne.symm hid⟩
      · rintro ⟨before, g, after, hmembers, hg, hafter, hx⟩
        rcases concat_eq_append_cons.1 hmembers with ⟨-, rfl, -⟩ | ⟨rest, rfl, rfl⟩
        · exact absurd hg.symm hid
        · exact ⟨before, g, rest, rfl, hg, fun k hk => hafter k (List.mem_append_left _ hk), hx⟩

/-- Whether the last one of the hooks on a direction that have an id is the one at a place, of those on the direction. -/
def IsLastOn (n : Node α) (d : Term Direction) (id : String) (i : Nat) : Prop :=
  ∃ before h after, n.hooks.filter (·.isOn d) = before ++ h :: after ∧ h.id = id ∧ (∀ k ∈ after, k.id ≠ id) ∧
    before.length = i

/-- The offset that is assigned to an id is the slot of the last hook on the direction that has it. -/
theorem assignedOffset?_eq_some {d : Term Direction} {id : String} {x : α} :
    n.assignedOffset? d id = some x ↔ ∃ i, n.IsLastOn d id i ∧ x = slotOffset (n.hookCount d) i := by
  have hcount : n.hookCount d = (n.hooks.filter (·.isOn d)).length := List.countP_eq_length_filter
  rw [hcount]
  refine lookup_slots.trans ⟨?_, ?_⟩
  · rintro ⟨before, h, after, hmembers, hid, hafter, hx⟩
    exact ⟨before.length, ⟨before, h, after, hmembers, hid, hafter, rfl⟩, hx⟩
  · rintro ⟨_, ⟨before, h, after, hmembers, hid, hafter, rfl⟩, hx⟩
    exact ⟨before, h, after, hmembers, hid, hafter, hx⟩

/-- No offset is assigned to the ids of hooks on other directions. -/
theorem assignedOffset?_eq_none {d : Term Direction} {id : String} (h : ∀ g ∈ n.hooks, g.isOn d = true → g.id ≠ id) :
    n.assignedOffset? d id = none := by
  rw [Option.eq_none_iff_forall_ne_some]
  intro x hx
  obtain ⟨_, ⟨before, g, after, hmembers, hid, -, -⟩, -⟩ := assignedOffset?_eq_some.1 hx
  have hg : g ∈ n.hooks.filter (·.isOn d) := hmembers ▸ List.mem_append_right before List.mem_cons_self
  obtain ⟨hmem, hon⟩ := List.mem_filter.1 hg
  exact h g hmem hon hid

/-- Spreading the hooks of a direction gives some hooks a slot of it as their offset. -/
theorem redistributeHooks_eq (n : Node α) (d : Term Direction) :
    ∃ offset : Hook α → α,
      n.redistributeHooks d = n.withHooks (n.hooks.map fun h => { h with offset := offset h }) ∧
      ∀ h, offset h = h.offset ∨
        ∃ index < n.hookCount d, offset h = slotOffset (n.hookCount d) index := by
  refine ⟨_, n.redistributeHooks_eq_map d, fun h => ?_⟩
  cases hassigned : n.assignedOffset? d h.id with
  | none => exact .inl rfl
  | some x =>
    obtain ⟨_, ⟨before, g, after, hmembers, -, -, rfl⟩, rfl⟩ := assignedOffset?_eq_some.1 hassigned
    have hcount : n.hookCount d = (n.hooks.filter (·.isOn d)).length := List.countP_eq_length_filter
    refine .inr ⟨before.length, ?_, rfl⟩
    rw [hcount, hmembers, List.length_append, List.length_cons]
    omega

/-- A hook is added at the end, under a name that is free. -/
theorem addHook_eq_ok {d : Term Direction} {offset : Option α} (h : n.addHook d offset = .ok m) :
    ∃ hook : Hook α, d = .known hook.direction ∧ n.hookCount d < maxHooksPerDirection ∧
      hook.id = hookName n.id d.name
        (freshNumber (n.hooks.map (·.id)) (hookName n.id d.name) (n.hookCount d)) ∧
      hook.offset = offset.getD 0.5 ∧ (0 ≤ hook.offset ∧ hook.offset ≤ 1) ∧
      m = offset.elim ((n.withHooks (n.hooks ++ [hook])).redistributeHooks d)
        fun _ => n.withHooks (n.hooks ++ [hook]) := by
  unfold addHook at h
  split at h
  · cases h
  · next hroom =>
    obtain ⟨hook, hmake, h⟩ := bind_eq_ok.1 h
    obtain ⟨hd, hid, hoffset, hside⟩ := Hook.make_eq_ok hmake
    refine ⟨hook, hd, by simpa [canAddHook] using hroom, hid, hoffset, hside, ?_⟩
    cases offset <;> exact (Except.ok.inj h).symm

/-- The one hook with an id is replaced; if it has come to another direction, there was room. -/
theorem updateHook_eq_ok {id : String} {change : HookChange α} (h : n.updateHook id change = .ok m) :
    ∃ hook ∈ n.hooks, ∃ updated : Hook α, hook.id = id ∧ updated.id = id ∧
      (0 ≤ updated.offset ∧ updated.offset ≤ 1) ∧
      (updated.direction = hook.direction ∨
        n.peerCount id (.known updated.direction) < maxHooksPerDirection) ∧
      m = n.withHooks (n.hooks.map fun h => if h.id = id then updated else h) := by
  obtain ⟨hook, hhook, hrest⟩ := bind_eq_ok.1 h
  obtain ⟨offset, hoffset, hrest⟩ := bind_eq_ok.1 hrest
  obtain ⟨updated, hmake, hm⟩ := bind_eq_ok.1 hrest
  unfold Node.hook at hhook
  split at hhook
  · next found hfound =>
    obtain rfl := Except.ok.inj hhook
    obtain rfl : found.id = id := by simpa using List.find?_some hfound
    obtain ⟨hd, hid, -, hside⟩ := Hook.make_eq_ok hmake
    refine ⟨found, List.mem_of_find?_eq_some hfound, updated, rfl, hid, hside, ?_, (Except.ok.inj hm).symm⟩
    -- without a new direction, or with an empty one, the hook stays where it is
    cases hchange : change.direction with
    | none =>
      rw [hchange] at hd
      exact .inl (Term.known.inj hd).symm
    | some d =>
      simp only [hchange] at hd
      split at hd
      · exact .inl (Term.known.inj hd).symm
      · subst hd
        unfold nextOffset at hoffset
        simp only [hchange] at hoffset
        split at hoffset
        · next hon => exact .inl (Term.known.inj (of_decide_eq_true hon)).symm
        · split at hoffset
          · cases hoffset
          · next hroom => exact .inr (Nat.lt_of_not_le hroom)
  · cases hhook

/-! ### What every operation keeps -/

/-- A sound node whose hooks have ids of their own and fit on their directions. -/
structure WellHooked (n : Node α) : Prop where
  sound : n.Sound
  ids_nodup : (n.hooks.map (·.id)).Nodup
  count_le : ∀ d : Direction, n.hookCount (.known d) ≤ maxHooksPerDirection

/-- Whether two nodes are the same but for their places, sizes and hooks. -/
structure SameNode (n m : Node α) : Prop where
  id : m.id = n.id
  kind : m.kind = n.kind
  text : m.text = n.text
  container : m.container = n.container

omit [Scalar α] in
theorem SameNode.trans {l : Node α} (h : l.SameNode n) (h' : n.SameNode m) : l.SameNode m :=
  ⟨h'.id.trans h.id, h'.kind.trans h.kind, h'.text.trans h.text, h'.container.trans h.container⟩

omit [Scalar α] in
theorem sameNode_withHooks (n : Node α) (hooks : List (Hook α)) : n.SameNode (n.withHooks hooks) :=
  ⟨rfl, rfl, rfl, rfl⟩

theorem Sound.offset_mem (hn : n.Sound) {h : Hook α} (hh : h ∈ n.hooks) : 0 ≤ h.offset ∧ h.offset ≤ 1 :=
  (Hook.make_known_eq_ok.1 (hn.hooks h hh)).1

theorem Sound.withHooks (hn : n.Sound) {hooks : List (Hook α)} (hne : hooks ≠ [])
    (hside : ∀ h ∈ hooks, 0 ≤ h.offset ∧ h.offset ≤ 1) : (n.withHooks hooks).Sound where
  make_eq := make_eq_self.2 ⟨(make_eq_self.1 hn.make_eq).1, hne⟩
  hooks h hh := Hook.make_known_eq_ok.2 ⟨hside h hh, rfl⟩

omit [Scalar α] in
private theorem hookCount_withHooks_append (n : Node α) (hook : Hook α) (d : Term Direction) :
    (n.withHooks (n.hooks ++ [hook])).hookCount d = n.hookCount d + if hook.isOn d then 1 else 0 := by
  simp [withHooks, hookCount, List.countP_append, List.countP_singleton]

/-- No hook is on a direction that is none. -/
theorem WellHooked.hookCount_le (hn : n.WellHooked) (d : Term Direction) : n.hookCount d ≤ maxHooksPerDirection := by
  cases d with
  | known d => exact hn.count_le d
  | foreign name =>
    have hnone : n.hookCount (.foreign name) = 0 := by simp [hookCount, Hook.isOn]
    omega

omit [Scalar α] in
theorem nodup_map_id_append {hooks : List (Hook α)} {hook : Hook α} (hids : (hooks.map (·.id)).Nodup)
    (hid : hook.id ∉ hooks.map (·.id)) : ((hooks ++ [hook]).map (·.id)).Nodup := by
  rw [List.map_append, List.nodup_append_comm, List.map_singleton, List.singleton_append, List.nodup_cons]
  exact ⟨hid, hids⟩

/-- A hook with an id of its own is added where there is room. -/
theorem WellHooked.append (hn : n.WellHooked) {hook : Hook α}
    (hroom : n.hookCount (.known hook.direction) < maxHooksPerDirection) (hid : hook.id ∉ n.hooks.map (·.id))
    (hside : 0 ≤ hook.offset ∧ hook.offset ≤ 1) : (n.withHooks (n.hooks ++ [hook])).WellHooked where
  sound := by
    refine hn.sound.withHooks (by simp) fun h hh => ?_
    rcases List.mem_append.1 hh with hh | hh
    · exact hn.sound.offset_mem hh
    · obtain rfl := List.mem_singleton.1 hh
      exact hside
  ids_nodup := nodup_map_id_append hn.ids_nodup hid
  count_le d := by
    rw [hookCount_withHooks_append]
    split
    · next hon =>
      obtain rfl : hook.direction = d := Term.known.inj (of_decide_eq_true hon)
      exact hroom
    · exact hn.count_le d

/-- Each hook is replaced by one with the same id, such that no direction gets too many. -/
theorem WellHooked.map (hn : n.WellHooked) {f : Hook α → Hook α} (hid : ∀ h ∈ n.hooks, (f h).id = h.id)
    (hside : ∀ h ∈ n.hooks, 0 ≤ (f h).offset ∧ (f h).offset ≤ 1)
    (hcount : ∀ d : Direction, (n.hooks.map f).countP (·.isOn (.known d)) ≤ maxHooksPerDirection) :
    (n.withHooks (n.hooks.map f)).WellHooked where
  sound := by
    have hne := (make_eq_self.1 hn.sound.make_eq).2
    refine hn.sound.withHooks (by simpa using hne) fun h hh => ?_
    obtain ⟨g, hg, rfl⟩ := List.mem_map.1 hh
    exact hside g hg
  ids_nodup := by
    have hids : (n.hooks.map f).map (·.id) = n.hooks.map (·.id) := by
      rw [List.map_map]
      exact List.map_congr_left hid
    show ((n.hooks.map f).map (·.id)).Nodup
    rw [hids]
    exact hn.ids_nodup
  count_le := hcount

omit [Scalar α] in
/-- No hook is put on a direction by a map that moves none. -/
private theorem countP_map_le {f : Hook α → Hook α} {hooks : List (Hook α)} {d : Term Direction}
    (hf : ∀ h ∈ hooks, (f h).isOn d → h.isOn d) :
    (hooks.map f).countP (·.isOn d) ≤ hooks.countP (·.isOn d) := by
  rw [List.countP_map]
  exact List.countP_mono_left hf

theorem WellHooked.redistributeHooks [UnitSlots α] (hn : n.WellHooked) (d : Term Direction) :
    (n.redistributeHooks d).WellHooked := by
  obtain ⟨offset, heq, hoffset⟩ := n.redistributeHooks_eq d
  rw [heq]
  refine hn.map (fun _ _ => rfl) (fun h hh => ?_) fun e => ?_
  · rcases hoffset h with hsame | ⟨index, hlt, hslot⟩
    · rw [hsame]
      exact hn.sound.offset_mem hh
    · rw [hslot]
      exact UnitSlots.slotOffset_mem _ (hn.hookCount_le d) index hlt
  · refine (countP_map_le fun h _ hon => ?_).trans (hn.count_le e)
    exact hon

theorem WellHooked.addHook [UnitSlots α] (hn : n.WellHooked) {d : Term Direction} {offset : Option α}
    (h : n.addHook d offset = .ok m) : m.WellHooked := by
  obtain ⟨hook, rfl, hroom, hid, -, hside, rfl⟩ := addHook_eq_ok h
  have hfresh : hook.id ∉ n.hooks.map (·.id) := by
    rw [hid]
    exact freshNumber_not_mem (hookName_injective n.id _) _ _
  have happended := hn.append hroom hfresh hside
  cases offset with
  | some x => exact happended
  | none => exact happended.redistributeHooks (.known hook.direction)

/-- The default hooks are in order, one on each side. -/
theorem Sound.wellHooked_defaults [StandardSizes α] (hn : n.Sound) :
    (n.withHooks (Hook.defaults n.id)).WellHooked := by
  refine ⟨hn.withHooks (List.cons_ne_nil _ _) fun h hh => ?_, Hook.nodup_defaults n.id, fun d => ?_⟩
  · exact (Hook.make_known_eq_ok.1 (Hook.make_of_mem_defaults hh)).1
  · calc (n.withHooks (Hook.defaults n.id)).hookCount (.known d)
        ≤ (Hook.defaults n.id : List (Hook α)).length := List.countP_le_length
      _ = 4 := rfl
      _ ≤ maxHooksPerDirection := by decide

/-- What is removed are some of the hooks, or else the node gets the default ones. -/
theorem removeHook_eq (n : Node α) (id : String) :
    (n.hooks.filter fun h => h.id ≠ id) = [] ∧ n.removeHook id = n.withHooks (Hook.defaults n.id) ∨
      (n.hooks.filter fun h => h.id ≠ id) ≠ [] ∧
        n.removeHook id = n.withHooks (n.hooks.filter fun h => h.id ≠ id) := by
  by_cases hnone : (n.hooks.filter fun h => h.id ≠ id) = []
  · exact .inl ⟨hnone, if_pos (by simpa using hnone)⟩
  · exact .inr ⟨hnone, withSomeHook_of_ne_nil hnone⟩

theorem WellHooked.removeHook [StandardSizes α] (hn : n.WellHooked) (id : String) :
    (n.removeHook id).WellHooked := by
  have hsub : (n.hooks.filter fun h => h.id ≠ id).Sublist n.hooks := List.filter_sublist
  rcases n.removeHook_eq id with ⟨-, hdefaults⟩ | ⟨hne, hrest⟩
  · rw [hdefaults]
    exact hn.sound.wellHooked_defaults
  · rw [hrest]
    refine ⟨hn.sound.withHooks hne fun h hh => hn.sound.offset_mem (hsub.subset hh),
      (hsub.map _).nodup hn.ids_nodup, fun d => ?_⟩
    exact (hsub.countP_le).trans (hn.count_le d)

omit [Scalar α] in
/-- Beside the one hook that was replaced, only its peers are on a direction. -/
private theorem countP_replace_le {hooks : List (Hook α)} (hids : (hooks.map (·.id)).Nodup) (id : String)
    (updated : Hook α) (d : Term Direction) :
    (hooks.map fun h => if h.id = id then updated else h).countP (·.isOn d) ≤
      1 + hooks.countP fun h => h.id ≠ id && h.isOn d := by
  have hone : (hooks.filter fun h => h.id = id).length ≤ 1 := by
    rw [← List.countP_eq_length_filter]
    calc hooks.countP (fun h => h.id = id) = (hooks.map (·.id)).count id := by
          rw [List.count_eq_countP, List.countP_map]
          exact List.countP_congr fun h _ => by simp
      _ ≤ 1 := List.nodup_iff_count_le_one.1 hids id
  rw [List.countP_map, List.countP_eq_countP_filter_add _ _ fun h => h.id = id]
  refine Nat.add_le_add (List.countP_le_length.trans hone) ?_
  rw [List.countP_filter]
  refine List.countP_mono_left fun h _ hon => ?_
  simp only [Bool.and_eq_true, Bool.not_eq_true', decide_eq_false_iff_not, Function.comp_apply] at hon
  obtain ⟨hon, hne⟩ := hon
  rw [if_neg hne] at hon
  simp [hne, hon]

theorem WellHooked.updateHook (hn : n.WellHooked) {id : String} {change : HookChange α}
    (h : n.updateHook id change = .ok m) : m.WellHooked := by
  obtain ⟨hook, hmem, updated, rfl, hid, hside, hplace, rfl⟩ := updateHook_eq_ok h
  refine hn.map (fun g hg => ?_) (fun g hg => ?_) fun d => ?_
  · split
    · next hsame => rw [hid, hsame]
    · rfl
  · split
    · exact hside
    · exact hn.sound.offset_mem hg
  · -- a direction gets one more hook only if this one has come to it
    by_cases hon : updated.isOn (.known d) ∧ updated.direction ≠ hook.direction
    · have hd : updated.direction = d := Term.known.inj (of_decide_eq_true hon.1)
      have hroom := hplace.resolve_left hon.2
      rw [hd] at hroom
      have := countP_replace_le hn.ids_nodup hook.id updated (.known d)
      unfold peerCount at hroom
      omega
    · refine (countP_map_le fun g hg hgon => ?_).trans (hn.count_le d)
      split at hgon
      · next hsame =>
        obtain rfl := List.inj_on_of_nodup_map hn.ids_nodup hg hmem hsame
        have hdirection : updated.direction = g.direction := by
          by_contra hne
          exact hon ⟨hgon, hne⟩
        unfold Hook.isOn at hgon ⊢
        rwa [← hdirection]
      · exact hgon

theorem WellHooked.withRect (hn : n.WellHooked) {r : Rect α} (h : n.withRect r = .ok m) : m.WellHooked := by
  have hne := (make_eq_self.1 hn.sound.make_eq).2
  obtain ⟨hsize, rfl⟩ := make_eq_ok.1 h
  rw [withSomeHook_of_ne_nil (n := { n with rect := r }) hne]
  exact ⟨⟨make_eq_self.2 ⟨hsize, hne⟩, hn.sound.hooks⟩, hn.ids_nodup, hn.count_le⟩

/-! ### Runs of edits -/

/-- A call that changes a node. -/
inductive Edit (α : Type) where
  | add (direction : Term Direction) (offset : Option α)
  | remove (id : String)
  | update (id : String) (change : HookChange α)
  | redistribute (direction : Term Direction)
  | reshape (r : Rect α)

def tryEdit (n : Node α) : Edit α → Except (Fault α) (Node α)
  | .add direction offset => n.addHook direction offset
  | .remove id => .ok (n.removeHook id)
  | .update id change => n.updateHook id change
  | .redistribute direction => .ok (n.redistributeHooks direction)
  | .reshape r => n.withRect r

/-- The node after an edit; an edit that fails leaves it as it was. -/
def edit (n : Node α) (e : Edit α) : Node α :=
  match n.tryEdit e with
  | .ok m => m
  | .error _ => n

def edited (n : Node α) (edits : List (Edit α)) : Node α :=
  edits.foldl edit n

theorem edit_eq_of_ok {e : Edit α} (h : n.tryEdit e = .ok m) : n.edit e = m := by
  unfold edit
  rw [h]

theorem edited_append_singleton (n : Node α) (edits : List (Edit α)) (e : Edit α) :
    n.edited (edits ++ [e]) = (n.edited edits).edit e :=
  List.foldl_append

theorem sameNode_tryEdit {e : Edit α} (h : n.tryEdit e = .ok m) : n.SameNode m := by
  cases e with
  | add direction offset =>
    obtain ⟨hook, -, -, -, -, -, rfl⟩ := addHook_eq_ok h
    cases offset <;> exact ⟨rfl, rfl, rfl, rfl⟩
  | remove id =>
    obtain rfl := Except.ok.inj h
    unfold Node.removeHook
    constructor <;> simp
  | update id change =>
    obtain ⟨-, -, -, -, -, -, -, rfl⟩ := updateHook_eq_ok h
    exact n.sameNode_withHooks _
  | redistribute direction =>
    obtain rfl := Except.ok.inj h
    exact ⟨rfl, rfl, rfl, rfl⟩
  | reshape r =>
    obtain ⟨-, rfl⟩ := make_eq_ok.1 h
    constructor <;> simp

variable [StandardSizes α] [UnitSlots α]

/-- Every operation keeps the hooks in order. -/
theorem WellHooked.tryEdit (hn : n.WellHooked) {e : Edit α} (h : n.tryEdit e = .ok m) : m.WellHooked := by
  cases e with
  | add direction offset => exact hn.addHook h
  | remove id =>
    obtain rfl := Except.ok.inj h
    exact hn.removeHook id
  | update id change => exact hn.updateHook h
  | redistribute direction =>
    obtain rfl := Except.ok.inj h
    exact hn.redistributeHooks direction
  | reshape r => exact hn.withRect h

theorem WellHooked.edit (hn : n.WellHooked) (e : Edit α) : (n.edit e).WellHooked ∧ n.SameNode (n.edit e) := by
  unfold Node.edit
  cases h : n.tryEdit e with
  | ok m => exact ⟨hn.tryEdit h, sameNode_tryEdit h⟩
  | error fault => exact ⟨hn, rfl, rfl, rfl, rfl⟩

/-- A run of edits keeps the hooks in order. -/
theorem WellHooked.edited (hn : n.WellHooked) (edits : List (Edit α)) :
    (n.edited edits).WellHooked ∧ n.SameNode (n.edited edits) := by
  induction edits generalizing n with
  | nil => exact ⟨hn, rfl, rfl, rfl, rfl⟩
  | cons e edits ih =>
    obtain ⟨hedit, hsame⟩ := hn.edit e
    obtain ⟨hrest, hsame'⟩ := ih hedit
    exact ⟨hrest, hsame.trans hsame'⟩

/-- A node that was accepted with hooks in order has them in order after every run of edits, whatever their arguments
are: at least one hook, ids of their own, at most five hooks on a direction and offsets from 0 to 1. What else
identifies the node never changes. -/
theorem editing_keeps_order (raw n : Node Float)
    (hhooks : ∀ h ∈ raw.hooks, Hook.make h.id (.known h.direction) h.offset h.visible = .ok h)
    (hmake : raw.make = .ok n) (hids : (n.hooks.map (·.id)).Nodup)
    (hcount : ∀ d : Direction, n.hookCount (.known d) ≤ 5) (edits : List (Edit Float)) :
    (n.edited edits).hooks ≠ [] ∧ ((n.edited edits).hooks.map (·.id)).Nodup ∧
      (∀ d : Direction, (n.edited edits).hookCount (.known d) ≤ 5) ∧
      (∀ h ∈ (n.edited edits).hooks, 0 ≤ h.offset ∧ h.offset ≤ 1) ∧
      (n.edited edits).id = n.id ∧ (n.edited edits).kind = n.kind ∧ (n.edited edits).text = n.text ∧
      (n.edited edits).container = n.container := by
  have hn : n.WellHooked := ⟨sound_of_make hhooks hmake, hids, hcount⟩
  obtain ⟨hedited, hsame⟩ := hn.edited edits
  exact ⟨(make_eq_self.1 hedited.sound.make_eq).2, hedited.ids_nodup, hedited.count_le,
    fun h hh => hedited.sound.offset_mem hh, hsame.id, hsame.kind, hsame.text, hsame.container⟩

/-- Two hooks share the top, one of them goes to the left, and two calls fail: an offset is no number, and a width is
negative. When the last hooks are removed, the default ones come back. -/
theorem editing_keeps_order_emptied :
    ∃ (raw n : Node Float) (edits last : List (Edit Float)),
      raw = ⟨"a", .known .process, ⟨0, 0, 200, 80⟩, "A", .absent, []⟩ ∧ raw.make = .ok n ∧
        edits = [.add (.known .top) none, .add (.known .top) (some (0 / 0)),
          .update "a-hook-top-0" ⟨some (.known .left), none, none⟩, .remove "a-hook-right-0",
          .remove "a-hook-bottom-0", .remove "a-hook-left-0", .reshape ⟨0, 0, -1, 80⟩] ∧
        last = [.remove "a-hook-top-0", .remove "a-hook-top-1", .add (.known .top) none] ∧
        (n.edited edits).hooks = [⟨"a-hook-top-0", .left, 0.85, true⟩, ⟨"a-hook-top-1", .top, 0.85, true⟩] ∧
        ((n.edited (edits ++ last)).hooks.map fun h => (h.id, h.offset)) =
          [("a-hook-top-0", 0.15), ("a-hook-right-0", 0.5), ("a-hook-bottom-0", 0.5), ("a-hook-left-0", 0.5),
            ("a-hook-top-1", 0.85)] ∧
        (n.edited (edits ++ last)).hooks ≠ [] ∧ ((n.edited (edits ++ last)).hooks.map (·.id)).Nodup ∧
        (∀ d : Direction, (n.edited (edits ++ last)).hookCount (.known d) ≤ 5) ∧
        (∀ h ∈ (n.edited (edits ++ last)).hooks, 0 ≤ h.offset ∧ h.offset ≤ 1) ∧
        (n.edited (edits ++ last)).id = n.id ∧ (n.edited (edits ++ last)).kind = n.kind ∧
        (n.edited (edits ++ last)).text = n.text ∧ (n.edited (edits ++ last)).container = n.container := by
  let raw : Node Float := ⟨"a", .known .process, ⟨0, 0, 200, 80⟩, "A", .absent, []⟩
  let n : Node Float := { raw with hooks := Hook.defaults "a" }
  have hmake : raw.make = .ok n := by decide +kernel
  have hcount : ∀ d : Direction, n.hookCount (.known d) ≤ 5 := by
    intro d
    cases d <;> decide +kernel
  exact ⟨raw, n, _, _, rfl, hmake, rfl, rfl, by decide +kernel, by decide +kernel,
    editing_keeps_order raw n (fun h hh => absurd hh List.not_mem_nil) hmake (by decide +kernel) hcount _⟩

end Node

end Flowchart
