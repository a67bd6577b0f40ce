import Flowchart.Proofs.Hook.Editing

/-!
# Changing a hook

A hook is changed in three steps: it is looked up, its offset is chosen, and it is built anew in its place
(`updateHook_eq_ok_iff`, `updateHook_eq_error_iff`). The choice fails only if the hook is led to another direction that
is full (`nextOffset_eq_error`).
-/

namespace Flowchart.Node

variable {α : Type} [Scalar α] {n m : Node α} {h : Hook α} {id : String} {change : HookChange α} {e : Fault α}

omit [Scalar α] in
theorem mem_of_hook (hhook : n.hook id = .ok h) : h ∈ n.hooks ∧ h.id = id := by
  unfold hook at hhook
  split at hhook
  · next found hfound =>
    obtain rfl := Except.ok.inj hhook
    exact ⟨List.mem_of_find?_eq_some hfound, by simpa using List.find?_some hfound⟩
  · cases hhook

omit [Scalar α] in
theorem hook_eq_error : n.hook id = .error e ↔ (∀ h ∈ n.hooks, h.id ≠ id) ∧ e = .noHook n.id id := by
  unfold hook
  split
  · next found hfound =>
    refine iff_of_false (fun he => nomatch he) fun ⟨hnone, _⟩ => ?_
    exact hnone found (List.mem_of_find?_eq_some hfound) (by simpa using List.find?_some hfound)
  · next hnone =>
    rw [List.find?_eq_none] at hnone
    simp only [decide_eq_true_eq] at hnone
    exact ⟨fun he => ⟨hnone, (Except.error.inj he).symm⟩, fun ⟨_, he⟩ => congrArg _ he.symm⟩

omit [Scalar α] in
/-- Where ids are distinct, every hook is found under its id. -/
theorem hook_of_mem (hids : (n.hooks.map (·.id)).Nodup) (hh : h ∈ n.hooks) : n.hook h.id = .ok h := by
  cases hhook : n.hook h.id with
  | ok g =>
    obtain ⟨hg, hid⟩ := mem_of_hook hhook
    rw [List.inj_on_of_nodup_map hids hg hh hid]
  | error fault => exact absurd rfl ((hook_eq_error.1 hhook).1 h hh)

/-- The direction that a change leads a hook to. -/
def HookChange.goal (change : HookChange α) (h : Hook α) : Term Direction :=
  match change.direction with
  | some d => if d.name = "" then .known h.direction else d
  | none => .known h.direction

/-- The hook that is put in the place of `h`, with its offset before it is moved into the unit interval. -/
def remade (id : String) (change : HookChange α) (h : Hook α) (offset : α) : Except (Fault α) (Hook α) :=
  Hook.make id (change.goal h) (Scalar.clampUnit offset) (change.visible.getD h.visible)

/-- The node with a hook in the place of those that have an id. -/
def withReplaced (n : Node α) (id : String) (updated : Hook α) : Node α :=
  n.withHooks (n.hooks.map fun h => if h.id = id then updated else h)

theorem updateHook_eq_ok_iff :
    n.updateHook id change = .ok m ↔ ∃ h offset updated, n.hook id = .ok h ∧ n.nextOffset h change = .ok offset ∧
      remade id change h offset = .ok updated ∧ m = n.withReplaced id updated := by
  constructor
  · intro hm
    obtain ⟨h, hhook, hrest⟩ := bind_eq_ok.1 hm
    obtain ⟨offset, hoffset, hrest⟩ := bind_eq_ok.1 hrest
    obtain ⟨updated, hmake, hm⟩ := bind_eq_ok.1 hrest
    exact ⟨h, offset, updated, hhook, hoffset, hmake, (Except.ok.inj hm).symm⟩
  · rintro ⟨h, offset, updated, hhook, hoffset, hmake, rfl⟩
    exact bind_eq_ok.2 ⟨h, hhook, bind_eq_ok.2 ⟨offset, hoffset, bind_eq_ok.2 ⟨updated, hmake, rfl⟩⟩⟩

theorem updateHook_eq_error_iff (hhook : n.hook id = .ok h) :
    n.updateHook id change = .error e ↔ n.nextOffset h change = .error e ∨
      ∃ offset, n.nextOffset h change = .ok offset ∧ remade id change h offset = .error e := by
  constructor
  · intro he
    rcases bind_eq_error.1 he with he | ⟨g, hg, hrest⟩
    · rw [hhook] at he
      cases he
    · obtain rfl := Except.ok.inj (hhook.symm.trans hg)
      rcases bind_eq_error.1 hrest with he | ⟨offset, hoffset, hrest⟩
      · exact .inl he
      · rcases bind_eq_error.1 hrest with he | ⟨_, -, hrest⟩
        · exact .inr ⟨offset, hoffset, he⟩
        · cases hrest
  · intro hcases
    refine bind_eq_error.2 (.inr ⟨h, hhook, bind_eq_error.2 ?_⟩)
    rcases hcases with he | ⟨offset, hoffset, he⟩
    · exact .inl he
    · exact .inr ⟨offset, hoffset, bind_eq_error.2 (.inl he)⟩

/-- A hook that stays on its direction gets the given offset or keeps its own. -/
theorem nextOffset_of_stays (hstays : ∀ d, change.direction = some d → h.isOn d = true) :
    n.nextOffset h change = .ok (change.offset.getD h.offset) := by
  unfold nextOffset
  split
  · next d hd => exact if_pos (hstays d hd)
  · rfl

/-- A hook that leaves for another direction gets the given offset or the last slot there, if there is room for it. -/
theorem nextOffset_of_leaves {d : Term Direction} (hd : change.direction = some d) (hoff : h.isOn d = false) :
    n.nextOffset h change =
      if maxHooksPerDirection ≤ n.peerCount h.id d then .error (.directionFull n.id d.name)
      else .ok (change.offset.getD (slotOffset (n.peerCount h.id d + 1) (n.peerCount h.id d))) := by
  unfold nextOffset
  rw [hd]
  exact if_neg (by simp [hoff])

omit [Scalar α] in
theorem stays_or_leaves (h : Hook α) (change : HookChange α) :
    (∀ d, change.direction = some d → h.isOn d = true) ∨ ∃ d, change.direction = some d ∧ h.isOn d = false := by
  by_cases hstays : ∀ d, change.direction = some d → h.isOn d = true
  · exact .inl hstays
  · simpa using Or.inr hstays

theorem nextOffset_eq_error :
    n.nextOffset h change = .error e ↔ ∃ d, change.direction = some d ∧ h.isOn d = false ∧
      maxHooksPerDirection ≤ n.peerCount h.id d ∧ e = .directionFull n.id d.name := by
  rcases stays_or_leaves h change with hstays | ⟨d, hd, hoff⟩
  · rw [nextOffset_of_stays hstays]
    refine iff_of_false (fun he => nomatch he) fun ⟨d, hd, hoff, _⟩ => ?_
    rw [hstays d hd] at hoff
    cases hoff
  · rw [nextOffset_of_leaves hd hoff, hd]
    split
    · next hfull =>
      constructor
      · rintro ⟨⟩
        exact ⟨d, rfl, hoff, hfull, rfl⟩
      · rintro ⟨_, ⟨⟩, -, -, rfl⟩
        rfl
    · next hroom =>
      refine iff_of_false (fun he => nomatch he) ?_
      rintro ⟨_, ⟨⟩, -, hfull, -⟩
      exact hroom hfull

omit [Scalar α] in
/-- No hook is on a direction that is none. -/
theorem peerCount_foreign (n : Node α) (id name : String) : n.peerCount id (.foreign name) = 0 := by
  simp [peerCount, Hook.isOn]

omit [Scalar α] in
/-- Where ids are distinct, all hooks on another direction are peers. -/
theorem peerCount_of_not_isOn (hids : (n.hooks.map (·.id)).Nodup) (hh : h ∈ n.hooks) {d : Term Direction}
    (hoff : h.isOn d = false) : n.peerCount h.id d = n.hookCount d := by
  refine List.countP_congr fun g hg => ?_
  rw [Bool.and_eq_true, decide_eq_true_eq]
  refine and_iff_right_of_imp fun hon hid => ?_
  rw [List.inj_on_of_nodup_map hids hg hh hid, hoff] at hon
  cases hon

end Flowchart.Node
