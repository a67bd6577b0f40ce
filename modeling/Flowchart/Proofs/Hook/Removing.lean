import Flowchart.Proofs.Hook.Spreading

/-!
# Removing the hook that was added

A hook that is added stands at the end, under an id that no other hook has (`freshHookId_not_mem`). Removing the hooks
with that id therefore takes away this one only, and the node still has hooks, so it does not get the default ones
(`removeHook_append`). Where adding has spread the hooks of the direction, spreading them once more gives the same as if
no hook had been added (`removing_undoes_adding`).
-/

namespace Flowchart.Node

variable {α : Type} [Scalar α] {n m : Node α} {d : Term Direction}

/-- The id that a hook gets when it is added. -/
def freshHookId (n : Node α) (d : Term Direction) : String :=
  hookName n.id d.name (freshNumber (n.hooks.map (·.id)) (hookName n.id d.name) (n.hookCount d))

omit [Scalar α] in
theorem freshHookId_not_mem (n : Node α) (d : Term Direction) : n.freshHookId d ∉ n.hooks.map (·.id) :=
  freshNumber_not_mem (hookName_injective n.id d.name) _ _

omit [Scalar α] in
theorem searchEnds_freshHookId (n : Node α) (d : Term Direction) :
    ∃ number, SearchEnds (n.hooks.map (·.id)) (hookName n.id d.name) (n.hookCount d) number ∧
      n.freshHookId d = hookName n.id d.name number :=
  ⟨_, (searchEnds_iff (hookName_injective n.id d.name)).2 rfl, rfl⟩

theorem removeHook_append {hooks : List (Hook α)} {hook : Hook α} (hne : hooks ≠ [])
    (hid : hook.id ∉ hooks.map (·.id)) : (n.withHooks (hooks ++ [hook])).removeHook hook.id = n.withHooks hooks := by
  have hothers : hooks.filter (fun h => h.id ≠ hook.id) = hooks := by
    refine List.filter_eq_self.2 fun h hh => decide_eq_true fun hsame => ?_
    exact hid (hsame ▸ List.mem_map_of_mem hh)
  have hrest : (hooks ++ [hook]).filter (fun h => h.id ≠ hook.id) = hooks := by
    rw [List.filter_append, hothers, List.filter_singleton]
    simp
  show withSomeHook (n.withHooks ((hooks ++ [hook]).filter fun h => h.id ≠ hook.id)) = _
  rw [hrest, withSomeHook_of_ne_nil hne]

/-- The hook that was added gets the last slot, and the others are spread as if there were one more. -/
theorem redistributeHooks_append {hook : Hook α} (hids : (n.hooks.map (·.id)).Nodup)
    (hid : hook.id ∉ n.hooks.map (·.id)) (hon : hook.isOn d = true) :
    (n.withHooks (n.hooks ++ [hook])).redistributeHooks d =
      n.withHooks (spread d (n.hookCount d + 1) 0 n.hooks ++
        [{ hook with offset := slotOffset (n.hookCount d + 1) (n.hookCount d) }]) := by
  have hnodup : ((n.withHooks (n.hooks ++ [hook])).hooks.map (·.id)).Nodup := nodup_map_id_append hids hid
  have hcount : (n.withHooks (n.hooks ++ [hook])).hookCount d = n.hookCount d + 1 := by
    show (n.hooks ++ [hook]).countP (·.isOn d) = n.hooks.countP (·.isOn d) + 1
    rw [List.countP_append, List.countP_singleton, if_pos hon]
  rw [redistributeHooks_of_nodup hnodup, hcount]
  show n.withHooks (spread d (n.hookCount d + 1) 0 (n.hooks ++ [hook])) = _
  rw [spread_append, spread_cons_of_isOn hon, Nat.zero_add]
  rfl

/-- Hooks that were spread over a side for any number of hooks are spread anew. -/
theorem redistributeHooks_spread (hids : (n.hooks.map (·.id)).Nodup) (total : Nat) :
    (n.withHooks (spread d total 0 n.hooks)).redistributeHooks d = n.redistributeHooks d := by
  have hnodup : ((n.withHooks (spread d total 0 n.hooks)).hooks.map (·.id)).Nodup := by
    show ((spread d total 0 n.hooks).map (·.id)).Nodup
    rwa [map_spread fun _ _ => rfl]
  have hcount : (n.withHooks (spread d total 0 n.hooks)).hookCount d = n.hookCount d := countP_spread
  rw [redistributeHooks_of_nodup hnodup, hcount, redistributeHooks_of_nodup hids]
  exact congrArg n.withHooks spread_spread

/-- A hook that was added among spread ones is removed, and the others are spread again. -/
theorem redistributeHooks_removeHook_append {hook : Hook α} (hne : n.hooks ≠ []) (hids : (n.hooks.map (·.id)).Nodup)
    (hid : hook.id ∉ n.hooks.map (·.id)) (hon : hook.isOn d = true) :
    (((n.withHooks (n.hooks ++ [hook])).redistributeHooks d).removeHook hook.id).redistributeHooks d =
      n.redistributeHooks d := by
  let placed : Hook α := { hook with offset := slotOffset (n.hookCount d + 1) (n.hookCount d) }
  let others := spread d (n.hookCount d + 1) 0 n.hooks
  have hkept : others.map (·.id) = n.hooks.map (·.id) := map_spread fun _ _ => rfl
  have hothers : others ≠ [] := by
    intro hnil
    rw [hnil] at hkept
    exact hne (List.map_eq_nil_iff.1 hkept.symm)
  have hfree : placed.id ∉ others.map (·.id) := by
    rw [hkept]
    exact hid
  have hremoved : (n.withHooks (others ++ [placed])).removeHook hook.id = n.withHooks others :=
    removeHook_append hothers hfree
  calc (((n.withHooks (n.hooks ++ [hook])).redistributeHooks d).removeHook hook.id).redistributeHooks d
      = ((n.withHooks (others ++ [placed])).removeHook hook.id).redistributeHooks d := by
        rw [redistributeHooks_append hids hid hon]
    _ = (n.withHooks others).redistributeHooks d := by rw [hremoved]
    _ = n.redistributeHooks d := redistributeHooks_spread hids _

/-- The search for the id of a new hook ends, at an id that no hook of the node has. The hook that is added under it
comes last, and removing this id undoes the addition: with a given offset the node is as before, and without one it is
as before up to spreading the hooks of the direction, if they have ids of their own. -/
theorem removing_undoes_adding (raw n : Node α) (hmake : raw.make = .ok n) (d : Term Direction) :
    ∃ id, (∃ number, SearchEnds (n.hooks.map (·.id)) (hookName n.id d.name) (n.hookCount d) number ∧
        id = hookName n.id d.name number) ∧
      (∀ h ∈ n.hooks, h.id ≠ id) ∧
      (∀ offset m, n.addHook d offset = .ok m → m.hooks.map (·.id) = n.hooks.map (·.id) ++ [id]) ∧
      (∀ offset m, n.addHook d (some offset) = .ok m → m.removeHook id = n) ∧
      ((n.hooks.map (·.id)).Nodup → ∀ m, n.addHook d none = .ok m →
        (m.removeHook id).redistributeHooks d = n.redistributeHooks d) := by
  have hne : n.hooks ≠ [] := by
    obtain ⟨-, rfl⟩ := make_eq_ok.1 hmake
    exact raw.withSomeHook_hooks_ne_nil
  have hfresh := n.freshHookId_not_mem d
  refine ⟨n.freshHookId d, n.searchEnds_freshHookId d, fun h hh hsame => ?_, fun offset m hm => ?_,
    fun offset m hm => ?_, fun hids m hm => ?_⟩
  · exact hfresh (hsame ▸ List.mem_map_of_mem hh)
  · obtain ⟨hook, -, -, hid, -, -, rfl⟩ := addHook_eq_ok hm
    have hlast : ((n.withHooks (n.hooks ++ [hook])).hooks).map (·.id) = n.hooks.map (·.id) ++ [n.freshHookId d] := by
      show (n.hooks ++ [hook]).map (·.id) = _
      rw [List.map_append, List.map_singleton, hid]
      rfl
    cases offset with
    | none => exact (map_id_redistributeHooks _ d).trans hlast
    | some x => exact hlast
  · obtain ⟨hook, -, -, hid, -, -, rfl⟩ := addHook_eq_ok hm
    have hid : hook.id = n.freshHookId d := hid
    rw [← hid] at hfresh ⊢
    exact removeHook_append hne hfresh
  · obtain ⟨hook, hd, -, hid, -, -, rfl⟩ := addHook_eq_ok hm
    have hid : hook.id = n.freshHookId d := hid
    rw [← hid] at hfresh ⊢
    exact redistributeHooks_removeHook_append hne hids hfresh (decide_eq_true hd.symm)

/-- One hook is on the top, and the next number is taken by a hook that has gone to the left. The hook that is added gets
the number after it. -/
theorem removing_undoes_adding_renamed :
    ∃ n added spread : Node Float,
      n = ⟨"n", .known .process, ⟨0, 0, 200, 80⟩, "", .absent,
        [⟨"n-hook-top-0", .top, 0.7, true⟩, ⟨"n-hook-top-1", .left, 0.1, true⟩]⟩ ∧
      n.make = .ok n ∧ n.addHook (.known .top) (some 0.2) = .ok added ∧ n.addHook (.known .top) none = .ok spread ∧
      added.hooks = n.hooks ++ [⟨"n-hook-top-2", .top, 0.2, true⟩] ∧
      spread.hooks = [⟨"n-hook-top-0", .top, 0.15, true⟩, ⟨"n-hook-top-1", .left, 0.1, true⟩,
        ⟨"n-hook-top-2", .top, 0.85, true⟩] ∧
      added.removeHook "n-hook-top-2" = n ∧
      (spread.removeHook "n-hook-top-2").redistributeHooks (.known .top) = n.redistributeHooks (.known .top) := by
  let n : Node Float := ⟨"n", .known .process, ⟨0, 0, 200, 80⟩, "", .absent,
    [⟨"n-hook-top-0", .top, 0.7, true⟩, ⟨"n-hook-top-1", .left, 0.1, true⟩]⟩
  let added := n.withHooks (n.hooks ++ [⟨"n-hook-top-2", .top, 0.2, true⟩])
  let spread := n.withHooks [⟨"n-hook-top-0", .top, 0.15, true⟩, ⟨"n-hook-top-1", .left, 0.1, true⟩,
    ⟨"n-hook-top-2", .top, 0.85, true⟩]
  have hmake : n.make = .ok n := by decide +kernel
  have hadded : n.addHook (.known .top) (some 0.2) = .ok added := by decide +kernel
  have hspread : n.addHook (.known .top) none = .ok spread := by decide +kernel
  obtain ⟨id, -, -, hids, hexact, hagain⟩ := removing_undoes_adding n n hmake (.known .top)
  obtain rfl : id = "n-hook-top-2" := by simpa [n, added, withHooks, eq_comm] using hids _ _ hadded
  exact ⟨n, added, spread, rfl, hmake, hadded, hspread, rfl, rfl, hexact _ _ hadded, hagain (by decide) _ hspread⟩

end Flowchart.Node
