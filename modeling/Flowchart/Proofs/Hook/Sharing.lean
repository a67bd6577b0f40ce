import Flowchart.Proofs.Hook.Editing

/-!
# Hooks that share an id

Nodes are accepted whether or not their hooks have ids of their own. The operations that edit hooks put the list together
again by ids, and so hooks that share an id with an edited one may be edited with it. Exactly when the others are left
alone is said by `others_untouched_iff`: a direction is spread without moving a hook of another one if each of these sits
at the slot that its id is given, and changing a hook never changes another one if no two hooks share its id.
-/

namespace Flowchart.Node

variable {α : Type} [Scalar α] {n m : Node α} {id : String}

/-- Whether spreading the hooks of a direction leaves all other hooks as they are, each at its place. -/
def SpreadsAlone (n : Node α) (d : Term Direction) : Prop :=
  ∀ (p : Nat) (h : Hook α), n.hooks[p]? = some h → h.isOn d = false → (n.redistributeHooks d).hooks[p]? = some h

/-- The place of the hook that is found under an id. -/
def placeOf (n : Node α) (id : String) : Nat :=
  n.hooks.findIdx (·.id = id)

/-- Whether the hooks of a node are those of another one, but for the hook that is found under an id. -/
def ReplacesOnly (n : Node α) (id : String) (m : Node α) : Prop :=
  ∃ h, m.hooks = n.hooks.set (n.placeOf id) h

theorem spreadsAlone_iff {d : Term Direction} :
    n.SpreadsAlone d ↔ ∀ h ∈ n.hooks, h.isOn d = false → ∀ i, n.IsLastOn d h.id i →
      h.offset = slotOffset (n.hookCount d) i := by
  have hplace : ∀ (p : Nat) (h : Hook α), n.hooks[p]? = some h →
      (n.redistributeHooks d).hooks[p]? =
        some { h with offset := (n.assignedOffset? d h.id).getD h.offset } := by
    intro p h hp
    rw [redistributeHooks_eq_map]
    show (n.hooks.map _)[p]? = _
    rw [List.getElem?_map, hp]
    rfl
  constructor
  · intro halone h hh hoff i hlast
    obtain ⟨p, hp⟩ := List.mem_iff_getElem?.1 hh
    have hsame := halone p h hp hoff
    rw [hplace p h hp, assignedOffset?_eq_some.2 ⟨i, hlast, rfl⟩, Option.some.injEq] at hsame
    exact congrArg Hook.offset hsame.symm
  · intro hslots p h hp hoff
    rw [hplace p h hp]
    cases hassigned : n.assignedOffset? d h.id with
    | none => rfl
    | some x =>
      obtain ⟨i, hlast, rfl⟩ := assignedOffset?_eq_some.1 hassigned
      rw [← hslots h (List.mem_of_getElem? hp) hoff i hlast]
      rfl

omit [Scalar α] in
/-- The hook that is found under an id is the first one that has it. -/
theorem exists_of_hook {h : Hook α} (hhook : n.hook id = .ok h) :
    ∃ before after, n.hooks = before ++ h :: after ∧ h.id = id ∧ (∀ g ∈ before, g.id ≠ id) ∧
      n.placeOf id = before.length := by
  unfold Node.hook at hhook
  split at hhook
  · next found hfound =>
    obtain rfl := Except.ok.inj hhook
    obtain ⟨hid, before, after, hhooks, hbefore⟩ := List.find?_eq_some_iff_append.1 hfound
    have hfirst : ∀ g ∈ before, g.id ≠ id := fun g hg => by simpa using hbefore g hg
    refine ⟨before, after, hhooks, of_decide_eq_true hid, hfirst, ?_⟩
    have hnotFound : ¬before.findIdx (fun g => decide (g.id = id)) < before.length := by
      rw [List.findIdx_lt_length]
      simpa using hfirst
    rw [placeOf, hhooks, List.findIdx_append, if_neg hnotFound, List.findIdx_cons, hid]
    exact Nat.zero_add _
  · cases hhook

omit [Scalar α] in
/-- Putting a hook in the place of all those with an id replaces only the first one exactly if the others were that hook
already. -/
theorem replacesOnly_iff {before after : List (Hook α)} {h updated : Hook α} (hhooks : n.hooks = before ++ h :: after)
    (hid : h.id = id) (hbefore : ∀ g ∈ before, g.id ≠ id) (hplace : n.placeOf id = before.length) :
    n.ReplacesOnly id (n.withHooks (n.hooks.map fun g => if g.id = id then updated else g)) ↔
      ∀ k ∈ after, k.id = id → k = updated := by
  have hmapped : (n.hooks.map fun g => if g.id = id then updated else g) =
      before ++ updated :: after.map fun g => if g.id = id then updated else g := by
    have hfixed : (before.map fun g => if g.id = id then updated else g) = before :=
      (List.map_congr_left fun g hg => if_neg (hbefore g hg)).trans (List.map_id' before)
    rw [hhooks, List.map_append, hfixed, List.map_cons, if_pos hid]
  have hset : ∀ g, n.hooks.set (n.placeOf id) g = before ++ g :: after := by
    intro g
    rw [hplace, hhooks, List.set_append_right _ _ (le_refl _), Nat.sub_self, List.set_cons_zero]
  show (∃ g, _ = _) ↔ _
  simp only [hset]
  show (∃ g, (n.hooks.map fun g => if g.id = id then updated else g) = _) ↔ _
  rw [hmapped]
  constructor
  · rintro ⟨g, hg⟩ k hk hkid
    have hafter := (List.cons.inj (List.append_cancel_left hg)).2
    have hkept : (if k.id = id then updated else k) = k :=
      List.map_inj_left.1 (hafter.trans (List.map_id' after).symm) k hk
    rw [← hkept, if_pos hkid]
  · intro hsame
    refine ⟨updated, congrArg (fun rest => before ++ updated :: rest) ?_⟩
    refine (List.map_congr_left fun k hk => ?_).trans (List.map_id' after)
    split
    · next hkid => exact (hsame k hk hkid).symm
    · rfl

/-- A change is always possible that puts the hook in the middle and shows or hides it. -/
theorem updateHook_middle {n : Node Float} {h : Hook Float} (hhook : n.hook id = .ok h) (visible : Bool) :
    n.updateHook id ⟨none, some 0.5, some visible⟩ =
      .ok (n.withHooks (n.hooks.map fun g => if g.id = id then ⟨id, h.direction, 0.5, visible⟩ else g)) := by
  have hmiddle : Scalar.clampUnit (0.5 : Float) = 0.5 := by decide +kernel
  have hmake : Hook.make id (.known h.direction) (Scalar.clampUnit (0.5 : Float)) visible =
      .ok ⟨id, h.direction, 0.5, visible⟩ := by
    rw [hmiddle, Hook.make_known_eq_ok]
    exact ⟨by decide +kernel, rfl⟩
  exact bind_eq_ok.2 ⟨h, hhook, bind_eq_ok.2 ⟨0.5, rfl, bind_eq_ok.2 ⟨_, hmake, rfl⟩⟩⟩

/-- Every change of the hook with an id replaces only that hook if and only if no other hook has the id. -/
theorem replacesOnly_updateHook_iff {n : Node Float} :
    (∀ change m, n.updateHook id change = .ok m → n.ReplacesOnly id m) ↔ n.hooks.countP (·.id = id) ≤ 1 := by
  cases hhook : n.hook id with
  | error fault =>
    -- no hook has the id, and no change succeeds
    have hnone : n.hooks.countP (·.id = id) = 0 := by
      unfold Node.hook at hhook
      split at hhook
      · cases hhook
      · next hmissing => exact List.countP_eq_zero.2 (List.find?_eq_none.1 hmissing)
    refine iff_of_true (fun change m hm => ?_) (hnone.trans_le zero_le_one)
    obtain ⟨h, hh, -⟩ := bind_eq_ok.1 hm
    rw [hhook] at hh
    cases hh
  | ok h =>
    obtain ⟨before, after, hhooks, hid, hbefore, hplace⟩ := exists_of_hook hhook
    have hcount : n.hooks.countP (·.id = id) ≤ 1 ↔ ∀ k ∈ after, k.id ≠ id := by
      have hnone : before.countP (·.id = id) = 0 := List.countP_eq_zero.2 (by simpa using hbefore)
      have hrest : after.countP (·.id = id) = 0 ↔ ∀ k ∈ after, k.id ≠ id := by simp [List.countP_eq_zero]
      rw [hhooks, List.countP_append, hnone, List.countP_cons, if_pos (decide_eq_true hid), ← hrest]
      omega
    rw [hcount]
    constructor
    · -- a later hook with the id would be shown if it is hidden, and hidden if it is shown
      intro honly k hk hkid
      have hreplaced := honly _ _ (updateHook_middle hhook !k.visible)
      have hsame := (replacesOnly_iff hhooks hid hbefore hplace).1 hreplaced k hk hkid
      exact absurd (congrArg Hook.visible hsame) (by simp)
    · intro hafter change m hm
      obtain ⟨-, -, updated, -, -, -, -, rfl⟩ := updateHook_eq_ok hm
      exact (replacesOnly_iff hhooks hid hbefore hplace).2 fun k hk hkid => absurd hkid (hafter k hk)

/-- When edits leave the other hooks as they are. Spreading a direction moves no hook of another one if and only if each
hook of another one whose id is also on the direction sits at the slot of the last hook there that has the id. Changing
the hook that is found under an id, in whatever way, changes no other hook if and only if no other hook has the id. -/
theorem others_untouched_iff (n : Node Float) :
    (∀ d, n.SpreadsAlone d ↔ ∀ h ∈ n.hooks, h.isOn d = false → ∀ i, n.IsLastOn d h.id i →
        h.offset = slotOffset (n.hookCount d) i) ∧
      (∀ id h, n.hook id = .ok h → n.hooks[n.placeOf id]? = some h) ∧
      ∀ id, (∀ change m, n.updateHook id change = .ok m → n.ReplacesOnly id m) ↔
        n.hooks.countP (·.id = id) ≤ 1 := by
  refine ⟨fun d => spreadsAlone_iff, fun id h hhook => ?_, fun id => replacesOnly_updateHook_iff⟩
  obtain ⟨before, after, hhooks, -, -, hplace⟩ := exists_of_hook hhook
  rw [hplace, hhooks, List.getElem?_append_right (le_refl _), Nat.sub_self, List.getElem?_cons_zero]

/-- Two hooks share an id. The one on the left sits at the slot that spreading the top gives to their id, but not the
other way round; a hook with an id of its own is changed alone. -/
theorem others_untouched_iff_slotted :
    ∃ n : Node Float,
      n = ⟨"n", .known .process, ⟨0, 0, 200, 80⟩, "", .absent,
        [⟨"a", .top, 0.2, true⟩, ⟨"b", .top, 0.9, true⟩, ⟨"a", .left, 0.15, false⟩]⟩ ∧
      n.make = .ok n ∧ n.SpreadsAlone (.known .top) ∧ ¬ n.SpreadsAlone (.known .left) ∧
      n.hooks[n.placeOf "a"]? = some ⟨"a", .top, 0.2, true⟩ ∧
      (∀ change m, n.updateHook "b" change = .ok m → n.ReplacesOnly "b" m) ∧
      ¬ ∀ change m, n.updateHook "a" change = .ok m → n.ReplacesOnly "a" m := by
  let n : Node Float := ⟨"n", .known .process, ⟨0, 0, 200, 80⟩, "", .absent,
    [⟨"a", .top, 0.2, true⟩, ⟨"b", .top, 0.9, true⟩, ⟨"a", .left, 0.15, false⟩]⟩
  obtain ⟨hspread, hfound, hchange⟩ := others_untouched_iff n
  refine ⟨n, rfl, by decide +kernel, (hspread _).2 fun h hh hoff i hlast => ?_, fun halone => ?_,
    hfound "a" _ (by decide +kernel), (hchange "b").2 (by decide +kernel), fun honly => ?_⟩
  · have hslots : ∀ h ∈ n.hooks, h.isOn (.known .top) = false →
        n.assignedOffset? (.known .top) h.id = some h.offset := by decide +kernel
    exact Option.some.inj ((hslots h hh hoff).symm.trans (assignedOffset?_eq_some.2 ⟨i, hlast, rfl⟩))
  · have hlast : n.IsLastOn (.known .left) "a" 0 := ⟨[], _, [], rfl, rfl, by simp, rfl⟩
    have hslot := (hspread _).1 halone ⟨"a", .top, 0.2, true⟩ (by simp [n]) rfl 0 hlast
    exact absurd hslot (by decide +kernel)
  · exact absurd ((hchange "a").1 honly) (by decide +kernel)

/-- Spreading the top moves a hook on the left that shares its id with the one on the top, and changing the hook that
is found under another id makes a second hook with that id the same as the changed one. -/
theorem shared_id_touched :
    ∃ n m : Node Float,
      n = ⟨"n", .known .process, ⟨0, 0, 200, 80⟩, "", .absent,
        [⟨"a", .top, 0.2, true⟩, ⟨"a", .left, 0.3, true⟩, ⟨"b", .right, 0.4, true⟩, ⟨"b", .bottom, 0.6, false⟩]⟩ ∧
      n.make = .ok n ∧ ¬ n.SpreadsAlone (.known .top) ∧
      (n.redistributeHooks (.known .top)).hooks = [⟨"a", .top, 0.5, true⟩, ⟨"a", .left, 0.5, true⟩,
        ⟨"b", .right, 0.4, true⟩, ⟨"b", .bottom, 0.6, false⟩] ∧
      n.hook "b" = .ok ⟨"b", .right, 0.4, true⟩ ∧ n.updateHook "b" ⟨none, some 0.9, none⟩ = .ok m ∧
      ¬ n.ReplacesOnly "b" m ∧
      m.hooks = [⟨"a", .top, 0.2, true⟩, ⟨"a", .left, 0.3, true⟩, ⟨"b", .right, 0.9, true⟩,
        ⟨"b", .right, 0.9, true⟩] := by
  let n : Node Float := ⟨"n", .known .process, ⟨0, 0, 200, 80⟩, "", .absent,
    [⟨"a", .top, 0.2, true⟩, ⟨"a", .left, 0.3, true⟩, ⟨"b", .right, 0.4, true⟩, ⟨"b", .bottom, 0.6, false⟩]⟩
  let m := n.withHooks
    [⟨"a", .top, 0.2, true⟩, ⟨"a", .left, 0.3, true⟩, ⟨"b", .right, 0.9, true⟩, ⟨"b", .right, 0.9, true⟩]
  refine ⟨n, m, rfl, by decide +kernel, fun halone => ?_, by decide +kernel, by decide +kernel, by decide +kernel,
    fun ⟨h, hm⟩ => ?_, rfl⟩
  · have hleft := halone 1 _ rfl rfl
    exact absurd hleft (by decide +kernel)
  · have hplace : n.placeOf "b" = 2 := by decide +kernel
    rw [hplace] at hm
    have hlast : m.hooks[3]? = n.hooks[3]? := by
      rw [hm]
      rfl
    exact absurd hlast (by decide +kernel)

end Flowchart.Node
