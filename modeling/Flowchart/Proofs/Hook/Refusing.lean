import Flowchart.Proofs.Hook.Changing
import Flowchart.Proofs.Numeric.Order

/-!
# Edits that are refused

Adding a hook is refused if the direction is none, if it is full, or if the given offset does not lie on the side
(`addHook_eq_error`). Changing a hook is refused if no hook has the id; otherwise only on account of the direction,
since every offset is moved onto the side: the direction is none, or it is another one and full. The empty name is no
direction either, but a change to it is never refused (`editing_refused_iff`, `empty_direction_accepted`).
-/

namespace Flowchart

/-- Whether a text is the name of a direction. -/
def IsDirectionName (s : String) : Prop :=
  ∃ d : Direction, Vocabulary.name d = s

theorem Direction.mem_words (d : Direction) : d ∈ (Vocabulary.words : List Direction) := by
  cases d <;> decide

instance (s : String) : Decidable (IsDirectionName s) :=
  decidable_of_iff (∃ d ∈ (Vocabulary.words : List Direction), Vocabulary.name d = s)
    ⟨fun ⟨d, _, hd⟩ => ⟨d, hd⟩, fun ⟨d, hd⟩ => ⟨d, d.mem_words, hd⟩⟩

/-- A direction is read from its name, and any other text is none. -/
theorem Term.ofName_cases (s : String) :
    (∃ d : Direction, Vocabulary.name d = s ∧ (Term.ofName s : Term Direction) = .known d) ∨
      ¬ IsDirectionName s ∧ (Term.ofName s : Term Direction) = .foreign s := by
  unfold Term.ofName
  split
  · next d hd => exact .inl ⟨d, Vocabulary.name_of_find? hd, rfl⟩
  · next hnone =>
    refine .inr ⟨fun ⟨d, hd⟩ => ?_, rfl⟩
    exact absurd (decide_eq_true hd) (List.find?_eq_none.1 hnone d d.mem_words)

theorem Term.ofName_eq_foreign {s name : String} :
    (Term.ofName s : Term Direction) = .foreign name ↔ ¬ IsDirectionName s ∧ name = s := by
  rcases Term.ofName_cases s with ⟨d, hd, hs⟩ | ⟨hno, hs⟩
  · rw [hs]
    exact iff_of_false (fun h => nomatch h) fun h => h.1 ⟨d, hd⟩
  · rw [hs, Term.foreign.injEq]
    exact ⟨fun h => ⟨hno, h.symm⟩, fun h => h.2.symm⟩

variable {α : Type} [Scalar α]

theorem Hook.make_eq_error {id : String} {direction : Term Direction} {offset : α} {visible : Bool} {e : Fault α} :
    Hook.make id direction offset visible = .error e ↔
      (∃ name, direction = .foreign name ∧ e = .unknownDirection name) ∨
        (∃ d, direction = .known d) ∧ ¬ (0 ≤ offset ∧ offset ≤ 1) ∧ e = .offsetOutside offset := by
  cases direction with
  | foreign name => simp [Hook.make, eq_comm]
  | known d =>
    unfold Hook.make
    simp only
    split
    · next hside => simp [hside]
    · next hside => simp [hside, eq_comm]

namespace Node

variable {n : Node α}

theorem addHook_eq_error {d : Term Direction} {offset : Option α} {e : Fault α} :
    n.addHook d offset = .error e ↔
      maxHooksPerDirection ≤ n.hookCount d ∧ e = .directionFull n.id d.name ∨
        n.hookCount d < maxHooksPerDirection ∧
          ((∃ name, d = .foreign name ∧ e = .unknownDirection name) ∨
            (∃ k, d = .known k) ∧ ¬ (0 ≤ offset.getD 0.5 ∧ offset.getD 0.5 ≤ 1) ∧
              e = .offsetOutside (offset.getD 0.5)) := by
  let name := hookName n.id d.name
  have hmake : Hook.make (name (freshNumber (n.hooks.map (·.id)) name (n.hookCount d))) d (offset.getD 0.5) true =
      .error e ↔ _ := Hook.make_eq_error
  rw [← hmake]
  unfold addHook
  split
  · next hfull =>
    have hfull : maxHooksPerDirection ≤ n.hookCount d := by simpa [canAddHook] using hfull
    simp [hfull, not_lt.2 hfull, eq_comm]
  · next hroom =>
    have hroom : n.hookCount d < maxHooksPerDirection := by simpa [canAddHook] using hroom
    rw [bind_eq_error]
    simp only [not_le.2 hroom, hroom, false_and, true_and, false_or]
    refine ⟨fun h => ?_, .inl⟩
    rcases h with h | ⟨_, -, h⟩
    · exact h
    · cases offset <;> cases h

/-- In which cases a hook cannot be added. -/
theorem exists_addHook_eq_error [StandardSizes α] (n : Node α) (d : String) (offset : Option α) :
    (∃ e, n.addHook (.ofName d) offset = .error e) ↔
      ¬ IsDirectionName d ∨ maxHooksPerDirection ≤ n.hookCount (.ofName d) ∨ ∃ x ∈ offset, ¬ (0 ≤ x ∧ x ≤ 1) := by
  simp only [addHook_eq_error]
  constructor
  · rintro ⟨e, ⟨hfull, -⟩ | ⟨-, ⟨name, hname, -⟩ | ⟨-, hside, -⟩⟩⟩
    · exact .inr (.inl hfull)
    · exact .inl (Term.ofName_eq_foreign.1 hname).1
    · cases offset with
      | none => exact absurd StandardSizes.middle hside
      | some x => exact .inr (.inr ⟨x, rfl, hside⟩)
  · intro h
    by_cases hfull : maxHooksPerDirection ≤ n.hookCount (.ofName d)
    · exact ⟨_, .inl ⟨hfull, rfl⟩⟩
    · rcases Term.ofName_cases d with ⟨k, hk, hd⟩ | ⟨hno, hd⟩
      · rcases h with hno | hfull' | ⟨x, rfl, hside⟩
        · exact absurd ⟨k, hk⟩ hno
        · exact absurd hfull' hfull
        · exact ⟨_, .inr ⟨not_le.1 hfull, .inr ⟨⟨k, hd⟩, hside, rfl⟩⟩⟩
      · exact ⟨_, .inr ⟨not_le.1 hfull, .inl ⟨d, hd, rfl⟩⟩⟩

/-- Where a hook is added without an offset, there was room for it. -/
theorem canAddHook_of_addHook {d : Term Direction} {offset : Option α} {m : Node α}
    (hm : n.addHook d offset = .ok m) : n.canAddHook d = true := by
  obtain ⟨-, -, hroom, -⟩ := addHook_eq_ok hm
  exact decide_eq_true hroom

/-- A change whose direction is given by its name. -/
def changeNamed (direction : Option String) (offset : Option α) (visible : Option Bool) : HookChange α :=
  ⟨direction.map Term.ofName, offset, visible⟩

omit [Scalar α] in
theorem goal_changeNamed_eq_foreign {direction : Option String} {offset : Option α} {visible : Option Bool}
    {h : Hook α} {name : String} :
    (changeNamed direction offset visible).goal h = .foreign name ↔
      name ∈ direction ∧ name ≠ "" ∧ ¬ IsDirectionName name := by
  unfold HookChange.goal changeNamed
  cases direction with
  | none => simp
  | some d =>
    simp only [Option.map_some, Term.name_ofName, Option.mem_def, Option.some.injEq]
    split
    · next hempty => simp +contextual [hempty]
    · next hne =>
      rw [Term.ofName_eq_foreign]
      constructor
      · rintro ⟨hno, rfl⟩
        exact ⟨rfl, hne, hno⟩
      · rintro ⟨rfl, -, hno⟩
        exact ⟨hno, rfl⟩

/-- Why a hook that is there cannot be changed: the direction is none, or it is another one and full. -/
inductive ChangeRefused (n : Node α) (h : Hook α) (direction : Option String) : Fault α → Prop
  | unknown {d : String} : d ∈ direction → d ≠ "" → ¬ IsDirectionName d →
      ChangeRefused n h direction (.unknownDirection d)
  | full {d : String} : d ∈ direction → h.isOn (.ofName d) = false →
      maxHooksPerDirection ≤ n.peerCount h.id (.ofName d) → ChangeRefused n h direction (.directionFull n.id d)

/-- Every offset that is chosen for a hook can be moved onto the side. -/
private theorem isNaN_of_nextOffset {n : Node Float} (hn : ∀ h ∈ n.hooks, 0 ≤ h.offset ∧ h.offset ≤ 1) {h : Hook Float}
    (hh : h ∈ n.hooks) {change : HookChange Float} (hgiven : ∀ x ∈ change.offset, x.isFinite = true) {offset : Float}
    (hoffset : n.nextOffset h change = .ok offset) : offset.isNaN = false := by
  have hnumber : ∀ other : Float, 0 ≤ other → (change.offset.getD other).isNaN = false := by
    intro other hother
    cases hchange : change.offset with
    | none => exact (Double.le_iff.1 hother).2.1
    | some x => exact Double.isNaN_of_isFinite (hgiven x hchange)
  rcases stays_or_leaves h change with hstays | ⟨d, hd, hoff⟩
  · rw [nextOffset_of_stays hstays] at hoffset
    rw [← Except.ok.inj hoffset]
    exact hnumber _ (hn h hh).1
  · rw [nextOffset_of_leaves hd hoff] at hoffset
    split at hoffset
    · cases hoffset
    · next hroom =>
      rw [← Except.ok.inj hoffset]
      exact hnumber _ (UnitSlots.slotOffset_mem _ (by omega) _ (by omega)).1

theorem updateHook_eq_error {n : Node Float} (hn : ∀ h ∈ n.hooks, 0 ≤ h.offset ∧ h.offset ≤ 1) {h : Hook Float}
    (hhook : n.hook h.id = .ok h) {direction : Option String} {offset : Option Float} {visible : Option Bool}
    (hgiven : ∀ x ∈ offset, x.isFinite = true) {e : Fault Float} :
    n.updateHook h.id (changeNamed direction offset visible) = .error e ↔ n.ChangeRefused h direction e := by
  have hh := (mem_of_hook hhook).1
  rw [updateHook_eq_error_iff hhook, nextOffset_eq_error]
  constructor
  · rintro (⟨d, hd, hoff, hfull, rfl⟩ | ⟨x, hx, hmake⟩)
    · obtain ⟨s, hs, rfl⟩ := Option.map_eq_some_iff.1 hd
      rw [Term.name_ofName]
      exact .full hs hoff hfull
    · have hside := Double.clampUnit_mem (isNaN_of_nextOffset hn hh hgiven hx)
      rcases Hook.make_eq_error.1 hmake with ⟨name, hname, rfl⟩ | ⟨-, hout, -⟩
      · obtain ⟨hs, hne, hno⟩ := goal_changeNamed_eq_foreign.1 hname
        exact .unknown hs hne hno
      · exact absurd hside hout
  · rintro (⟨hs, hne, hno⟩ | ⟨hs, hoff, hfull⟩)
    · next d =>
      right
      have hforeign : Term.ofName d = (.foreign d : Term Direction) := Term.ofName_eq_foreign.2 ⟨hno, rfl⟩
      have hd : (changeNamed direction offset visible).direction = some (.foreign d) := by
        rw [← hforeign]
        exact congrArg (Option.map Term.ofName) hs
      refine ⟨_, (nextOffset_of_leaves hd (by simp [Hook.isOn])).trans (if_neg ?_), Hook.make_eq_error.2 (.inl ?_)⟩
      · rw [peerCount_foreign]
        decide
      · exact ⟨d, goal_changeNamed_eq_foreign.2 ⟨hs, hne, hno⟩, rfl⟩
    · next d =>
      exact .inl ⟨.ofName d, congrArg (Option.map Term.ofName) hs, hoff, hfull, by rw [Term.name_ofName]⟩

theorem updateHook_eq_noHook {n : Node Float} {id : String} {direction : Option String} {offset : Option Float}
    {visible : Option Bool} (hids : (n.hooks.map (·.id)).Nodup) (hn : ∀ h ∈ n.hooks, 0 ≤ h.offset ∧ h.offset ≤ 1)
    (hgiven : ∀ x ∈ offset, x.isFinite = true) :
    n.updateHook id (changeNamed direction offset visible) = .error (.noHook n.id id) ↔ ∀ h ∈ n.hooks, h.id ≠ id := by
  constructor
  · rintro he h hh rfl
    have hrefused := (updateHook_eq_error hn (hook_of_mem hids hh) hgiven).1 he
    cases hrefused
  · intro hnone
    exact bind_eq_error.2 (.inl (hook_eq_error.2 ⟨hnone, rfl⟩))

/-- When an edit of a node whose hooks have ids of their own is refused. Adding: if the name is that of no direction, if
five hooks are on the direction, or if a given offset is not from 0 to 1. Changing: if no hook has the id, and else only
if a name is given that is not empty and that of no direction, or that of another direction on which five other hooks
are. -/
theorem editing_refused_iff (n : Node Float)
    (hhooks : ∀ h ∈ n.hooks, Hook.make h.id (.known h.direction) h.offset h.visible = .ok h)
    (hids : (n.hooks.map (·.id)).Nodup) :
    (∀ (d : String) (offset : Option Float), (∃ e, n.addHook (.ofName d) offset = .error e) ↔
        ¬ IsDirectionName d ∨ 5 ≤ n.hookCount (.ofName d) ∨ ∃ x ∈ offset, ¬ (0 ≤ x ∧ x ≤ 1)) ∧
      (∀ (d : String) (m : Node Float), n.addHook (.ofName d) none = .ok m → n.canAddHook (.ofName d) = true) ∧
      ∀ (id : String) (direction : Option String) (offset : Option Float) (visible : Option Bool),
        (∀ x ∈ offset, x.isFinite = true) →
          (n.updateHook id (changeNamed direction offset visible) = .error (.noHook n.id id) ↔
            ∀ h ∈ n.hooks, h.id ≠ id) ∧
          ∀ h ∈ n.hooks, h.id = id → ∀ e, n.updateHook id (changeNamed direction offset visible) = .error e ↔
            n.ChangeRefused h direction e := by
  have hn : ∀ h ∈ n.hooks, 0 ≤ h.offset ∧ h.offset ≤ 1 := fun h hh => (Hook.make_known_eq_ok.1 (hhooks h hh)).1
  refine ⟨n.exists_addHook_eq_error, fun d m hm => canAddHook_of_addHook hm, fun id direction offset visible hgiven => ?_⟩
  refine ⟨updateHook_eq_noHook hids hn hgiven, ?_⟩
  rintro h hh rfl e
  exact updateHook_eq_error hn (hook_of_mem hids hh) hgiven

/-- With five hooks on the top, none is added there and none comes to it from the left. The hook on the left can be moved
within its side, however large the offset is, and under its empty name. -/
theorem editing_refused_iff_crowded :
    ∃ n : Node Float,
      n = ⟨"n", .known .process, ⟨0, 0, 200, 80⟩, "", .absent,
        [⟨"a", .top, 0, true⟩, ⟨"b", .top, 0.1, true⟩, ⟨"c", .top, 0.2, true⟩, ⟨"l", .left, 0.3, true⟩,
          ⟨"d", .top, 0.4, true⟩, ⟨"e", .top, 1, false⟩]⟩ ∧
      (∀ h ∈ n.hooks, Hook.make h.id (.known h.direction) h.offset h.visible = .ok h) ∧
      (n.hooks.map (·.id)).Nodup ∧ (∃ e, n.addHook (.ofName "top") (some 0.5) = .error e) ∧
      (¬ ∃ e, n.addHook (.ofName "left") (some 1) = .error e) ∧
      n.updateHook "l" (changeNamed (some "top") (some 0.5) none) = .error (.directionFull "n" "top") ∧
      n.updateHook "l" (changeNamed (some "above") none none) = .error (.unknownDirection "above") ∧
      (∀ e, n.updateHook "l" (changeNamed (some "left") (some 1e300) none) ≠ .error e) ∧
      (∀ e, n.updateHook "l" (changeNamed (some "") none none) ≠ .error e) ∧
      n.updateHook "k" (changeNamed (some "above") none none) = .error (.noHook "n" "k") := by
  let n : Node Float := ⟨"n", .known .process, ⟨0, 0, 200, 80⟩, "", .absent,
    [⟨"a", .top, 0, true⟩, ⟨"b", .top, 0.1, true⟩, ⟨"c", .top, 0.2, true⟩, ⟨"l", .left, 0.3, true⟩,
      ⟨"d", .top, 0.4, true⟩, ⟨"e", .top, 1, false⟩]⟩
  have hhooks : ∀ h ∈ n.hooks, Hook.make h.id (.known h.direction) h.offset h.visible = .ok h := by decide +kernel
  have hids : (n.hooks.map (·.id)).Nodup := by decide
  obtain ⟨hadd, -, hchange⟩ := editing_refused_iff n hhooks hids
  have hleft : (⟨"l", .left, 0.3, true⟩ : Hook Float) ∈ n.hooks := by simp [n]
  have hnone : ∀ x ∈ (none : Option Float), x.isFinite = true := by simp
  refine ⟨n, rfl, hhooks, hids, (hadd _ _).2 (.inr (.inl (by decide))), fun h => ?_, ?_, ?_, fun e he => ?_,
    fun e he => ?_, ?_⟩
  · rcases (hadd _ _).1 h with hno | hfull | ⟨x, hx, hside⟩
    · exact absurd hno (by decide)
    · exact absurd hfull (by decide)
    · obtain rfl := Option.some.inj hx
      exact hside (by decide +kernel)
  · exact ((hchange "l" (some "top") (some 0.5) none (by decide +kernel)).2 _ hleft rfl _).2 (.full rfl rfl (by decide))
  · exact ((hchange "l" (some "above") none none hnone).2 _ hleft rfl _).2 (.unknown rfl (by decide) (by decide))
  · rcases ((hchange "l" (some "left") (some 1e300) none (by decide +kernel)).2 _ hleft rfl _).1 he with
      ⟨hd, -, hno⟩ | ⟨hd, hoff, -⟩
    · obtain rfl := Option.some.inj hd
      exact absurd hno (by decide)
    · obtain rfl := Option.some.inj hd
      exact absurd hoff (by decide)
  · rcases ((hchange "l" (some "") none none hnone).2 _ hleft rfl _).1 he with ⟨hd, hne, -⟩ | ⟨hd, -, hfull⟩
    · obtain rfl := Option.some.inj hd
      exact hne rfl
    · obtain rfl := Option.some.inj hd
      exact absurd hfull (by decide)
  · exact (hchange "k" (some "above") none none hnone).1.2 (by decide)

/-- The empty name is that of no direction, and no hook can be added under it. But a change to it succeeds: the hook stays
on its direction, and yet it is moved to the middle, as a hook that comes to a direction without hooks. -/
theorem empty_direction_accepted :
    ¬ IsDirectionName "" ∧ ∃ n m : Node Float,
      n = ⟨"n", .known .process, ⟨0, 0, 200, 80⟩, "", .absent, [⟨"a", .top, 0.2, true⟩]⟩ ∧ n.make = .ok n ∧
      (n.hooks.map (·.id)).Nodup ∧ n.addHook (.ofName "") none = .error (.unknownDirection "") ∧
      n.updateHook "a" (changeNamed (some "") none none) = .ok m ∧ m.hooks = [⟨"a", .top, 0.5, true⟩] := by
  exact ⟨by decide, _, _, rfl, by decide +kernel, by decide, by decide +kernel, rfl, by decide +kernel⟩

end Node

end Flowchart
