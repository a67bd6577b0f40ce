import Flowchart.Node
import Flowchart.Numeric.Double
import Flowchart.Numeric.Exact
import Flowchart.Proofs.Fault

/-!
# Nodes that pass their checks

A node is built with a positive size and at least one hook, and each of its hooks with an offset from 0 to 1. A node
that was built so passes the same checks again (`Node.sound_of_make`).
-/

namespace Flowchart

/-- Scalars in which the standard sizes are positive and the middle of a side lies on it. -/
class StandardSizes (α : Type) [Scalar α] : Prop where
  width_pos (kind : NodeKind) : ¬ (kind.width : α) ≤ 0
  height_pos : ¬ (nodeHeight : α) ≤ 0
  middle : (0 : α) ≤ 0.5 ∧ (0.5 : α) ≤ 1

instance : StandardSizes Float where
  width_pos kind := by cases kind <;> decide +kernel
  height_pos := by decide +kernel
  middle := by decide +kernel

instance : StandardSizes Rat where
  width_pos kind := by cases kind <;> decide +kernel
  height_pos := by decide +kernel
  middle := by decide +kernel

variable {α : Type} [Scalar α]

theorem Hook.make_known_eq_ok {id : String} {d : Direction} {offset : α} {visible : Bool} {h : Hook α} :
    Hook.make id (.known d) offset visible = .ok h ↔
      (0 ≤ offset ∧ offset ≤ 1) ∧ h = ⟨id, d, offset, visible⟩ := by
  simp only [make]
  split <;> simp [*, eq_comm]

/-- What is built as a hook has a known direction and an offset from 0 to 1. -/
theorem Hook.make_eq_ok {id : String} {direction : Term Direction} {offset : α} {visible : Bool} {h : Hook α}
    (hmake : Hook.make id direction offset visible = .ok h) :
    direction = .known h.direction ∧ h.id = id ∧ h.offset = offset ∧ 0 ≤ h.offset ∧ h.offset ≤ 1 := by
  cases direction with
  | foreign name => cases hmake
  | known d =>
    obtain ⟨⟨h₀, h₁⟩, rfl⟩ := Hook.make_known_eq_ok.1 hmake
    exact ⟨rfl, rfl, rfl, h₀, h₁⟩

theorem Hook.make_of_mem_defaults [StandardSizes α] {id : String} {h : Hook α} (hh : h ∈ Hook.defaults id) :
    Hook.make h.id (.known h.direction) h.offset h.visible = .ok h := by
  obtain ⟨d, -, rfl⟩ := List.mem_map.1 hh
  exact if_pos StandardSizes.middle

namespace Node

/-- A node that passes its own check as it is, and each of its hooks passes the check of a hook. -/
structure Sound (n : Node α) : Prop where
  make_eq : n.make = .ok n
  hooks : ∀ h ∈ n.hooks, Hook.make h.id (.known h.direction) h.offset h.visible = .ok h

theorem withSomeHook_of_ne_nil {n : Node α} (h : n.hooks ≠ []) : n.withSomeHook = n :=
  if_neg (by simpa using h)

theorem withSomeHook_hooks_ne_nil (n : Node α) : n.withSomeHook.hooks ≠ [] := by
  unfold withSomeHook
  split
  · exact List.cons_ne_nil _ _
  · simpa using ‹¬ n.hooks.isEmpty = true›

theorem make_eq_self {n : Node α} :
    n.make = .ok n ↔ ¬ (n.rect.width ≤ 0 ∨ n.rect.height ≤ 0) ∧ n.hooks ≠ [] := by
  rw [make_eq_ok]
  refine and_congr_right fun _ => ⟨fun h => ?_, fun h => (withSomeHook_of_ne_nil h).symm⟩
  rw [h]
  exact n.withSomeHook_hooks_ne_nil

/-- The check looks at the size only. -/
theorem make_withSomeHook (n : Node α) : n.withSomeHook.make = n.make := by
  unfold make
  rw [withSomeHook_rect, withSomeHook_id, withSomeHook_of_ne_nil n.withSomeHook_hooks_ne_nil]

theorem sound_of_defaults [StandardSizes α] {n : Node α} (kind : NodeKind) (hwidth : n.rect.width = kind.width)
    (hheight : n.rect.height = nodeHeight) {id : String} (hhooks : n.hooks = Hook.defaults id) : n.Sound where
  make_eq := by
    refine make_eq_self.2 ⟨?_, ?_⟩
    · rw [hwidth, hheight]
      exact not_or.2 ⟨StandardSizes.width_pos kind, StandardSizes.height_pos⟩
    · rw [hhooks]
      exact List.cons_ne_nil _ _
  hooks h hh := Hook.make_of_mem_defaults (hhooks ▸ hh)

/-- What is built from sound hooks is sound. -/
theorem sound_of_make [StandardSizes α] {raw n : Node α}
    (hhooks : ∀ h ∈ raw.hooks, Hook.make h.id (.known h.direction) h.offset h.visible = .ok h)
    (hmake : raw.make = .ok n) : n.Sound := by
  obtain ⟨hsize, rfl⟩ := make_eq_ok.1 hmake
  refine ⟨make_eq_self.2 ⟨by simpa using hsize, raw.withSomeHook_hooks_ne_nil⟩, fun h hh => ?_⟩
  unfold withSomeHook at hh
  split at hh
  · exact Hook.make_of_mem_defaults hh
  · exact hhooks h hh

end Node

end Flowchart
