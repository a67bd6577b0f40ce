import Flowchart.Hook.Anchor
import Flowchart.Numeric.Double
import Flowchart.Proofs.Numeric.Order
import Mathlib.Data.List.Induction

/-!
# The hook that is caught

The hooks of a node are looked through in their order, with a bound that shrinks to the distance of each hook that is
taken. `Scanned` says what is known of the hooks that have been looked at: either none of them is within reach, or the
one that was taken last is within reach, no hook before it is nearer, and each one after it is farther away. Of all the
hooks it says that the one that is caught is the last one of the nearest (`nearest_hook_caught`).
-/

namespace Flowchart.Node

/-- How far a hook is from a point. -/
def hookDistance (n : Node Float) (p : Point Float) (h : Hook Float) : Float :=
  (n.hookPosition h).distance p

/-- What is known of the bound and of the hook that was taken after some hooks have been looked at. -/
inductive Scanned (distance : Hook Float → Float) (reach : Float) (hooks : List (Hook Float)) :
    Float × Option (Hook Float) → Prop
  | nothing : (∀ h ∈ hooks, ¬ distance h ≤ reach) → Scanned distance reach hooks (reach, none)
  | taken {before after : List (Hook Float)} {h : Hook Float} : hooks = before ++ h :: after → distance h ≤ reach →
      (∀ g ∈ before, (distance g).isNaN = false → distance h ≤ distance g) →
      (∀ g ∈ after, ¬ distance g ≤ distance h) → Scanned distance reach hooks (distance h, some h)

/-- A hook is taken if it is not farther away than the bound, which then becomes its distance. -/
def nearer (distance : Hook Float → Float) : Float × Option (Hook Float) → Hook Float → Float × Option (Hook Float)
  | (best, found), h => if distance h ≤ best then (distance h, some h) else (best, found)

variable {distance : Hook Float → Float} {reach : Float} {hooks : List (Hook Float)}

/-- The hook that was taken last is not farther away than any hook that has been looked at. -/
private theorem le_of_taken {before after : List (Hook Float)} {h : Hook Float} (hhooks : hooks = before ++ h :: after)
    (hh : (distance h).isNaN = false) (hbefore : ∀ g ∈ before, (distance g).isNaN = false → distance h ≤ distance g)
    (hafter : ∀ g ∈ after, ¬ distance g ≤ distance h) :
    ∀ g ∈ hooks, (distance g).isNaN = false → distance h ≤ distance g := by
  intro g hg hnumber
  rw [hhooks, List.mem_append, List.mem_cons] at hg
  rcases hg with hg | rfl | hg
  · exact hbefore g hg hnumber
  · exact Double.le_refl hnumber
  · exact Double.le_of_not_le hnumber hh (hafter g hg)

theorem Scanned.nearer {state : Float × Option (Hook Float)} (hs : Scanned distance reach hooks state) (k : Hook Float) :
    Scanned distance reach (hooks ++ [k]) (nearer distance state k) := by
  unfold Node.nearer
  cases hs with
  | nothing hnone =>
    simp only
    split
    · next hk =>
      -- what is out of reach is farther away than what is within it
      refine .taken rfl hk (fun g hg hnumber => ?_) (by simp)
      have hreach := (Double.le_iff.1 hk).2.1
      exact Double.le_trans hk (Double.le_of_not_le hnumber hreach (hnone g hg))
    · next hk =>
      refine .nothing fun h hh => ?_
      rcases List.mem_append.1 hh with hh | hh
      · exact hnone h hh
      · rwa [List.mem_singleton.1 hh]
  | @taken before after h hhooks hreach hbefore hafter =>
    simp only
    split
    · next hk =>
      refine .taken rfl (Double.le_trans hk hreach) (fun g hg hnumber => ?_) (by simp)
      have hh := (Double.le_iff.1 hk).2.1
      exact Double.le_trans hk (le_of_taken hhooks hh hbefore hafter g hg hnumber)
    · next hk =>
      have hsplit : hooks ++ [k] = before ++ h :: (after ++ [k]) := by
        rw [hhooks, List.append_assoc, List.cons_append]
      refine .taken hsplit hreach hbefore fun g hg => ?_
      rcases List.mem_append.1 hg with hg | hg
      · exact hafter g hg
      · rwa [List.mem_singleton.1 hg]

theorem scanned_foldl (distance : Hook Float → Float) (reach : Float) (hooks : List (Hook Float)) :
    Scanned distance reach hooks (hooks.foldl (nearer distance) (reach, none)) := by
  induction hooks using List.reverseRecOn with
  | nil => exact .nothing (by simp)
  | append_singleton hooks k ih =>
    rw [List.foldl_append]
    exact ih.nearer k

/-- Whether a hook of a node is within reach of a point, no hook is nearer to it, and every later hook is farther away. -/
def IsLastNearest (n : Node Float) (p : Point Float) (reach : Float) (h : Hook Float) : Prop :=
  ∃ before after, n.hooks = before ++ h :: after ∧ n.hookDistance p h ≤ reach ∧
    (∀ g ∈ n.hooks, (n.hookDistance p g).isNaN = false → n.hookDistance p h ≤ n.hookDistance p g) ∧
    ∀ g ∈ after, ¬ n.hookDistance p g ≤ n.hookDistance p h

theorem scanned_nearestHook? (n : Node Float) (p : Point Float) (reach : Float) :
    ∃ best, Scanned (n.hookDistance p) reach n.hooks (best, n.nearestHook? p reach) :=
  ⟨_, scanned_foldl (n.hookDistance p) reach n.hooks⟩

/-- No hook is caught if and only if none is within reach of the point. The hook that is caught otherwise is within
reach, no hook whose distance is a number is nearer, and of the nearest hooks it is the last one. -/
theorem nearest_hook_caught (n : Node Float) (p : Point Float) (reach : Float) :
    (n.nearestHook? p reach = none ↔ ∀ h ∈ n.hooks, ¬ n.hookDistance p h ≤ reach) ∧
      ∀ h, n.nearestHook? p reach = some h → n.IsLastNearest p reach h := by
  obtain ⟨best, hs⟩ := n.scanned_nearestHook? p reach
  generalize n.nearestHook? p reach = found at hs
  cases hs with
  | nothing hnone => exact ⟨iff_of_true rfl hnone, fun h hh => nomatch hh⟩
  | @taken before after h hhooks hreach hbefore hafter =>
    have hmem : h ∈ n.hooks := hhooks ▸ List.mem_append_right before List.mem_cons_self
    refine ⟨iff_of_false (Option.some_ne_none h) fun hnone => hnone h hmem hreach, ?_⟩
    rintro _ ⟨⟩
    have hh := (Double.le_iff.1 hreach).1
    exact ⟨before, after, hhooks, hreach, le_of_taken hhooks hh hbefore hafter, hafter⟩

/-- Of two hooks at one place the later one is caught, also where the place is just within reach. -/
example :
    (⟨"n", .known .process, ⟨0, 0, 200, 80⟩, "", .absent,
      [⟨"a", .top, 0.5, true⟩, ⟨"b", .top, 0.5, false⟩, ⟨"c", .left, 0.5, true⟩]⟩ : Node Float).nearestHook?
        ⟨100, -30⟩ 30 = some ⟨"b", .top, 0.5, false⟩ := by
  decide +kernel

end Flowchart.Node
