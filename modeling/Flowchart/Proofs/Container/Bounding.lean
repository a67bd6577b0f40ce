import Flowchart.Proofs.Container.Fitting
import Flowchart.Proofs.Geometry.Hull
import Mathlib.Tactic.Ring

/-!
# Fitted containers enclose their members

In exact coordinates a fitted container is the hull of its members (`Fitting.encloses`). So the margins add up on
the way inwards: what lies `k` levels inside a container keeps `k` margins from its sides.
-/

namespace Flowchart

variable {α : Type}

/-- Going inwards from a container, from one container to another that it lists, one comes to a node in the given
number of steps. -/
inductive Reaches (nodes : List (Node α)) (cs : List (Container α)) : (steps : Nat) → Container α → Node α → Prop
  | node {c : Container α} {id : String} {n : Node α} :
      id ∈ c.nodeIds → nodeWithId? nodes id = some n → Reaches nodes cs 1 c n
  | inner {steps : Nat} {c d : Container α} {n : Node α} :
      d ∈ inside cs c → Reaches nodes cs steps d n → Reaches nodes cs (steps + 1) c n

/-- Each container that has a member is the smallest rectangle around its members, with a margin. -/
structure Encloses (margin : Rat) (nodes : List (Node Rat)) (cs : List (Container Rat)) : Prop where
  isHull : ∀ c ∈ cs, memberRects nodes (inside cs c) c ≠ [] →
    IsHull margin (memberRects nodes (inside cs c) c) c.rect
  /-- The margins add up on the way inwards. -/
  clearance : ∀ c ∈ cs, ∀ (steps : Nat) (n : Node Rat), Reaches nodes cs steps c n →
    c.rect.contains (n.rect.grown (steps * margin)) = true

theorem Container.isHull_around (c : Container Rat) {margin : Rat} {rects : List (Rect Rat)} (h : rects ≠ []) :
    IsHull margin rects (c.around margin rects).rect := by
  unfold around
  split
  · next box hbox => exact isHull_of_boundingBox? hbox
  · next hnone =>
    unfold boundingBox? at hnone
    simp [h] at hnone

variable {margin : Rat} {nodes : List (Node Rat)} {cs fitted : List (Container Rat)}

private theorem Fitting.isHull (h : Fitting nodes margin cs fitted) {c : Container Rat} (hc : c ∈ fitted)
    (hmembers : memberRects nodes (inside fitted c) c ≠ []) :
    IsHull margin (memberRects nodes (inside fitted c) c) c.rect := by
  rw [h] at hc
  obtain ⟨d, -, hd⟩ := List.mem_map.1 hc
  obtain ⟨r, hr⟩ := d.exists_around_eq margin (memberRects nodes (inside fitted d) d)
  -- fitting changes the rectangle only, so the members stay the same
  have hsame : memberRects nodes (inside fitted c) c = memberRects nodes (inside fitted d) d := by
    rw [← hd, hr]
    rfl
  rw [hsame] at hmembers ⊢
  rw [← hd]
  exact d.isHull_around hmembers

theorem Fitting.encloses (h : Fitting nodes margin cs fitted) : Encloses margin nodes fitted where
  isHull _ hc hmembers := h.isHull hc hmembers
  clearance c hc steps n hreaches := by
    induction hreaches with
    | @node c id n hid hn =>
      have hmem : n.rect ∈ memberRects nodes (inside fitted c) c :=
        List.mem_append_left _ (List.mem_map_of_mem (List.mem_filterMap.2 ⟨id, hid, hn⟩))
      rw [Nat.cast_one, one_mul]
      exact (h.isHull hc (List.ne_nil_of_mem hmem)).contains_grown _ hmem
    | @inner steps c d n hd _ ih =>
      have hmem : d.rect ∈ memberRects nodes (inside fitted c) c :=
        List.mem_append_right _ (List.mem_map_of_mem hd)
      have houter := (h.isHull hc (List.ne_nil_of_mem hmem)).contains_grown _ hmem
      have hsum : ((steps + 1 : Nat) : Rat) * margin = margin + steps * margin := by
        push_cast
        ring
      rw [hsum]
      exact Rect.contains_grown_trans houter (ih (mem_inside hd).1)

end Flowchart
