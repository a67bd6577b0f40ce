import Flowchart.Proofs.Fault
import Mathlib.Data.List.Induction

/-!
# Lists that grow at their end

A run takes up one entry after another, and the lists that it builds get new entries at their end. What is known
of such a list, or of such a run, is known of what there was before and of the last entry.
-/

namespace Flowchart

variable {ε α σ : Type}

theorem getElem?_concat_eq_some {xs : List α} {x y : α} {i : Nat} :
    (xs ++ [x])[i]? = some y ↔ xs[i]? = some y ∨ i = xs.length ∧ x = y := by
  rcases Nat.lt_trichotomy i xs.length with hlt | rfl | hgt
  · rw [List.getElem?_append_left hlt]
    exact ⟨.inl, fun h => h.resolve_right fun h => Nat.ne_of_lt hlt h.1⟩
  · simp
  · rw [List.getElem?_eq_none (by simp; omega), List.getElem?_eq_none (by omega)]
    simp
    omega

/-- The last entry of a list that is cut open at one of its entries is this one or stands behind it. -/
theorem concat_eq_append_cons {xs before after : List α} {x y : α} :
    xs ++ [x] = before ++ y :: after ↔
      xs = before ∧ x = y ∧ after = [] ∨ ∃ rest, after = rest ++ [x] ∧ xs = before ++ y :: rest := by
  constructor
  · intro h
    rcases List.eq_nil_or_concat after with rfl | ⟨rest, z, rfl⟩
    · obtain ⟨hxs, hx⟩ := List.append_inj' h rfl
      exact .inl ⟨hxs, List.singleton_inj.1 hx, rfl⟩
    · have hlast : xs ++ [x] = (before ++ y :: rest) ++ [z] := by simpa using h
      obtain ⟨hxs, hx⟩ := List.append_inj' hlast rfl
      exact .inr ⟨rest, by rw [List.singleton_inj.1 hx, List.concat_eq_append], hxs⟩
  · rintro (⟨rfl, rfl, rfl⟩ | ⟨rest, rfl, rfl⟩)
    · rfl
    · simp

theorem foldlM_concat_eq_ok {f : σ → α → Except ε σ} {xs : List α} {x : α} {s t : σ} :
    (xs ++ [x]).foldlM f s = .ok t ↔ ∃ r, xs.foldlM f s = .ok r ∧ f r x = .ok t := by
  rw [List.foldlM_append, bind_eq_ok]
  simp

/-- A run fails at one of its steps. -/
theorem exists_of_foldlM_eq_error {f : σ → α → Except ε σ} {xs : List α} {s : σ} {e : ε}
    (h : xs.foldlM f s = .error e) :
    ∃ before x after t, xs = before ++ x :: after ∧ before.foldlM f s = .ok t ∧ f t x = .error e := by
  induction xs generalizing s with
  | nil => cases h
  | cons x xs ih =>
    rw [List.foldlM_cons, bind_eq_error] at h
    rcases h with h | ⟨t, ht, h⟩
    · exact ⟨[], x, xs, s, rfl, rfl, h⟩
    · obtain ⟨before, y, after, u, rfl, hu, hy⟩ := ih h
      refine ⟨x :: before, y, after, u, rfl, ?_, hy⟩
      rw [List.foldlM_cons, ht]
      exact hu

/-- What every step keeps holds at the end of a run. -/
theorem foldlM_keeps {f : σ → α → Except ε σ} {p : σ → Prop}
    (hstep : ∀ s x t, p s → f s x = .ok t → p t) {xs : List α} {s t : σ} (hs : p s)
    (h : xs.foldlM f s = .ok t) : p t := by
  induction xs using List.reverseRecOn generalizing t with
  | nil => cases h; exact hs
  | append_singleton xs x ih =>
    obtain ⟨r, hr, hx⟩ := foldlM_concat_eq_ok.1 h
    exact hstep r x t (ih hr) hx

end Flowchart
