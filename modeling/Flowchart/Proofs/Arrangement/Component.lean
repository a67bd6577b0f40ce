import Flowchart.Arrangement.Component
import Mathlib.Data.List.Perm.Basic
import Mathlib.Data.List.Nodup

/-!
# The components of a graph

Each edge joins two components or leaves all of them as they are, so the vertices stay divided into components all
along (`isPartition_components`).
-/

namespace Flowchart.Arrangement

private theorem foldl_distinct (seen ids : List String) (h : seen.Nodup) :
    (ids.foldl (fun seen id => if seen.contains id then seen else seen ++ [id]) seen).Nodup ∧
      ∀ id, id ∈ ids.foldl (fun seen id => if seen.contains id then seen else seen ++ [id]) seen ↔
        id ∈ seen ∨ id ∈ ids := by
  induction ids generalizing seen with
  | nil => exact ⟨h, by simp⟩
  | cons first ids ih =>
    rw [List.foldl_cons]
    split
    · next hseen =>
      have hmem : first ∈ seen := by simpa using hseen
      obtain ⟨hnodup, hiff⟩ := ih seen h
      refine ⟨hnodup, fun id => (hiff id).trans ?_⟩
      rw [List.mem_cons]
      constructor
      · exact Or.imp_right .inr
      · rintro (hid | rfl | hid)
        · exact .inl hid
        · exact .inl hmem
        · exact .inr hid
    · next hseen =>
      have hnew : first ∉ seen := by simpa using hseen
      have hnodup : (seen ++ [first]).Nodup :=
        List.nodup_append.2 ⟨h, by simp, by rintro a ha b hb rfl; exact hnew (List.mem_singleton.1 hb ▸ ha)⟩
      obtain ⟨hrest, hiff⟩ := ih (seen ++ [first]) hnodup
      refine ⟨hrest, fun id => (hiff id).trans ?_⟩
      rw [List.mem_append, List.mem_singleton, List.mem_cons, or_assoc]

theorem nodup_distinct (ids : List String) : (distinct ids).Nodup :=
  (foldl_distinct [] ids .nil).1

@[simp] theorem mem_distinct {ids : List String} {id : String} : id ∈ distinct ids ↔ id ∈ ids := by
  unfold distinct
  rw [(foldl_distinct [] ids .nil).2 id]
  simp

/-- Whether the components divide the vertices among them, none of them being empty. -/
structure IsPartition (vertices : List String) (components : List (List String)) : Prop where
  perm : components.flatten.Perm vertices
  nonempty : ∀ c ∈ components, c ≠ []

variable {vertices : List String} {components : List (List String)}

namespace IsPartition

theorem nodup_flatten (h : IsPartition vertices components) (hnodup : vertices.Nodup) : components.flatten.Nodup :=
  h.perm.nodup_iff.2 hnodup

/-- Each vertex is in one of the components. -/
theorem exists_component (h : IsPartition vertices components) {v : String} (hv : v ∈ vertices) :
    ∃ c ∈ components, v ∈ c :=
  List.mem_flatten.1 (h.perm.mem_iff.2 hv)

theorem singletons (vertices : List String) : IsPartition vertices (vertices.map fun v => [v]) where
  perm := by rw [← List.flatMap_def]; simp
  nonempty c hc := by
    obtain ⟨v, -, rfl⟩ := List.mem_map.1 hc
    exact List.cons_ne_nil v []

end IsPartition

/-- The component of a vertex is put before all others. -/
private theorem perm_cons_filter {c : List String} {v : String} (hnodup : components.flatten.Nodup)
    (hc : c ∈ components) (hv : v ∈ c) : components.Perm (c :: components.filter fun d => !d.contains v) := by
  induction components with
  | nil => cases hc
  | cons d rest ih =>
    rw [List.flatten_cons, List.nodup_append] at hnodup
    obtain ⟨-, hrest, hdisjoint⟩ := hnodup
    by_cases hd : v ∈ d
    · have hothers : ∀ e ∈ rest, v ∉ e := fun e he hve =>
        hdisjoint v hd v (List.mem_flatten.2 ⟨e, he, hve⟩) rfl
      obtain rfl : c = d := (List.mem_cons.1 hc).resolve_right fun hc => hothers c hc hv
      have hkept : (rest.filter fun d => !d.contains v) = rest :=
        List.filter_eq_self.2 fun e he => by simpa using hothers e he
      rw [List.filter_cons_of_neg (by simpa using hd), hkept]
    · have hin : c ∈ rest := (List.mem_cons.1 hc).resolve_left fun h => hd (h ▸ hv)
      rw [List.filter_cons_of_pos (by simpa using hd)]
      exact ((ih hrest hin).cons d).trans (.swap c d _)

/-- What is put behind the component of a vertex is added to the vertices. -/
private theorem perm_flatten_map {c : List String} {v : String} (second : List String)
    (hnodup : components.flatten.Nodup) (hc : c ∈ components) (hv : v ∈ c) :
    (components.map fun d => if d.contains v then d ++ second else d).flatten.Perm (second ++ components.flatten) := by
  have hall := perm_cons_filter hnodup hc hv
  have hothers : ((components.filter fun d => !d.contains v).map fun d => if d.contains v then d ++ second else d) =
      components.filter fun d => !d.contains v := by
    refine (List.map_congr_left fun d hd => ?_).trans (List.map_id _)
    have hnot : d.contains v = false := by simpa using (List.mem_filter.1 hd).2
    rw [hnot]
    rfl
  have hmap := (hall.map fun d => if d.contains v then d ++ second else d).flatten
  rw [List.map_cons, hothers, if_pos (by simpa using hv), List.flatten_cons, List.append_assoc] at hmap
  have hfront := List.perm_append_comm_assoc c second (components.filter fun d => !d.contains v).flatten
  exact (hmap.trans hfront).trans (hall.flatten.symm.append_left second)

/-- Joining two components keeps the vertices. -/
private theorem perm_flatten_join (hnodup : components.flatten.Nodup) (edge : String × String) :
    (join components edge).flatten.Perm components.flatten := by
  unfold join
  split
  · next first second hfirst hsecond =>
    split
    · exact .refl _
    · next hne =>
      have hmem : edge.1 ∈ first := by simpa using List.find?_some hfirst
      have hmem' : edge.2 ∈ second := by simpa using List.find?_some hsecond
      have hall := perm_cons_filter hnodup (List.mem_of_find?_eq_some hsecond) hmem'
      have hothers := hall.flatten.nodup_iff.1 hnodup
      rw [List.flatten_cons, List.nodup_append] at hothers
      have hin : first ∈ components.filter fun c => !c.contains edge.2 :=
        List.mem_filter.2 ⟨List.mem_of_find?_eq_some hfirst, by simpa using hne⟩
      exact (perm_flatten_map second hothers.2.1 hin hmem).trans hall.flatten.symm
  · exact .refl _

private theorem nonempty_join (h : ∀ c ∈ components, c ≠ []) (edge : String × String) :
    ∀ c ∈ join components edge, c ≠ [] := by
  unfold join
  split
  · next first second _ _ =>
    split
    · exact h
    · intro c hc
      obtain ⟨d, hd, rfl⟩ := List.mem_map.1 hc
      have hne := h d (List.mem_filter.1 hd).1
      split
      · exact List.append_ne_nil_of_left_ne_nil hne second
      · exact hne
  · exact h

theorem IsPartition.join (hnodup : vertices.Nodup) (h : IsPartition vertices components) (edge : String × String) :
    IsPartition vertices (join components edge) where
  perm := (perm_flatten_join (h.nodup_flatten hnodup) edge).trans h.perm
  nonempty := nonempty_join h.nonempty edge

/-- The components of a graph divide its vertices among them. -/
theorem isPartition_components (hnodup : vertices.Nodup) (edges : List (String × String)) :
    IsPartition vertices (Arrangement.components vertices edges) := by
  have hrun : ∀ components, IsPartition vertices components → IsPartition vertices (edges.foldl join components) := by
    induction edges with
    | nil => exact fun _ h => h
    | cons edge edges ih => exact fun components h => ih (join components edge) (h.join hnodup edge)
  exact hrun _ (.singletons vertices)

end Flowchart.Arrangement
