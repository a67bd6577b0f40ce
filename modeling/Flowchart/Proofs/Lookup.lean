import Mathlib.Data.List.Nodup

/-!
# Looking up entries

Entries are found under their ids, either in a list of pairs or as the last entry of a list that has a given id. Where
ids are distinct, what is found under the id of an entry is the entry itself (`lookup_eq_some_of_mem`,
`find?_reverse_id`).
-/

namespace Flowchart

variable {β : Type}

theorem mem_of_lookup_eq_some {entries : List (String × β)} {id : String} {x : β} (h : entries.lookup id = some x) :
    (id, x) ∈ entries := by
  obtain ⟨before, after, rfl, -⟩ := List.lookup_eq_some_iff.1 h
  exact List.mem_append_right before List.mem_cons_self

theorem lookup_eq_some_of_mem {entries : List (String × β)} (hids : (entries.map (·.1)).Nodup) {entry : String × β}
    (h : entry ∈ entries) : entries.lookup entry.1 = some entry.2 := by
  induction entries with
  | nil => cases h
  | cons first rest ih =>
    rw [List.map_cons, List.nodup_cons] at hids
    rw [List.lookup_cons]
    rcases List.mem_cons.1 h with rfl | h
    · simp
    · have hid : entry.1 ≠ first.1 := fun hid => hids.1 (hid ▸ List.mem_map_of_mem h)
      rw [beq_eq_false_iff_ne.2 hid]
      exact ih hids.2 h

/-- Where ids are distinct, the last entry with an id is the one that has it. -/
theorem find?_reverse_id (idOf : β → String) {xs : List β} (hids : (xs.map idOf).Nodup) {id : String}
    {x : β} : xs.reverse.find? (idOf · = id) = some x ↔ x ∈ xs ∧ idOf x = id := by
  constructor
  · intro h
    exact ⟨List.mem_reverse.1 (List.mem_of_find?_eq_some h), by simpa using List.find?_some h⟩
  · rintro ⟨hx, rfl⟩
    have hsome : (xs.reverse.find? (idOf · = idOf x)).isSome := by
      rw [List.find?_isSome]
      exact ⟨x, List.mem_reverse.2 hx, by simp⟩
    obtain ⟨y, hy⟩ := Option.isSome_iff_exists.1 hsome
    have hmem : y ∈ xs := List.mem_reverse.1 (List.mem_of_find?_eq_some hy)
    have hid : idOf y = idOf x := by simpa using List.find?_some hy
    rw [hy, List.inj_on_of_nodup_map hids hmem hx hid]

/-- Looking up an entry commutes with a map that keeps the ids. -/
theorem find?_reverse_map (idOf : β → String) {t : β → β} (ht : ∀ x, idOf (t x) = idOf x) (xs : List β)
    (id : String) : (xs.map t).reverse.find? (idOf · = id) = (xs.reverse.find? (idOf · = id)).map t := by
  rw [← List.map_reverse, List.find?_map]
  congr 2
  funext x
  simp [ht]

end Flowchart
