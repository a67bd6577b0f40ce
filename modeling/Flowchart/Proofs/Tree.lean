import Flowchart.Graph
import Mathlib.Data.List.Nodup
import Mathlib.Logic.Relation

/-!
# Charts that are trees

A chart grows when each connection leads from a node that is there to the next new one (`Grows`). Such a chart is
a tree whose root is its first node (`Grows.isTree`): the nodes rise along the connections, so there is no way
back, and going back from node to node one comes to the first one.
-/

namespace Flowchart.Graph

variable {α : Type}

/-- Whether a connection leads from one node to another. -/
def Leads (g : Graph α) (source target : String) : Prop :=
  ∃ c ∈ g.connections, c.source = source ∧ c.target = target

def connectionsTo (g : Graph α) (id : String) : List (Connection α) :=
  g.connections.filter (·.target = id)

/-- The nodes are distinct; the connections lead to all nodes but the first, in their order, and each of them
starts at a node before its end. -/
structure Grows (g : Graph α) : Prop where
  ids_nodup : (g.nodes.map (·.id)).Nodup
  targets : g.connections.map (·.target) = (g.nodes.map (·.id)).drop 1
  source_before : ∀ (i : Nat) (c : Connection α), g.connections[i]? = some c →
    ∃ j ≤ i, (g.nodes.map (·.id))[j]? = some c.source

/-- A tree whose root is the first node. -/
structure IsTree (g : Graph α) : Prop where
  ids_nodup : (g.nodes.map (·.id)).Nodup
  connections_length : g.connections.length = g.nodes.length - 1
  /-- The connection with number `i` ends at the node with number `i + 1` and starts at an earlier one. -/
  connection_ends : ∀ (i : Nat) (c : Connection α), g.connections[i]? = some c →
    (∃ m, g.nodes[i + 1]? = some m ∧ c.target = m.id) ∧ ∃ j ≤ i, ∃ n, g.nodes[j]? = some n ∧ c.source = n.id
  no_dangling : g.danglingConnections = []
  no_selfLoop : g.selfLoops = []
  no_cycle : ∀ id, ¬ Relation.TransGen g.Leads id id
  incoming : ∀ (i : Nat) (n : Node α), g.nodes[i]? = some n →
    (g.connectionsTo n.id).length = if i = 0 then 0 else 1
  reached : ∀ r n, g.nodes.head? = some r → n ∈ g.nodes → Relation.ReflTransGen g.Leads r.id n.id

namespace Grows

variable {g : Graph α}

theorem connections_length (h : g.Grows) : g.connections.length = g.nodes.length - 1 := by
  simpa using congrArg List.length h.targets

theorem target_eq (h : g.Grows) {i : Nat} {c : Connection α} (hc : g.connections[i]? = some c) :
    (g.nodes.map (·.id))[i + 1]? = some c.target := by
  have htargets := congrArg (·[i]?) h.targets
  simpa [hc, Nat.add_comm 1 i] using htargets.symm

theorem connection_ends (h : g.Grows) {i : Nat} {c : Connection α} (hc : g.connections[i]? = some c) :
    (∃ m, g.nodes[i + 1]? = some m ∧ c.target = m.id) ∧
      ∃ j ≤ i, ∃ n, g.nodes[j]? = some n ∧ c.source = n.id := by
  constructor
  · have htarget := h.target_eq hc
    rw [List.getElem?_map] at htarget
    obtain ⟨m, hm, hid⟩ := Option.map_eq_some_iff.1 htarget
    exact ⟨m, hm, hid.symm⟩
  · obtain ⟨j, hj, hsource⟩ := h.source_before i c hc
    rw [List.getElem?_map] at hsource
    obtain ⟨n, hn, hid⟩ := Option.map_eq_some_iff.1 hsource
    exact ⟨j, hj, n, hn, hid.symm⟩

/-- The place of a node among all nodes. -/
private theorem idxOf_of_getElem? (h : g.Grows) {i : Nat} {id : String}
    (hid : (g.nodes.map (·.id))[i]? = some id) : (g.nodes.map (·.id)).idxOf id = i := by
  obtain ⟨hi, rfl⟩ := List.getElem?_eq_some_iff.1 hid
  exact h.ids_nodup.idxOf_getElem i hi

/-- A connection leads forward. -/
private theorem idxOf_lt_of_leads (h : g.Grows) {a b : String} (hab : g.Leads a b) :
    (g.nodes.map (·.id)).idxOf a < (g.nodes.map (·.id)).idxOf b := by
  obtain ⟨c, hc, rfl, rfl⟩ := hab
  obtain ⟨i, hi⟩ := List.mem_iff_getElem?.1 hc
  obtain ⟨j, hj, hsource⟩ := h.source_before i c hi
  rw [h.idxOf_of_getElem? hsource, h.idxOf_of_getElem? (h.target_eq hi)]
  omega

theorem no_cycle (h : g.Grows) (id : String) : ¬ Relation.TransGen g.Leads id id := by
  have hlt : ∀ {a b}, Relation.TransGen g.Leads a b →
      (g.nodes.map (·.id)).idxOf a < (g.nodes.map (·.id)).idxOf b := by
    intro a b hab
    induction hab with
    | single hstep => exact h.idxOf_lt_of_leads hstep
    | tail _ hstep ih => exact Nat.lt_trans ih (h.idxOf_lt_of_leads hstep)
  exact fun hcycle => Nat.lt_irrefl _ (hlt hcycle)

private theorem idxOf_source_lt (h : g.Grows) {c : Connection α} (hc : c ∈ g.connections) :
    (g.nodes.map (·.id)).idxOf c.source < (g.nodes.map (·.id)).idxOf c.target :=
  h.idxOf_lt_of_leads ⟨c, hc, rfl, rfl⟩

theorem no_selfLoop (h : g.Grows) : g.selfLoops = [] := by
  unfold selfLoops
  rw [List.filter_eq_nil_iff]
  intro c hc hloop
  have hlt := h.idxOf_source_lt hc
  rw [show c.source = c.target by simpa [Connection.isSelfLoop] using hloop] at hlt
  omega

theorem no_dangling (h : g.Grows) : g.danglingConnections = [] := by
  have hhas : ∀ {i : Nat} {id : String}, (g.nodes.map (·.id))[i]? = some id → g.hasNode id = true := by
    intro i id hid
    obtain ⟨n, hn, rfl⟩ := List.mem_map.1 (List.mem_of_getElem? hid)
    exact List.any_eq_true.2 ⟨n, hn, by simp⟩
  unfold danglingConnections
  rw [List.filter_eq_nil_iff]
  intro c hc
  obtain ⟨i, hi⟩ := List.mem_iff_getElem?.1 hc
  obtain ⟨j, -, hsource⟩ := h.source_before i c hi
  rw [hhas hsource, hhas (h.target_eq hi)]
  simp

private theorem filter_eq_singleton {β : Type} {p : β → Bool} {l : List β} {i : Nat} {x : β} (hx : l[i]? = some x)
    (hp : ∀ (j : Nat) (y : β), l[j]? = some y → (p y = true ↔ j = i)) : l.filter p = [x] := by
  induction l generalizing i with
  | nil => cases hx
  | cons y l ih =>
    have hy := hp 0 y rfl
    cases i with
    | zero =>
      obtain rfl := Option.some.inj hx
      have hrest : l.filter p = [] := by
        rw [List.filter_eq_nil_iff]
        intro z hz hpz
        obtain ⟨j, hj⟩ := List.mem_iff_getElem?.1 hz
        have := (hp (j + 1) z hj).1 hpz
        omega
      rw [List.filter_cons_of_pos (hy.2 rfl), hrest]
    | succ i =>
      have hneg : ¬ p y = true := by
        rw [hy]
        omega
      rw [List.filter_cons_of_neg hneg]
      refine ih hx fun j z hz => ?_
      rw [hp (j + 1) z hz, Nat.add_right_cancel_iff]

/-- Only the connection with its number leads to a node. -/
private theorem target_eq_iff (h : g.Grows) {i j : Nat} {n : Node α} {c : Connection α}
    (hn : g.nodes[i]? = some n) (hc : g.connections[j]? = some c) : c.target = n.id ↔ j + 1 = i := by
  have hid : (g.nodes.map (·.id))[i]? = some n.id := by rw [List.getElem?_map, hn]; rfl
  constructor
  · intro htarget
    rw [← h.idxOf_of_getElem? (h.target_eq hc), ← h.idxOf_of_getElem? hid, htarget]
  · rintro rfl
    exact Option.some.inj ((h.target_eq hc).symm.trans hid)

theorem connectionsTo_first (h : g.Grows) {n : Node α} (hn : g.nodes[0]? = some n) :
    g.connectionsTo n.id = [] := by
  unfold connectionsTo
  rw [List.filter_eq_nil_iff]
  intro c hc htarget
  obtain ⟨j, hj⟩ := List.mem_iff_getElem?.1 hc
  have := (h.target_eq_iff hn hj).1 (by simpa using htarget)
  omega

theorem connectionsTo_succ (h : g.Grows) {i : Nat} {n : Node α} {c : Connection α}
    (hn : g.nodes[i + 1]? = some n) (hc : g.connections[i]? = some c) : g.connectionsTo n.id = [c] := by
  refine filter_eq_singleton hc fun j d hd => ?_
  rw [decide_eq_true_iff, h.target_eq_iff hn hd, Nat.add_right_cancel_iff]

/-- Every node but the first has its connection. -/
theorem exists_connection (h : g.Grows) {i : Nat} {n : Node α} (hn : g.nodes[i + 1]? = some n) :
    ∃ c, g.connections[i]? = some c := by
  have hlt := (List.getElem?_eq_some_iff.1 hn).1
  have hlength := h.connections_length
  exact ⟨_, List.getElem?_eq_getElem (show i < g.connections.length by omega)⟩

theorem incoming (h : g.Grows) {i : Nat} {n : Node α} (hn : g.nodes[i]? = some n) :
    (g.connectionsTo n.id).length = if i = 0 then 0 else 1 := by
  cases i with
  | zero =>
    rw [h.connectionsTo_first hn]
    rfl
  | succ i =>
    obtain ⟨c, hc⟩ := h.exists_connection hn
    rw [h.connectionsTo_succ hn hc]
    rfl

/-- Every node but the first is led to from an earlier one, so going back one comes to the first. -/
theorem reached (h : g.Grows) {r n : Node α} (hr : g.nodes.head? = some r) (hn : n ∈ g.nodes) :
    Relation.ReflTransGen g.Leads r.id n.id := by
  obtain ⟨i, hi⟩ := List.mem_iff_getElem?.1 hn
  -- induction on the number of the node: it hangs below one with a smaller number
  induction i using Nat.strongRecOn generalizing n with
  | ind i ih =>
    cases i with
    | zero =>
      rw [← List.head?_eq_getElem?, hr] at hi
      obtain rfl := Option.some.inj hi
      exact .refl
    | succ i =>
      obtain ⟨c, hc⟩ := h.exists_connection hi
      obtain ⟨-, j, hj, m, hm, hsource⟩ := h.connection_ends hc
      have htarget := (h.target_eq_iff hi hc).2 rfl
      have hbefore := ih j (by omega) (List.mem_of_getElem? hm) hm
      exact hbefore.tail ⟨c, List.mem_of_getElem? hc, hsource, htarget⟩

end Grows

theorem Grows.isTree {g : Graph α} (h : g.Grows) : g.IsTree where
  ids_nodup := h.ids_nodup
  connections_length := h.connections_length
  connection_ends _ _ := h.connection_ends
  no_dangling := h.no_dangling
  no_selfLoop := h.no_selfLoop
  no_cycle := h.no_cycle
  incoming _ _ := h.incoming
  reached _ _ := h.reached

end Flowchart.Graph
