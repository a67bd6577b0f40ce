import Flowchart.Numeric.Double
import Flowchart.Proofs.Interpretation.Rendering

/-!
# The ids of a chart are fresh

The parts of a chart have ids of their own, and none of them is the id of a node that was there already
(`interpret_freshlyNamed`). Which id a part has is told by its place among the parts of its kind: it has the number
at this place in the order of all free numbers, and looking for it comes to an end whatever ids are taken.
-/

namespace Flowchart.Interpretation

variable {α : Type}

/-- The ids of the parts of a kind, in the order in which they were added. -/
def idsOf (g : Graph α) : Part → List String
  | .node => g.nodes.map (·.id)
  | .connection => g.connections.map (·.id)
  | .container => g.containers.map (·.id)

/-- The ids of a chart are fresh where the ids `base` are taken. -/
structure FreshlyNamed (base : List String) (g : Graph α) : Prop where
  nodup : (idsOf g .node ++ idsOf g .connection ++ idsOf g .container).Nodup
  not_taken : ∀ p : Part, ∀ id ∈ idsOf g p, id ∉ base
  numbered : ∀ (p : Part) (k : Nat) (id : String), (idsOf g p)[k]? = some id → id = p.idAt (nthFree base p.idAt k)

section Charts

variable [Scalar α] {base : List String} {k : Sketch} {g : Graph α}

private theorem ids_of_edges (base : List String) (k : Sketch) :
    (k.edges base : List (Connection α)).map (·.id) =
      (List.range k.links.length).map (Part.nthId base .connection) := by
  rw [List.range_eq_range', ← List.zipIdx_map_snd, List.map_map, Sketch.edges, List.map_map]
  rfl

theorem Depicts.idsOf_eq (h : Depicts base k g) (p : Part) :
    idsOf g p = (List.range (k.count p)).map (p.nthId base) := by
  cases p with
  | node => exact ids_of_cards h.nodes
  | connection =>
    show g.connections.map (·.id) = _
    rw [h.connections]
    exact ids_of_edges base k
  | container => exact ids_of_rosters h.containers

theorem Depicts.mem_idsOf (h : Depicts base k g) {p : Part} {id : String} (hid : id ∈ idsOf g p) :
    ∃ i, id = p.nthId base i := by
  rw [h.idsOf_eq] at hid
  obtain ⟨i, -, rfl⟩ := List.mem_map.1 hid
  exact ⟨i, rfl⟩

private theorem Depicts.nodup_idsOf (h : Depicts base k g) (p : Part) : (idsOf g p).Nodup := by
  rw [h.idsOf_eq]
  exact List.nodup_range.map (Part.nthId_injective base p)

/-- An id tells the kind of its part. -/
private theorem Depicts.disjoint_idsOf (h : Depicts base k g) {p q : Part} (hpq : p ≠ q) :
    (idsOf g p).Disjoint (idsOf g q) := by
  intro id hp hq
  obtain ⟨i, hi⟩ := h.mem_idsOf hp
  obtain ⟨j, hj⟩ := h.mem_idsOf hq
  exact hpq (Part.nthId_inj.1 (hi.symm.trans hj)).1

theorem Depicts.freshlyNamed (h : Depicts base k g) : FreshlyNamed base g where
  nodup := by
    refine ((h.nodup_idsOf .node).append (h.nodup_idsOf .connection) (h.disjoint_idsOf (by decide))).append
      (h.nodup_idsOf .container) ?_
    rw [List.disjoint_append_left]
    exact ⟨h.disjoint_idsOf (by decide), h.disjoint_idsOf (by decide)⟩
  not_taken p id hid := by
    obtain ⟨i, rfl⟩ := h.mem_idsOf hid
    exact Part.nthId_not_mem base p i
  numbered p i id hid := by
    rw [h.idsOf_eq, List.getElem?_map] at hid
    obtain ⟨j, hj, rfl⟩ := Option.map_eq_some_iff.1 hid
    obtain ⟨hlt, hval⟩ := List.getElem?_eq_some_iff.1 hj
    rw [List.getElem_range] at hval
    rw [hval]
    rfl

end Charts

variable [Scalar α] [Trigonometry α]

/-- The ids of a chart are fresh: each part has the id of the free number at its place. Whatever ids are taken in a
state, the search for the next one ends. -/
theorem interpret_freshlyNamed :
    (∀ (settings : Settings α) (existing : List (Node α)) (outline : String) (g : Graph α),
      interpret settings existing outline = .ok g → FreshlyNamed (existing.map (·.id)) g) ∧
      ∀ (s : State α) (p : Part),
        ∃ m, SearchEnds s.taken p.idAt (s.counters.get p + 1) m ∧
          s.freshId p = (p.idAt m, { s with taken := p.idAt m :: s.taken, counters := s.counters.set m p }) :=
  ⟨fun _ _ _ _ h => (depicts_of_interpret h).freshlyNamed,
    fun _ p => ⟨_, (searchEnds_iff p.idAt_injective).2 rfl, rfl⟩⟩

/-- The numbers of the nodes and of the connections pass over an id of an existing node each. -/
theorem interpret_freshlyNamed_skipping :
    ∃ (m m' : Node Float) (g : Graph Float),
      m = ⟨"node-2", .known .process, ⟨300, 900, 200, 80⟩, "", .absent, Hook.defaults "node-2"⟩ ∧
        m' = { m with id := "conn-1", hooks := Hook.defaults "conn-1" } ∧
        interpret Options.none.settings [m, m'] "[Decisão] A?\n[Container] X\nSim → B\nNão → C" = .ok g ∧
        idsOf g .node = ["node-1", "node-3", "node-4"] ∧ idsOf g .connection = ["conn-2", "conn-3"] ∧
        idsOf g .container = ["container-1"] ∧ FreshlyNamed ["node-2", "conn-1"] g := by
  let m : Node Float := ⟨"node-2", .known .process, ⟨300, 900, 200, 80⟩, "", .absent, Hook.defaults "node-2"⟩
  let m' : Node Float := { m with id := "conn-1", hooks := Hook.defaults "conn-1" }
  have hrun : (interpret (Options.none : Options Float).settings [m, m']
      "[Decisão] A?\n[Container] X\nSim → B\nNão → C").map
        (fun g => (idsOf g .node, idsOf g .connection, idsOf g .container)) =
      .ok (["node-1", "node-3", "node-4"], ["conn-2", "conn-3"], ["container-1"]) := by decide +kernel
  obtain ⟨g, hg, hids⟩ := exists_eq_ok_of_map hrun
  obtain ⟨hnodes, hids⟩ := Prod.mk.inj hids
  obtain ⟨hconnections, hcontainers⟩ := Prod.mk.inj hids
  exact ⟨m, m', g, rfl, rfl, hg, hnodes, hconnections, hcontainers, interpret_freshlyNamed.1 _ _ _ g hg⟩

end Flowchart.Interpretation
