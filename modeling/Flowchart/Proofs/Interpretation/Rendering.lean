import Flowchart.Proofs.Interpretation.Sketch
import Flowchart.Proofs.Interpretation.Numbered
import Flowchart.Proofs.Interpretation.Emission

/-!
# Charts render sketches

An interpretation that succeeds gives the sketch of its outline, with the ids in their order put in the place of
the numbers (`depicts_of_interpret`). The proof goes along the lines: `Renders` relates a state to the sketch of
the lines before it, and `Renders.step` is the case of one line.
-/

namespace Flowchart.Interpretation

open Outline (Answer Content)

variable {α : Type}

/-- What is seen of a node apart from its place and its hooks. -/
structure Card where
  id : String
  kind : Term NodeKind
  text : String
  container : Reference
deriving DecidableEq, Repr

def cardOf (n : Node α) : Card :=
  ⟨n.id, n.kind, n.text, n.container⟩

/-- What is seen of a container apart from its place. -/
structure Roster where
  id : String
  name : String
  parent : Option String
  depth : Nat
  nodeIds : List String
  children : List String
deriving DecidableEq, Repr

def rosterOf (c : Container α) : Roster :=
  ⟨c.id, c.name, c.parent, c.depth, c.nodeIds, c.children⟩

def Draft.roster (d : Draft α) : Roster :=
  ⟨d.id, d.name, d.parent, d.depth, d.nodeIds, d.children⟩

namespace Sketch

section Ids

variable (base : List String) (k : Sketch)

noncomputable def cards : List Card :=
  k.entries.zipIdx.map fun (e, i) =>
    ⟨Part.nthId base .node i, .known e.kind, e.text, Reference.ofName? (e.frame.map (Part.nthId base .container))⟩

noncomputable def edge [Scalar α] (l : Link) (i : Nat) : Connection α :=
  { Connection.between (Part.nthId base .connection i) (Part.nthId base .node l.source)
      (Part.nthId base .node (i + 1)) with
    label := l.answer.map (·.label)
    variant := l.answer.map fun a => .known a.variant }

noncomputable def edges [Scalar α] : List (Connection α) :=
  k.links.zipIdx.map fun (l, i) => edge base l i

noncomputable def roster (f : Frame) (j : Nat) : Roster :=
  ⟨Part.nthId base .container j, f.name, f.parent.map (Part.nthId base .container), f.depth,
    (k.members j).map (Part.nthId base .node), (k.children j).map (Part.nthId base .container)⟩

noncomputable def roster? (j : Nat) : Option Roster :=
  k.frames[j]?.map (k.roster base · j)

noncomputable def rosters : List Roster :=
  k.frames.zipIdx.map fun (f, j) => k.roster base f j

/-- How many parts of each kind there are. -/
def count : Part → Nat
  | .node => k.entries.length
  | .connection => k.links.length
  | .container => k.frames.length

end Ids

section Adding

variable (base : List String) (k : Sketch) (kind : NodeKind) (text name : String)

theorem count_addEntry :
    (k.addEntry kind text).count = Function.update k.count .node (k.count .node + 1) := by
  funext p
  cases p <;> simp [count, addEntry]

theorem count_addLink (l : Link) :
    (k.addLink l).count = Function.update k.count .connection (k.count .connection + 1) := by
  funext p
  cases p <;> simp [count, addLink]

theorem count_openFrame :
    (k.openFrame name).count = Function.update k.count .container (k.count .container + 1) := by
  funext p
  cases p <;> simp [count, openFrame]

theorem cards_addEntry :
    (k.addEntry kind text).cards base = k.cards base ++
      [⟨Part.nthId base .node k.entries.length, .known kind, text,
        Reference.ofName? (k.openFrames.head?.map (Part.nthId base .container))⟩] := by
  simp [cards, addEntry, List.zipIdx_append]

theorem edges_addLink [Scalar α] (l : Link) :
    (k.addLink l).edges base = (k.edges base : List (Connection α)) ++ [edge base l k.links.length] := by
  simp [edges, addLink, List.zipIdx_append]

private theorem members_addEntry (j : Nat) :
    (k.addEntry kind text).members j =
      k.members j ++ if k.openFrames.head? = some j then [k.entries.length] else [] := by
  by_cases hj : k.openFrames.head? = some j <;>
    simp [members, addEntry, List.zipIdx_append, hj]

private theorem children_openFrame (j : Nat) :
    (k.openFrame name).children j =
      k.children j ++ if k.openFrames.head? = some j then [k.frames.length] else [] := by
  by_cases hj : k.openFrames.head? = some j <;>
    simp [children, openFrame, List.zipIdx_append, hj]

/-- A new node is listed by the innermost open container. -/
theorem roster?_addEntry_head {j : Nat} (hj : k.openFrames.head? = some j) :
    (k.addEntry kind text).roster? base j = (k.roster? base j).map fun r =>
      { r with nodeIds := r.nodeIds ++ [Part.nthId base .node k.entries.length] } := by
  simp only [roster?, roster, Option.map_map, members_addEntry, hj]
  rw [show (k.addEntry kind text).frames = k.frames from rfl]
  cases k.frames[j]? <;> simp [children, addEntry]

theorem roster?_addEntry_of_ne {j : Nat} (hj : k.openFrames.head? ≠ some j) :
    (k.addEntry kind text).roster? base j = k.roster? base j := by
  simp only [roster?, roster, members_addEntry, hj]
  simp [children, addEntry]

/-- A new container is listed by the innermost one that was open before. -/
theorem roster?_openFrame_head {j : Nat} (hlt : j < k.frames.length) (hj : k.openFrames.head? = some j) :
    (k.openFrame name).roster? base j = (k.roster? base j).map fun r =>
      { r with children := r.children ++ [Part.nthId base .container k.frames.length] } := by
  simp only [roster?, roster, Option.map_map, children_openFrame, hj]
  rw [show (k.openFrame name).frames[j]? = k.frames[j]? from List.getElem?_append_left hlt]
  cases k.frames[j]? <;> simp [members, openFrame]

theorem roster?_openFrame_of_ne {j : Nat} (hlt : j < k.frames.length) (hj : k.openFrames.head? ≠ some j) :
    (k.openFrame name).roster? base j = k.roster? base j := by
  simp only [roster?, roster, children_openFrame, hj]
  rw [show (k.openFrame name).frames[j]? = k.frames[j]? from List.getElem?_append_left hlt]
  simp [members, openFrame]

/-- A new container lists nothing. -/
theorem roster?_openFrame_self {k : Sketch} (hk : k.Framed) :
    (k.openFrame name).roster? base k.frames.length =
      some ⟨Part.nthId base .container k.frames.length, name,
        k.openFrames.head?.map (Part.nthId base .container), k.openFrames.length, [], []⟩ := by
  have hhead : k.openFrames.head? ≠ some k.frames.length := fun h =>
    Nat.lt_irrefl _ (hk.open_lt _ (List.mem_of_mem_head? h))
  have hmembers : (k.openFrame name).members k.frames.length = [] := by
    simp only [members, List.map_eq_nil_iff, List.filter_eq_nil_iff]
    rintro ⟨e, i⟩ he h
    have := hk.frame_lt e (List.fst_mem_of_mem_zipIdx he) _ (by simpa using h)
    omega
  have hchildren : (k.openFrame name).children k.frames.length = [] := by
    rw [children_openFrame]
    simp only [hhead, ↓reduceIte, List.append_nil, children, List.map_eq_nil_iff, List.filter_eq_nil_iff]
    rintro ⟨f, i⟩ hf h
    have := hk.parent_lt f (List.fst_mem_of_mem_zipIdx hf) _ (by simpa using h)
    omega
  simp only [roster?, roster, hmembers, hchildren]
  simp [openFrame]

end Adding

theorem id_of_roster? {base : List String} {k : Sketch} {j : Nat} {r : Roster} (h : k.roster? base j = some r) :
    r.id = Part.nthId base .container j := by
  obtain ⟨f, -, rfl⟩ := Option.map_eq_some_iff.1 h
  rfl

end Sketch

theorem ids_of_cards {base : List String} {k : Sketch} {nodes : List (Node α)}
    (h : nodes.map cardOf = k.cards base) :
    nodes.map (·.id) = (List.range k.entries.length).map (Part.nthId base .node) := by
  have hcards := congrArg (List.map Card.id) h
  rw [List.map_map] at hcards
  rw [List.range_eq_range', ← List.zipIdx_map_snd, List.map_map]
  exact hcards.trans (by simp [Sketch.cards, Function.comp_def])

theorem ids_of_rosters {base : List String} {k : Sketch} {containers : List (Container α)}
    (h : containers.map rosterOf = k.rosters base) :
    containers.map (·.id) = (List.range k.frames.length).map (Part.nthId base .container) := by
  have hrosters := congrArg (List.map Roster.id) h
  rw [List.map_map] at hrosters
  rw [List.range_eq_range', ← List.zipIdx_map_snd, List.map_map]
  exact hrosters.trans (by simp [Sketch.rosters, Sketch.roster, Function.comp_def])

theorem nodup_of_cards {base : List String} {k : Sketch} {nodes : List (Node α)}
    (h : nodes.map cardOf = k.cards base) : (nodes.map (·.id)).Nodup := by
  rw [ids_of_cards h]
  exact List.nodup_range.map (Part.nthId_injective base .node)

theorem nodup_of_rosters {base : List String} {k : Sketch} {containers : List (Container α)}
    (h : containers.map rosterOf = k.rosters base) : (containers.map (·.id)).Nodup := by
  rw [ids_of_rosters h]
  exact List.nodup_range.map (Part.nthId_injective base .container)

/-! ### States -/

variable [Scalar α]

/-- A state of an interpretation, among nodes with the ids `base`, shows a sketch. -/
structure Renders (base : List String) (k : Sketch) (s : State α) : Prop where
  numbered : Numbered base k.count s
  nodes : s.nodes.map cardOf = k.cards base
  connections : s.connections = k.edges base
  decisions : s.decisions.map (·.nodeId) = k.decisions.map (Part.nthId base .node)
  last : s.last = k.last.map (Part.nthId base .node)
  opened : s.opened = (List.range k.frames.length).map (Part.nthId base .container)
  drafts : List.Forall₂ (fun j d => k.roster? base j = some (Draft.roster d)) k.openFrames s.drafts
  closed : ∀ j < k.frames.length, j ∉ k.openFrames →
    ∃ c, s.closed.find? (·.id = Part.nthId base .container j) = some c ∧ k.roster? base j = some (rosterOf c)
  closed_ids : ∀ c ∈ s.closed, ∃ j < k.frames.length, j ∉ k.openFrames ∧ c.id = Part.nthId base .container j

namespace Renders

theorem initial (settings : Settings α) (existing : List (Node α)) :
    Renders (existing.map (·.id)) .empty (State.initial settings existing) where
  numbered := by
    have hcount : Sketch.empty.count = fun _ => 0 := by funext p; cases p <;> rfl
    exact hcount ▸ Numbered.initial settings existing
  nodes := rfl
  connections := rfl
  decisions := rfl
  last := rfl
  opened := rfl
  drafts := .nil
  closed j hj := absurd hj (Nat.not_lt_zero j)
  closed_ids c hc := absurd hc List.not_mem_nil

variable {base : List String} {k : Sketch} {s s' : State α}

/-- The innermost open container is the same. -/
theorem head?_drafts (h : Renders base k s) :
    s.drafts.head?.map (·.id) = k.openFrames.head?.map (Part.nthId base .container) := by
  have hdrafts := h.drafts
  generalize s.drafts = ds, k.openFrames = js at hdrafts
  cases hdrafts with
  | nil => rfl
  | cons hd _ => exact congrArg some (Sketch.id_of_roster? hd)

/-- What holds of the open containers one by one still holds if only the innermost one changes. -/
private theorem forall₂_modifyHead {σ : Type} {R S : Nat → σ → Prop} {f : σ → σ} {js : List Nat} {ds : List σ}
    (hs : List.Forall₂ R js ds) (hfalls : js.Pairwise (· > ·))
    (hhead : ∀ j d, js.head? = some j → R j d → S j (f d))
    (hrest : ∀ j d, j ∈ js → js.head? ≠ some j → R j d → S j d) :
    List.Forall₂ S js (ds.modifyHead f) := by
  cases hs with
  | nil => exact .nil
  | @cons j d js ds hd hds =>
    have hne : ∀ i ∈ js, i ∈ j :: js ∧ (j :: js).head? ≠ some i := by
      intro i hi
      have hlt := List.rel_of_pairwise_cons hfalls hi
      refine ⟨List.mem_cons_of_mem j hi, ?_⟩
      simp only [List.head?_cons, ne_eq, Option.some.injEq]
      omega
    refine .cons (hhead j d rfl hd) (((List.forall₂_and_left _ _).2 ⟨hne, hds⟩).imp ?_)
    rintro i e ⟨⟨hi, hj⟩, he⟩
    exact hrest i e hi hj he

variable [Trigonometry α] {ctx : Context α}

/-- A node that is added has the next id, and is added to the sketch. -/
theorem emit (h : Renders base k s) (hk : k.Framed) {kind : NodeKind} {text : String} {p : Point α}
    {anchor : Option (Node α)} {n : Node α} (he : emit ctx s kind text p anchor = .ok (n, s')) :
    n.id = Part.nthId base .node k.entries.length ∧ Renders base (k.addEntry kind text) s' := by
  obtain ⟨⟨b, place, -, -, hn⟩, rfl⟩ := emit_eq_ok he
  have hid : (s.freshId .node).1 = Part.nthId base .node k.entries.length := h.numbered.freshId_fst .node
  have hcard : cardOf n = ⟨Part.nthId base .node k.entries.length, .known kind, text,
      Reference.ofName? (k.openFrames.head?.map (Part.nthId base .container))⟩ := by
    rw [hn]
    simp [cardOf, proposal, hid, h.head?_drafts]
  refine ⟨congrArg Card.id hcard, ?_⟩
  refine { h with numbered := ?_, nodes := ?_, drafts := ?_, closed := ?_ }
  · have hnumbered := h.numbered.freshId_snd .node
    rw [Sketch.count_addEntry]
    exact ⟨hnumbered.counters, hnumbered.taken⟩
  · rw [Sketch.cards_addEntry, List.map_append, h.nodes, List.map_singleton, hcard]
  · have henlist : ∀ (id : String) (ds : List (Draft α)),
        enlist id ds = ds.modifyHead fun d => { d with nodeIds := d.nodeIds ++ [id] } := by
      intro id ds
      cases ds <;> rfl
    -- only the innermost container takes up the node, and only its draft does
    rw [henlist, hid]
    refine forall₂_modifyHead h.drafts hk.open_falls ?_ ?_
    · intro j d hj hd
      rw [Sketch.roster?_addEntry_head base k kind text hj, hd]
      rfl
    · intro j d _ hj hd
      rw [Sketch.roster?_addEntry_of_ne base k kind text hj, hd]
  · intro j hj hopen
    rw [Sketch.roster?_addEntry_of_ne base k kind text fun hhead => hopen (List.mem_of_mem_head? hhead)]
    exact h.closed j hj hopen

omit [Trigonometry α]

private theorem addLink (h : Renders base k s) (l : Link) :
    Renders base (k.addLink l) ((s.freshId .connection).2.addConnection (Sketch.edge base l k.links.length)) where
  __ := h
  numbered := by
    have hnumbered := h.numbered.freshId_snd .connection
    rw [Sketch.count_addLink]
    exact ⟨hnumbered.counters, hnumbered.taken⟩
  connections := by
    rw [Sketch.edges_addLink, ← h.connections]
    rfl

/-- A connection in the chain has the next id, and is added to the sketch. -/
theorem connect (h : Renders base k s) (source : Nat) :
    Renders base (k.addLink ⟨source, none⟩)
      (connect s (Part.nthId base .node source) (Part.nthId base .node (k.links.length + 1))) := by
  have hid : (s.freshId .connection).1 = Part.nthId base .connection k.links.length :=
    h.numbered.freshId_fst .connection
  have hlink := h.addLink ⟨source, none⟩
  rw [Sketch.edge, ← hid] at hlink
  exact hlink

/-- The same for a connection from a decision to an answer. -/
theorem connectAnswer (h : Renders base k s) (source : Nat) (a : Answer) :
    Renders base (k.addLink ⟨source, some a⟩)
      (connectAnswer s (Part.nthId base .node source) (Part.nthId base .node (k.links.length + 1)) a.variant
        (some a.label)) := by
  have hid : (s.freshId .connection).1 = Part.nthId base .connection k.links.length :=
    h.numbered.freshId_fst .connection
  have hlink := h.addLink ⟨source, some a⟩
  rw [Sketch.edge, ← hid] at hlink
  exact hlink

/-- The last node with an id is the one that has it. -/
theorem nodeWithId?_id (h : Renders base k s) {j : Nat} (hj : j < k.entries.length) :
    (nodeWithId? s.nodes (Part.nthId base .node j)).map (·.id) = some (Part.nthId base .node j) := by
  have hmem : Part.nthId base .node j ∈ s.nodes.map (·.id) := by
    rw [ids_of_cards h.nodes]
    exact List.mem_map_of_mem (List.mem_range.2 hj)
  obtain ⟨n, hn, hid⟩ := List.mem_map.1 hmem
  have hsome : (nodeWithId? s.nodes (Part.nthId base .node j)).isSome := by
    unfold nodeWithId?
    rw [List.find?_isSome]
    exact ⟨n, List.mem_reverse.2 hn, by simpa using hid⟩
  obtain ⟨m, hm⟩ := Option.isSome_iff_exists.1 hsome
  rw [hm, Option.map_some]
  exact congrArg some (by simpa using List.find?_some hm)

theorem entering (h : Renders base k s) (kind : NodeKind) : Renders base (k.entering kind) (entering s kind) := by
  by_cases hk : kind = .decision
  · simpa only [Interpretation.entering, Sketch.entering, hk, ↓reduceIte] using h
  · simp only [Interpretation.entering, Sketch.entering, hk, ↓reduceIte]
    exact { h with
      numbered := ⟨h.numbered.counters, h.numbered.taken⟩
      decisions := by simp only [List.map_drop, h.decisions] }

theorem endingWith {ctx : Context α} {n : Node α} {j : Nat} (h : Renders base k s)
    (hn : n.id = Part.nthId base .node j) (kind : NodeKind) :
    Renders base (k.endingWith kind j) (endingWith ctx s kind n) where
  __ := h
  numbered := ⟨h.numbered.counters, h.numbered.taken⟩
  last := congrArg some hn
  decisions := by
    by_cases hk : kind = .decision
    · simp [Interpretation.endingWith, Sketch.endingWith, hk, hn, h.decisions]
    · simp [Interpretation.endingWith, Sketch.endingWith, hk, h.decisions]

section Lines

variable [Trigonometry α] {ctx : Context α}

theorem placeInSequence (h : Renders base k s) (hk : k.Framed) (ht : k.Threaded) {kind : NodeKind} {text : String}
    (hs : placeInSequence ctx s kind text = .ok s') : Renders base (k.addToChain kind text) s' := by
  obtain ⟨n, s₁, hemit, rfl⟩ := placeInSequence_eq_ok hs
  obtain ⟨hid, hs₁⟩ := (h.entering kind).emit (hk.entering kind) hemit
  rw [Sketch.entering_entries] at hid
  refine endingWith ?_ hid kind
  have hlast := h.last
  cases hj : k.last with
  | none =>
    rw [hj] at hlast
    simpa [linked, hlast, Sketch.linkLast, Sketch.addEntry, hj] using hs₁
  | some j =>
    rw [hj] at hlast
    obtain ⟨m, hm, hmid⟩ := Option.map_eq_some_iff.1 (h.nodeWithId?_id (ht.last_lt j hj))
    have hconnect := hs₁.connect j
    rw [show ((k.entering kind).addEntry kind text).links = k.links from Sketch.entering_links k kind,
      ht.links_length_of_last hj, ← hid, ← hmid] at hconnect
    simpa [linked, hlast, hm, Sketch.linkLast, Sketch.addEntry, hj] using hconnect

theorem placeAnswer (h : Renders base k s) (hk : k.Framed) (ht : k.Threaded) {d : OpenDecision α}
    {ds : List (OpenDecision α)} (hd : s.decisions = d :: ds) {a : Answer} {text : String}
    (hs : placeAnswer ctx s d a text = .ok s') : Renders base (k.addAnswer a text) s' := by
  obtain ⟨p, n, s₁, hemit, rfl⟩ := placeAnswer_eq_ok hs
  obtain ⟨hid, hs₁⟩ := h.emit hk hemit
  have hdecisions := h.decisions
  rw [hd, List.map_cons] at hdecisions
  obtain ⟨j, js, hj, hdj, -⟩ := List.map_eq_cons_iff.1 hdecisions.symm
  have hconnect := hs₁.connectAnswer j a
  rw [show (k.addEntry .process text).links = k.links from rfl,
    ht.links_length_of_decision (by rw [hj]; exact List.mem_cons_self), ← hid, hdj] at hconnect
  simpa only [Sketch.addAnswer, hj] using hconnect

end Lines

theorem openContainer (h : Renders base k s) (hk : k.Framed) {ctx : Context α} (name : String) :
    Renders base (k.openFrame name) (openContainer ctx s name) := by
  have hid : (s.freshId .container).1 = Part.nthId base .container k.frames.length :=
    h.numbered.freshId_fst .container
  have hlength : (k.openFrame name).frames.length = k.frames.length + 1 := List.length_append
  have hold : ∀ j < (k.openFrame name).frames.length, j ∉ (k.openFrame name).openFrames →
      j < k.frames.length ∧ j ∉ k.openFrames := by
    intro j hj hopen
    rw [hlength] at hj
    have hne : j ≠ k.frames.length := fun he => hopen (he ▸ List.mem_cons_self)
    exact ⟨by omega, fun hmem => hopen (List.mem_cons_of_mem _ hmem)⟩
  refine { h with numbered := ?_, opened := ?_, drafts := ?_, closed := ?_, closed_ids := ?_ }
  · have hnumbered := h.numbered.freshId_snd .container
    rw [Sketch.count_openFrame]
    exact ⟨hnumbered.counters, hnumbered.taken⟩
  · rw [hlength, List.range_succ, List.map_append, ← h.opened, List.map_singleton, ← hid]
    rfl
  · have hadopt : ∀ (id : String) (ds : List (Draft α)),
        adopt id ds = ds.modifyHead fun d => { d with children := d.children ++ [id] } := by
      intro id ds
      cases ds <;> rfl
    refine .cons ?_ ?_
    · rw [Sketch.roster?_openFrame_self base name hk, ← hid, ← h.head?_drafts, ← h.drafts.length_eq]
      rfl
    · show List.Forall₂ _ _ (adopt (s.freshId .container).1 s.drafts)
      rw [hadopt, hid]
      refine forall₂_modifyHead h.drafts hk.open_falls ?_ ?_
      · intro j d hj hd
        rw [Sketch.roster?_openFrame_head base k name (hk.open_lt j (List.mem_of_mem_head? hj)) hj, hd]
        rfl
      · intro j d hmem hj hd
        rw [Sketch.roster?_openFrame_of_ne base k name (hk.open_lt j hmem) hj, hd]
  · intro j hj hopen
    obtain ⟨hj, hopen⟩ := hold j hj hopen
    rw [Sketch.roster?_openFrame_of_ne base k name hj fun hhead => hopen (List.mem_of_mem_head? hhead)]
    exact h.closed j hj hopen
  · intro c hc
    obtain ⟨j, hj, hopen, hcj⟩ := h.closed_ids c hc
    refine ⟨j, by omega, fun hmem => ?_, hcj⟩
    rcases List.mem_cons.1 hmem with rfl | hmem
    · omega
    · exact hopen hmem

private theorem rosterOf_around (d : Draft α) (margin : α) (rects : List (Rect α)) :
    rosterOf ((finished d).around margin rects) = d.roster := by
  unfold Container.around
  split <;> rfl

theorem closeContainer (h : Renders base k s) (hk : k.Framed) {ctx : Context α}
    (hs : closeContainer ctx s = .ok s') : Renders base k.closeFrame s' := by
  obtain ⟨d, ds, nodes, children, c, hd, -, -, hc, rfl⟩ := closeContainer_eq_ok hs
  have hdrafts := h.drafts
  rw [hd] at hdrafts
  obtain ⟨j, js, hj, hds, hjs⟩ := List.forall₂_cons_right_iff.1 hdrafts
  have hroster : rosterOf c = d.roster := hc ▸ rosterOf_around d _ _
  have hcid : c.id = Part.nthId base .container j :=
    (congrArg Roster.id hroster).trans (Sketch.id_of_roster? hj)
  have hclose : k.closeFrame.openFrames = js := by simp [Sketch.closeFrame, hjs]
  have hfalls := hk.open_falls
  rw [hjs] at hfalls
  refine { h with
    numbered := ⟨h.numbered.counters, h.numbered.taken⟩
    drafts := ?_
    closed := ?_
    closed_ids := ?_ }
  · rw [hclose]
    exact hds
  · intro i hi hopen
    rw [hclose] at hopen
    by_cases hij : i = j
    · subst hij
      refine ⟨c, ?_, hroster ▸ hj⟩
      -- no container that was closed before has this id: it was open until now
      rw [List.find?_append, List.find?_eq_none.2 ?_, Option.none_or]
      · simp [hcid]
      · intro e he hide
        obtain ⟨i', -, hopen', hid'⟩ := h.closed_ids e he
        have hsame := (Part.nthId_inj.1 (hid'.symm.trans (by simpa using hide))).2
        rw [hsame, hjs] at hopen'
        exact hopen' List.mem_cons_self
    · obtain ⟨e, he, hroster⟩ := h.closed i hi (by simp [hjs, hij, hopen])
      exact ⟨e, by rw [List.find?_append, he]; rfl, hroster⟩
  · intro e he
    rw [hclose]
    rcases List.mem_append.1 he with he | he
    · obtain ⟨i, hi, hopen, hide⟩ := h.closed_ids e he
      rw [hjs] at hopen
      exact ⟨i, hi, fun hmem => hopen (List.mem_cons_of_mem j hmem), hide⟩
    · obtain rfl := List.mem_singleton.1 he
      refine ⟨j, hk.open_lt j (by simp [hjs]), fun hmem => ?_, hcid⟩
      exact Nat.lt_irrefl j (List.rel_of_pairwise_cons hfalls hmem)

section Runs

variable [Trigonometry α] {ctx : Context α}

theorem step (h : Renders base k s) (hk : k.Framed) (ht : k.Threaded) {c : Content}
    (hs : step ctx s c = .ok s') : Renders base (k.step c) s' := by
  cases outcome_of_step hs with
  | nothing => exact h
  | opening name => exact h.openContainer hk name
  | idle hd =>
    have hopen : k.openFrames = [] := List.eq_nil_of_length_eq_zero (by rw [h.drafts.length_eq, hd]; rfl)
    have hclose : k.closeFrame = k := by rw [Sketch.closeFrame, hopen, List.drop_nil, ← hopen]
    rw [Sketch.step, hclose]
    exact h
  | closing hc => exact h.closeContainer hk hc
  | chain hp => exact h.placeInSequence hk ht hp
  | answer hd hp => exact h.placeAnswer hk ht hd hp
  | stray hd hp =>
    have hdecisions : k.decisions = [] := by simpa [hd] using h.decisions.symm
    simp only [Sketch.step, Sketch.addAnswer, hdecisions]
    exact h.placeInSequence hk ht hp

theorem run {cs : List Content}
    (hs : cs.foldlM (Interpretation.step ctx) (.initial ctx.settings ctx.existing) = .ok s) :
    Renders (ctx.existing.map (·.id)) (.ofContents cs) s := by
  induction cs using List.reverseRecOn generalizing s with
  | nil =>
    cases hs
    exact initial ctx.settings ctx.existing
  | append_singleton cs c ih =>
    obtain ⟨s₀, hs₀, hc⟩ := foldlM_concat_eq_ok.1 hs
    rw [Sketch.ofContents_concat]
    exact (ih hs₀).step (Sketch.framed_ofContents cs) (Sketch.threaded_ofContents cs) hc

end Runs

theorem closeAll {ctx : Context α} {n : Nat} (h : Renders base k s) (hk : k.Framed)
    (hs : closeAll ctx n s = .ok s') : Renders base { k with openFrames := k.openFrames.drop n } s' := by
  induction n generalizing k s with
  | zero =>
    cases hs
    exact h
  | succ n ih =>
    obtain ⟨s₁, hs₁, hs⟩ := bind_eq_ok.1 hs
    have hclose := ih (h.closeContainer hk hs₁) hk.closeFrame hs
    rw [Sketch.closeFrame, List.drop_drop, Nat.add_comm 1 n] at hclose
    exact hclose

end Renders

/-! ### Charts -/

/-- A chart among nodes with the ids `base` shows a sketch. -/
structure Depicts (base : List String) (k : Sketch) (g : Graph α) : Prop where
  nodes : g.nodes.map cardOf = k.cards base
  connections : g.connections = k.edges base
  containers : g.containers.map rosterOf = k.rosters base

theorem Depicts.nodes_length {base : List String} {k : Sketch} {g : Graph α} (h : Depicts base k g) :
    g.nodes.length = k.entries.length := by
  simpa using congrArg List.length (ids_of_cards h.nodes)

theorem Depicts.id_of_getElem? {base : List String} {k : Sketch} {g : Graph α} (h : Depicts base k g) {i : Nat}
    {n : Node α} (hn : g.nodes[i]? = some n) : n.id = Part.nthId base .node i := by
  have hids := congrArg (·[i]?) (ids_of_cards h.nodes)
  simp only [List.getElem?_map, hn, Option.map_some] at hids
  obtain ⟨j, hj, hid⟩ := Option.map_eq_some_iff.1 hids.symm
  obtain ⟨hlt, hval⟩ := List.getElem?_eq_some_iff.1 hj
  rw [List.getElem_range] at hval
  rw [hval, hid]

theorem Depicts.getElem?_containers {base : List String} {k : Sketch} {g : Graph α} (h : Depicts base k g)
    (j : Nat) : g.containers[j]?.map rosterOf = k.roster? base j := by
  rw [← List.getElem?_map, h.containers, Sketch.rosters, List.getElem?_map, List.getElem?_zipIdx, Nat.zero_add,
    Option.map_map]
  rfl

theorem Depicts.roster?_of_getElem? {base : List String} {k : Sketch} {g : Graph α} (h : Depicts base k g) {j : Nat}
    {c : Container α} (hc : g.containers[j]? = some c) : k.roster? base j = some (rosterOf c) := by
  rw [← h.getElem?_containers, hc, Option.map_some]

theorem Depicts.getElem?_nodes {base : List String} {k : Sketch} {g : Graph α} (h : Depicts base k g) (i : Nat) :
    g.nodes[i]?.map cardOf = k.entries[i]?.map fun e =>
      ⟨Part.nthId base .node i, .known e.kind, e.text,
        Reference.ofName? (e.frame.map (Part.nthId base .container))⟩ := by
  rw [← List.getElem?_map, h.nodes, Sketch.cards, List.getElem?_map, List.getElem?_zipIdx, Nat.zero_add,
    Option.map_map]
  rfl

private theorem map_some_rosters (base : List String) (k : Sketch) :
    (k.rosters base).map some = (List.range k.frames.length).map (k.roster? base) := by
  refine List.ext_getElem? fun j => ?_
  by_cases hj : j < k.frames.length
  · simp [Sketch.rosters, Sketch.roster?, hj]
  · simp [Sketch.rosters, hj]

theorem depicts_of_chart {base : List String} {k : Sketch} {s : State α} {g : Graph α} (h : Renders base k s)
    (hopen : k.openFrames = []) (hg : chart s = .ok g) : Depicts base k g := by
  obtain ⟨cs, hcs, hg⟩ := bind_eq_ok.1 hg
  cases hg
  refine ⟨h.nodes, h.connections, ?_⟩
  rw [h.opened, mapM_eq_ok, List.forall₂_map_left_iff] at hcs
  have hlt : ∀ j ∈ List.range k.frames.length, j < k.frames.length := fun j => List.mem_range.1
  have hrosters : List.Forall₂ (fun j c => k.roster? base j = some (rosterOf c))
      (List.range k.frames.length) cs := by
    refine ((List.forall₂_and_left _ _).2 ⟨hlt, hcs⟩).imp ?_
    rintro j c ⟨hj, hc⟩
    obtain ⟨c', hc', hroster⟩ := h.closed j hj (by simp [hopen])
    unfold closedContainer at hc
    rw [hc'] at hc
    cases hc
    exact hroster
  refine List.map_injective_iff.2 (Option.some_injective Roster) ?_
  rw [map_some_rosters, List.map_map]
  rw [← List.forall₂_eq_eq_eq, List.forall₂_map_left_iff, List.forall₂_map_right_iff]
  exact hrosters.flip.imp fun c j h => h.symm

/-- What is seen of a chart is the sketch of its outline. -/
theorem depicts_of_interpret [Trigonometry α] {settings : Settings α} {existing : List (Node α)} {outline : String}
    {g : Graph α} (h : interpret settings existing outline = .ok g) :
    Depicts (existing.map (·.id)) (.ofContents (Outline.contents settings.labelCap outline.toList)) g := by
  obtain ⟨-, s, s', hs, hs', h⟩ := interpretContents_eq_ok.1 h
  have hrun := Renders.run hs
  have hclosed := hrun.closeAll (Sketch.framed_ofContents _) hs'
  have hdepicts := depicts_of_chart hclosed (by rw [← hrun.drafts.length_eq]; simp) h
  exact ⟨hdepicts.nodes, hdepicts.connections, hdepicts.containers⟩

end Flowchart.Interpretation
