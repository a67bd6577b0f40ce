import Flowchart.Proofs.Outline.Answers
import Flowchart.Proofs.Interpretation.Growth

/-!
# Answers hang below their decisions

An answer is connected with the innermost decision that is open at its line, under the label and the variant of
the answer; any other node is connected with the one before it in the chain, without a label
(`interpret_follows`). Which decisions are open is told by the node lines alone: containers have no part in it.

The stack of decisions of a sketch is the one that is pushed and popped along the node lines (`Answered`), so its
top is the decision to which an answer is attached.
-/

namespace Flowchart.Interpretation

open Outline (Answer Content attachment? previous? nodeContents)

/-- The link into the node of a node line. -/
def link? (ns : List Content) (i : Nat) : Option Link :=
  match attachment? ns i with
  | some (a, j) => some ⟨j, some a⟩
  | none => (previous? ns i).map fun j => ⟨j, none⟩

theorem link?_zero (ns : List Content) : link? ns 0 = none := by
  unfold link?
  rw [Outline.attachment?_zero]
  rfl

private theorem link?_concat_of_lt (ns : List Content) (c : Content) {i : Nat} (hi : i < ns.length) :
    link? (ns ++ [c]) i = link? ns i := by
  unfold link?
  rw [Outline.attachment?_concat_of_lt ns c hi, Outline.previous?_concat_of_le ns c (Nat.le_of_lt hi)]

/-- No link starts at an answer that is attached to a decision. -/
theorem attachment?_source_of_link? {ns : List Content} {i : Nat} {l : Link} (h : link? ns i = some l) :
    attachment? ns l.source = none := by
  unfold link? at h
  split at h
  · next a j ha =>
    cases h
    exact Outline.attachment?_of_attachment? ha
  · obtain ⟨j, hj, rfl⟩ := Option.map_eq_some_iff.1 h
    exact Outline.attachment?_of_previous? hj

/-- A sketch follows its node lines. -/
structure Answered (ns : List Content) (k : Sketch) : Prop where
  entries_length : k.entries.length = ns.length
  decisions : k.decisions = Nesting.openAfter (ns.map Content.branching)
  last : k.last = previous? ns ns.length
  links : ∀ i, i + 1 < ns.length → k.links[i]? = link? ns (i + 1)

namespace Answered

variable {ns : List Content} {k : Sketch}

/-- The link into a new node comes behind the others. -/
private theorem links_concat (h : Answered ns k) (ht : k.Threaded) {c : Content} {l : Option Link}
    (hl : l = link? (ns ++ [c]) ns.length) :
    ∀ i, i + 1 < (ns ++ [c]).length → (k.links ++ l.toList)[i]? = link? (ns ++ [c]) (i + 1) := by
  intro i hi
  have hlength := ht.links_length
  rw [h.entries_length] at hlength
  rw [List.length_append, List.length_singleton] at hi
  rcases Nat.lt_succ_iff_lt_or_eq.1 hi with hi | hi
  · rw [List.getElem?_append_left (by omega), h.links i hi, link?_concat_of_lt ns c hi]
  · have hlast : i = k.links.length := by omega
    rw [hi, ← hl, List.getElem?_append_right (by omega), hlast, Nat.sub_self]
    cases l <;> rfl

/-- A node line that is attached to nothing goes on with the chain. -/
theorem addToChain (h : Answered ns k) (ht : k.Threaded) {c : Content} (kind : NodeKind) (text : String)
    (hc : attachment? (ns ++ [c]) ns.length = none)
    (hpush : (k.addToChain kind text).decisions = Nesting.push k.decisions ns.length c.branching) :
    Answered (ns ++ [c]) (k.addToChain kind text) where
  entries_length := by simp [h.entries_length]
  decisions := by
    rw [hpush, List.map_append, List.map_singleton, Nesting.openAfter_concat, List.length_map, h.decisions]
  last := by
    rw [Sketch.addToChain_last, h.entries_length, List.length_append, List.length_singleton,
      Outline.previous?_succ, hc]
    rfl
  links := by
    rw [Sketch.addToChain_links]
    refine h.links_concat ht ?_
    unfold link?
    rw [hc, Outline.previous?_concat_of_le ns c (Nat.le_refl _), h.last]

/-- An answer is attached to the innermost open decision, and leaves the chain as it is. -/
theorem attach (h : Answered ns k) (ht : k.Threaded) {a : Answer} {text : String} {j : Nat}
    (hj : k.decisions.head? = some j) :
    Answered (ns ++ [.answer a text]) ((k.addEntry .process text).addLink ⟨j, some a⟩) := by
  have hattached : attachment? (ns ++ [.answer a text]) ns.length = some (a, j) := by
    rw [Outline.attachment?_concat_length, ← h.decisions, hj]
    rfl
  refine ⟨by simp [Sketch.addLink, Sketch.addEntry, h.entries_length], ?_, ?_, ?_⟩
  · rw [List.map_append, List.map_singleton, Nesting.openAfter_concat]
    exact h.decisions
  · rw [List.length_append, List.length_singleton, Outline.previous?_succ, hattached,
      Outline.previous?_concat_of_le ns _ (Nat.le_refl _)]
    exact h.last
  · refine h.links_concat ht (l := some ⟨j, some a⟩) ?_
    unfold link?
    rw [hattached]

theorem step (h : Answered ns k) (ht : k.Threaded) (c : Content) :
    Answered (ns ++ [c].filter (·.node?.isSome)) (k.step c) := by
  have hskip : c.node? = none → Answered ns (k.step c) →
      Answered (ns ++ [c].filter (·.node?.isSome)) (k.step c) := by
    intro hc hs
    rwa [List.filter_singleton, hc, Option.isSome_none, cond_false, List.append_nil]
  cases c with
  | nothing => exact hskip rfl h
  | opening name => exact hskip rfl ⟨h.entries_length, h.decisions, h.last, h.links⟩
  | closing => exact hskip rfl ⟨h.entries_length, h.decisions, h.last, h.links⟩
  | node kind text =>
    refine h.addToChain ht kind text ?_ ?_
    · rw [Outline.attachment?_concat_length]
      rfl
    · rw [Sketch.addToChain_decisions, h.entries_length]
      cases kind <;> rfl
  | answer a text =>
    show Answered (ns ++ [.answer a text]) (k.addAnswer a text)
    unfold Sketch.addAnswer
    cases hd : k.decisions with
    | cons j js => exact h.attach ht (by rw [hd]; rfl)
    | nil =>
      -- nothing is open that the new node could close
      refine h.addToChain ht .process text ?_ ?_
      · rw [Outline.attachment?_concat_length, ← h.decisions, hd]
        rfl
      · rw [Sketch.addToChain_decisions, hd]
        rfl

end Answered

theorem answered_ofContents (cs : List Content) :
    Answered (cs.filter (·.node?.isSome)) (Sketch.ofContents cs) := by
  induction cs using List.reverseRecOn with
  | nil => exact ⟨rfl, rfl, rfl, fun i hi => absurd hi (Nat.not_lt_zero _)⟩
  | append_singleton cs c ih =>
    rw [List.filter_append, Sketch.ofContents_concat]
    exact ih.step (Sketch.threaded_ofContents cs) c

/-! ### Charts -/

variable {α : Type} [Scalar α]

/-- The connections of a chart are those that its node lines ask for. -/
structure Follows (ns : List Content) (g : Graph α) : Prop where
  nodes_length : g.nodes.length = ns.length
  /-- The only connection to an answer starts at the decision that it is attached to. -/
  attached : ∀ (i j : Nat) (a : Answer) (n : Node α), attachment? ns i = some (a, j) → g.nodes[i]? = some n →
    ∃ d c, g.nodes[j]? = some d ∧ g.connectionsTo n.id = [c] ∧ c.source = d.id ∧
      c.variant = some (.known a.variant) ∧ c.label = some a.label
  /-- The only connection to any other node starts at the one before it in the chain. -/
  chained : ∀ (i j : Nat) (n : Node α), attachment? ns i = none → previous? ns i = some j → g.nodes[i]? = some n →
    ∃ p c, g.nodes[j]? = some p ∧ g.connectionsTo n.id = [c] ∧ c.source = p.id ∧ c.variant = none ∧ c.label = none
  first : ∀ (i : Nat) (n : Node α), attachment? ns i = none → previous? ns i = none → g.nodes[i]? = some n →
    g.connectionsTo n.id = []
  /-- The chain does not go on from an answer that is attached. -/
  attached_source : ∀ (i : Nat) (n : Node α), (attachment? ns i).isSome → g.nodes[i]? = some n →
    ∀ c ∈ g.connections, c.source ≠ n.id

namespace Depicts

variable {base : List String} {k : Sketch} {g : Graph α} {ns : List Content}

private theorem mem_connections (h : Depicts base k g) {c : Connection α} (hc : c ∈ g.connections) :
    ∃ (i : Nat) (l : Link), k.links[i]? = some l ∧ c = Sketch.edge base l i := by
  rw [h.connections, Sketch.edges] at hc
  obtain ⟨⟨l, i⟩, hl, rfl⟩ := List.mem_map.1 hc
  exact ⟨i, l, List.mk_mem_zipIdx_iff_getElem?.1 hl, rfl⟩

/-- The only connection to a node is drawn from its link. -/
private theorem connectionsTo_of_link? (h : Depicts base k g) (ht : k.Threaded) (ha : Answered ns k) {i : Nat}
    {n : Node α} {l : Link} (hn : g.nodes[i]? = some n) (hl : link? ns i = some l) :
    ∃ d c, g.nodes[l.source]? = some d ∧ g.connectionsTo n.id = [c] ∧ c.source = d.id ∧
      c.variant = l.answer.map (fun a => .known a.variant) ∧ c.label = l.answer.map (·.label) := by
  have hgrows := h.grows ht
  cases i with
  | zero =>
    rw [link?_zero] at hl
    cases hl
  | succ i =>
    have hlt := (List.getElem?_eq_some_iff.1 hn).1
    rw [h.nodes_length, ha.entries_length] at hlt
    have hlink := (ha.links i (by omega)).trans hl
    have hc : g.connections[i]? = some (Sketch.edge base l i) := by
      rw [h.connections, Sketch.edges, List.getElem?_map, List.getElem?_zipIdx, hlink, Nat.zero_add]
      rfl
    -- the ids of two nodes tell their numbers, so the source is the one of the link
    obtain ⟨-, j, -, d, hd, hsource⟩ := hgrows.connection_ends hc
    have hj : l.source = j := (Part.nthId_inj.1 (hsource.trans (h.id_of_getElem? hd))).2
    exact ⟨d, _, hj ▸ hd, hgrows.connectionsTo_succ hn hc, hsource, rfl, rfl⟩

theorem follows (h : Depicts base k g) (ht : k.Threaded) (ha : Answered ns k) : Follows ns g where
  nodes_length := h.nodes_length.trans ha.entries_length
  attached i j a n hattached hn := by
    have hl : link? ns i = some ⟨j, some a⟩ := by
      unfold link?
      rw [hattached]
    exact h.connectionsTo_of_link? ht ha hn hl
  chained i j n hattached hprevious hn := by
    have hl : link? ns i = some ⟨j, none⟩ := by
      unfold link?
      rw [hattached, hprevious]
      rfl
    exact h.connectionsTo_of_link? ht ha hn hl
  first i n hattached hprevious hn := by
    have hlink : link? ns i = none := by
      unfold link?
      rw [hattached, hprevious]
      rfl
    cases i with
    | zero => exact (h.grows ht).connectionsTo_first hn
    | succ i =>
      have hlt := (List.getElem?_eq_some_iff.1 hn).1
      have hlinks := ht.links_length
      rw [h.nodes_length] at hlt
      have hentries := ha.entries_length
      have hnone := (ha.links i (by omega)).trans hlink
      rw [List.getElem?_eq_none_iff] at hnone
      omega
  attached_source i n hattached hn c hc hsource := by
    obtain ⟨i', l, hl, rfl⟩ := h.mem_connections hc
    have hi : l.source = i := (Part.nthId_inj.1 (hsource.trans (h.id_of_getElem? hn))).2
    have hlt := (List.getElem?_eq_some_iff.1 hl).1
    have hlength := ht.links_length
    rw [ha.entries_length] at hlength
    have hnone := attachment?_source_of_link? ((ha.links i' (by omega)).symm.trans hl)
    rw [hi] at hnone
    rw [hnone] at hattached
    cases hattached

end Depicts

variable [Trigonometry α]

/-- Answers hang below the innermost decisions that are open at their lines, under their labels and variants; the
other nodes make a chain. -/
theorem interpret_follows {settings : Settings α} {existing : List (Node α)} {outline : String} {g : Graph α}
    (h : interpret settings existing outline = .ok g) :
    Follows (nodeContents settings.labelCap outline.toList) g := by
  rw [Outline.nodeContents_eq]
  exact (depicts_of_interpret h).follows (Sketch.threaded_ofContents _) (answered_ofContents _)

/-- The end of the inner decision leaves the answer to the outer one, whatever containers are opened. -/
theorem interpret_follows_nested :
    ∃ (g : Graph Float) (n d : Node Float) (c : Connection Float),
      interpret Options.none.settings []
          "[Decisão] A?\n[Decisão] B?\n[Container] X\n[Fim] C\nNão → D" = .ok g ∧
        g.nodes[3]? = some n ∧ g.nodes[0]? = some d ∧ n.text = "D" ∧ d.text = "A?" ∧
        g.connectionsTo n.id = [c] ∧ c.source = d.id ∧ c.label = some "Não" := by
  have hrun : (interpret (Options.none : Options Float).settings []
      "[Decisão] A?\n[Decisão] B?\n[Container] X\n[Fim] C\nNão → D").map
        (fun g => (g.nodes[3]?.map (·.text), g.nodes[0]?.map (·.text))) = .ok (some "D", some "A?") := by
    decide +kernel
  obtain ⟨g, hg, htexts⟩ := exists_eq_ok_of_map hrun
  obtain ⟨hn, hd⟩ := Prod.mk.inj htexts
  obtain ⟨n, hn, htext⟩ := Option.map_eq_some_iff.1 hn
  obtain ⟨d, hd, hdecision⟩ := Option.map_eq_some_iff.1 hd
  obtain ⟨d', c, hd', hto, hsource, -, hlabel⟩ :=
    (interpret_follows hg).attached 3 0 .no n (by decide +kernel) hn
  obtain rfl : d = d' := Option.some.inj (hd.symm.trans hd')
  exact ⟨g, n, d, c, hg, hn, hd, htext, hdecision, hto, hsource, hlabel⟩

end Flowchart.Interpretation
