import Flowchart.Proofs.Outline.Lines

/-!
# Sketches

A sketch is a chart without ids and places: its nodes and containers are known by their numbers, counted from
zero, and the connection with number `i` leads into the node with number `i + 1`. A sketch is drawn line by line
as a chart is interpreted, but it needs no arithmetic and never fails, so it says which flow and which containers
an outline has whatever the settings are and wherever the nodes come to lie.
-/

namespace Flowchart.Interpretation

open Outline (Answer Content)

/-- What a node shows, and the container it lies in. -/
structure Entry where
  kind : NodeKind
  text : String
  frame : Option Nat
deriving DecidableEq, Repr

/-- The node at which a connection starts, and the answer that it stands for. -/
structure Link where
  source : Nat
  answer : Option Answer
deriving DecidableEq, Repr

/-- A container, with the one around it and the number of those around it. -/
structure Frame where
  name : String
  parent : Option Nat
  depth : Nat
deriving DecidableEq, Repr

structure Sketch where
  entries : List Entry
  links : List Link
  frames : List Frame
  /-- The open decisions, innermost first. -/
  decisions : List Nat
  /-- The last node of the chain. -/
  last : Option Nat
  /-- The open containers, innermost first. -/
  openFrames : List Nat
deriving DecidableEq, Repr

namespace Sketch

def empty : Sketch :=
  ⟨[], [], [], [], none, []⟩

def addEntry (k : Sketch) (kind : NodeKind) (text : String) : Sketch :=
  { k with entries := k.entries ++ [⟨kind, text, k.openFrames.head?⟩] }

def addLink (k : Sketch) (l : Link) : Sketch :=
  { k with links := k.links ++ [l] }

/-- Links the next node with the last one of the chain, if there is one. -/
def linkLast (k : Sketch) : Sketch :=
  match k.last with
  | some j => k.addLink ⟨j, none⟩
  | none => k

/-- A node enters the chain: every node but a decision closes the innermost decision. -/
def entering (k : Sketch) (kind : NodeKind) : Sketch :=
  if kind = .decision then k else { k with decisions := k.decisions.drop 1 }

/-- The chain ends with a node. -/
def endingWith (k : Sketch) (kind : NodeKind) (node : Nat) : Sketch :=
  { k with
    last := some node
    decisions := if kind = .decision then node :: k.decisions else k.decisions }

def addToChain (k : Sketch) (kind : NodeKind) (text : String) : Sketch :=
  (((k.entering kind).addEntry kind text).linkLast).endingWith kind k.entries.length

/-- Adds an answer to the innermost open decision, or to the chain if no decision is open. -/
def addAnswer (k : Sketch) (a : Answer) (text : String) : Sketch :=
  match k.decisions with
  | j :: _ => (k.addEntry .process text).addLink ⟨j, some a⟩
  | [] => k.addToChain .process text

def openFrame (k : Sketch) (name : String) : Sketch :=
  { k with
    frames := k.frames ++ [⟨name, k.openFrames.head?, k.openFrames.length⟩]
    openFrames := k.frames.length :: k.openFrames }

def closeFrame (k : Sketch) : Sketch :=
  { k with openFrames := k.openFrames.drop 1 }

/-- Draws what one line says. -/
def step (k : Sketch) : Content → Sketch
  | .nothing => k
  | .opening name => k.openFrame name
  | .closing => k.closeFrame
  | .node kind label => k.addToChain kind label
  | .answer a label => k.addAnswer a label

/-- The sketch of what some lines say. -/
def ofContents (cs : List Content) : Sketch :=
  cs.foldl step empty

@[simp] theorem ofContents_nil : ofContents [] = empty := rfl

theorem ofContents_concat (cs : List Content) (c : Content) :
    ofContents (cs ++ [c]) = (ofContents cs).step c := by
  simp [ofContents]

/-! ### Fields -/

section Fields

variable (k : Sketch) (kind : NodeKind) (text : String)

@[simp] theorem linkLast_entries : k.linkLast.entries = k.entries := by
  unfold linkLast; split <;> rfl

@[simp] theorem linkLast_frames : k.linkLast.frames = k.frames := by
  unfold linkLast; split <;> rfl

@[simp] theorem linkLast_openFrames : k.linkLast.openFrames = k.openFrames := by
  unfold linkLast; split <;> rfl

@[simp] theorem linkLast_decisions : k.linkLast.decisions = k.decisions := by
  unfold linkLast; split <;> rfl

@[simp] theorem linkLast_links : k.linkLast.links = k.links ++ (k.last.map fun j => ⟨j, none⟩).toList := by
  unfold linkLast; split <;> simp [*, addLink]

@[simp] theorem entering_entries : (k.entering kind).entries = k.entries := by
  unfold entering; split <;> rfl

@[simp] theorem entering_links : (k.entering kind).links = k.links := by
  unfold entering; split <;> rfl

@[simp] theorem entering_frames : (k.entering kind).frames = k.frames := by
  unfold entering; split <;> rfl

@[simp] theorem entering_openFrames : (k.entering kind).openFrames = k.openFrames := by
  unfold entering; split <;> rfl

@[simp] theorem entering_last : (k.entering kind).last = k.last := by
  unfold entering; split <;> rfl

@[simp] theorem addToChain_entries :
    (k.addToChain kind text).entries = k.entries ++ [⟨kind, text, k.openFrames.head?⟩] := by
  simp [addToChain, endingWith, addEntry]

@[simp] theorem addToChain_links :
    (k.addToChain kind text).links = k.links ++ (k.last.map fun j => ⟨j, none⟩).toList := by
  simp [addToChain, endingWith, addEntry]

@[simp] theorem addToChain_frames : (k.addToChain kind text).frames = k.frames := by
  simp [addToChain, endingWith, addEntry]

@[simp] theorem addToChain_openFrames : (k.addToChain kind text).openFrames = k.openFrames := by
  simp [addToChain, endingWith, addEntry]

@[simp] theorem addToChain_last : (k.addToChain kind text).last = some k.entries.length := rfl

@[simp] theorem addToChain_decisions :
    (k.addToChain kind text).decisions =
      if kind = .decision then k.entries.length :: k.decisions else k.decisions.drop 1 := by
  by_cases hk : kind = .decision <;> simp [addToChain, endingWith, entering, addEntry, hk]

variable (a : Answer)

@[simp] theorem addAnswer_entries :
    (k.addAnswer a text).entries = k.entries ++ [⟨.process, text, k.openFrames.head?⟩] := by
  unfold addAnswer; split <;> simp [addLink, addEntry]

@[simp] theorem addAnswer_frames : (k.addAnswer a text).frames = k.frames := by
  unfold addAnswer; split <;> simp [addLink, addEntry]

@[simp] theorem addAnswer_openFrames : (k.addAnswer a text).openFrames = k.openFrames := by
  unfold addAnswer; split <;> simp [addLink, addEntry]

end Fields

/-- A line that adds a node adds one entry, which shows what the line says. -/
theorem step_entries (k : Sketch) (c : Content) :
    (k.step c).entries =
      k.entries ++ (c.node?.map fun (kind, text) => ⟨kind, text, k.openFrames.head?⟩).toList := by
  cases c with
  | nothing => simp [step, Content.node?]
  | node kind label => simp [step, Content.node?]
  | answer a label => simp [step, Content.node?]
  | opening name => simp [step, openFrame, Content.node?]
  | closing => simp [step, closeFrame, Content.node?]

/-- There is one entry for each line that adds a node, in the same order. -/
theorem entries_ofContents (cs : List Content) :
    (ofContents cs).entries.map (fun e => (e.kind, e.text)) = cs.filterMap (·.node?) := by
  induction cs using List.reverseRecOn with
  | nil => rfl
  | append_singleton cs c ih =>
    rw [ofContents_concat, step_entries, List.map_append, ih, List.filterMap_append]
    cases h : c.node? <;> simp [h]

/-- The nodes that lie in a container, but in none of the containers inside it. -/
def members (k : Sketch) (j : Nat) : List Nat :=
  (k.entries.zipIdx.filter fun (e, _) => e.frame = some j).map (·.2)

/-- The containers that lie directly in a container. -/
def children (k : Sketch) (j : Nat) : List Nat :=
  (k.frames.zipIdx.filter fun (f, _) => f.parent = some j).map (·.2)

/-- The containers that are open or named as the place of something are containers of the sketch; the open ones
are open each once. -/
structure Framed (k : Sketch) : Prop where
  open_lt : ∀ j ∈ k.openFrames, j < k.frames.length
  open_falls : k.openFrames.Pairwise (· > ·)
  frame_lt : ∀ e ∈ k.entries, ∀ j, e.frame = some j → j < k.frames.length
  parent_lt : ∀ f ∈ k.frames, ∀ j, f.parent = some j → j < k.frames.length

theorem step_frames (k : Sketch) (c : Content) :
    (∃ name, c = .opening name ∧ k.step c = k.openFrame name) ∨
      (c = .closing ∧ k.step c = k.closeFrame) ∨
        ((k.step c).frames = k.frames ∧ (k.step c).openFrames = k.openFrames ∧ c.framing = .plain) := by
  cases c with
  | nothing => exact .inr (.inr ⟨rfl, rfl, rfl⟩)
  | node kind label => exact .inr (.inr (by cases kind <;> simp [step, Content.framing]))
  | answer a label => exact .inr (.inr (by simp [step, Content.framing]))
  | opening name => exact .inl ⟨name, rfl, rfl⟩
  | closing => exact .inr (.inl ⟨rfl, rfl⟩)

theorem Framed.closeFrame {k : Sketch} (h : k.Framed) : k.closeFrame.Framed :=
  ⟨fun j hj => h.open_lt j (List.mem_of_mem_drop hj), h.open_falls.sublist (List.drop_sublist 1 _), h.frame_lt,
    h.parent_lt⟩

theorem Framed.entering {k : Sketch} (h : k.Framed) (kind : NodeKind) : (k.entering kind).Framed := by
  unfold Sketch.entering
  split
  · exact h
  · exact ⟨h.open_lt, h.open_falls, h.frame_lt, h.parent_lt⟩

theorem Framed.step {k : Sketch} (h : k.Framed) (c : Content) : (k.step c).Framed := by
  have hlt : ∀ j, k.openFrames.head? = some j → j < k.frames.length := fun j hj =>
    h.open_lt j (List.mem_of_mem_head? hj)
  rcases k.step_frames c with ⟨name, rfl, hc⟩ | ⟨rfl, hc⟩ | ⟨hf, ho, -⟩
  · rw [hc]
    refine ⟨?_, List.pairwise_cons.2 ⟨fun j hj => h.open_lt j hj, h.open_falls⟩, ?_, ?_⟩
    · intro j hj
      rw [openFrame, List.length_append]
      rcases List.mem_cons.1 hj with rfl | hj
      · simp
      · exact Nat.lt_add_right _ (h.open_lt j hj)
    · intro e he j hj
      rw [openFrame, List.length_append]
      exact Nat.lt_add_right _ (h.frame_lt e he j hj)
    · intro f hf j hj
      rw [openFrame, List.length_append]
      rcases List.mem_append.1 hf with hf | hf
      · exact Nat.lt_add_right _ (h.parent_lt f hf j hj)
      · obtain rfl := List.mem_singleton.1 hf
        exact Nat.lt_add_right _ (hlt j hj)
  · rw [hc]
    exact h.closeFrame
  · refine ⟨?_, ?_, ?_, ?_⟩
    · rw [hf, ho]; exact h.open_lt
    · rw [ho]; exact h.open_falls
    · intro e he j hj
      rw [hf]
      rw [step_entries] at he
      rcases List.mem_append.1 he with he | he
      · exact h.frame_lt e he j hj
      · obtain ⟨p, hp, rfl⟩ := Option.map_eq_some_iff.1 (Option.mem_toList.1 he)
        exact hlt j hj
    · rw [hf]; exact h.parent_lt

theorem framed_ofContents (cs : List Content) : (ofContents cs).Framed := by
  induction cs using List.reverseRecOn with
  | nil => exact ⟨by simp [empty], .nil, by simp [empty], by simp [empty]⟩
  | append_singleton cs c ih => rw [ofContents_concat]; exact ih.step c

/-- The decisions and the end of the chain are nodes of the sketch, and every node but the first has a link from
a node before it. -/
structure Threaded (k : Sketch) : Prop where
  last_lt : ∀ j, k.last = some j → j < k.entries.length
  decision_lt : ∀ j ∈ k.decisions, j < k.entries.length
  entries_of_last : k.last = none → k.entries = []
  links_length : k.links.length = k.entries.length - 1
  source_le : ∀ (i : Nat) (l : Link), k.links[i]? = some l → l.source ≤ i

namespace Threaded

variable {k : Sketch}

theorem links_length_of_last (h : k.Threaded) {j : Nat} (hj : k.last = some j) :
    k.links.length + 1 = k.entries.length := by
  have := h.last_lt j hj
  have := h.links_length
  omega

theorem links_length_of_decision (h : k.Threaded) {j : Nat} (hj : j ∈ k.decisions) :
    k.links.length + 1 = k.entries.length := by
  have := h.decision_lt j hj
  have := h.links_length
  omega

/-- A link from a node that is there leads on from a node before its end. -/
private theorem source_le_concat (h : k.Threaded) {l : Link} (hl : l.source < k.entries.length) :
    ∀ (i : Nat) (l' : Link), (k.links ++ [l])[i]? = some l' → l'.source ≤ i := by
  intro i l' hi
  rcases getElem?_concat_eq_some.1 hi with hi | ⟨rfl, rfl⟩
  · exact h.source_le i l' hi
  · have := h.links_length
    omega

theorem addToChain (h : k.Threaded) (kind : NodeKind) (text : String) : (k.addToChain kind text).Threaded where
  last_lt j hj := by
    obtain rfl := Option.some.inj hj
    simp
  decision_lt j hj := by
    have hmem : j = k.entries.length ∨ j ∈ k.decisions := by
      rw [addToChain_decisions] at hj
      split at hj
      · exact List.mem_cons.1 hj
      · exact .inr (List.mem_of_mem_drop hj)
    rw [addToChain_entries, List.length_append, List.length_singleton]
    rcases hmem with rfl | hj
    · omega
    · have := h.decision_lt j hj; omega
  entries_of_last hj := by cases hj
  links_length := by
    rw [addToChain_links, addToChain_entries]
    cases hlast : k.last with
    | none => simp [h.entries_of_last hlast, h.links_length]
    | some j => simpa using h.links_length_of_last hlast
  source_le := by
    rw [addToChain_links]
    cases hlast : k.last with
    | none => simpa using h.source_le
    | some j => exact h.source_le_concat (h.last_lt j hlast)

theorem addAnswer (h : k.Threaded) (a : Answer) (text : String) : (k.addAnswer a text).Threaded := by
  unfold Sketch.addAnswer
  split
  · next j js hd =>
    have hj : j ∈ k.decisions := by simp [hd]
    refine ⟨fun i hi => ?_, fun i hi => ?_, fun hnone => ?_, ?_, ?_⟩
    · have := h.last_lt i hi
      simp [addLink, addEntry]; omega
    · have := h.decision_lt i hi
      simp [addLink, addEntry]; omega
    · -- an open decision is a node, so the chain has an end
      have := h.decision_lt j hj
      rw [h.entries_of_last hnone] at this
      simp at this
    · simpa [addLink, addEntry] using h.links_length_of_decision hj
    · exact h.source_le_concat (h.decision_lt j hj)
  · exact h.addToChain _ _

theorem step (h : k.Threaded) (c : Content) : (k.step c).Threaded := by
  cases c with
  | nothing => exact h
  | opening name => exact ⟨h.last_lt, h.decision_lt, h.entries_of_last, h.links_length, h.source_le⟩
  | closing => exact ⟨h.last_lt, h.decision_lt, h.entries_of_last, h.links_length, h.source_le⟩
  | node kind text => exact h.addToChain kind text
  | answer a text => exact h.addAnswer a text

end Threaded

theorem threaded_ofContents (cs : List Content) : (ofContents cs).Threaded := by
  induction cs using List.reverseRecOn with
  | nil => exact ⟨by simp [empty], by simp [empty], fun _ => rfl, rfl, by simp [empty]⟩
  | append_singleton cs c ih => rw [ofContents_concat]; exact ih.step c

end Sketch

end Flowchart.Interpretation
