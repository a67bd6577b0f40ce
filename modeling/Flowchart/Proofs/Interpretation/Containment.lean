import Flowchart.Numeric.Double
import Flowchart.Proofs.Outline.Frames
import Flowchart.Proofs.Interpretation.Rendering

/-!
# Containers

The containers of a chart are the bracket structure of its outline (`interpret_nested`): there is one for each
opening line, whether it is closed or not, and each container and each node lies in the one that is the innermost
open one at its line. A closing line that closes nothing could as well be left out (`interpretContents_eraseIdx`).
-/

namespace Flowchart.Interpretation

open Outline (Content Listed lineContents frameAt? levelAt opensBefore nodesBefore)

namespace Sketch

/-- A line that opens a container adds one frame, in the innermost open one. -/
theorem step_frames_concat (k : Sketch) (c : Content) :
    (k.step c).frames =
      k.frames ++ (c.name?.map fun name => ⟨name, k.openFrames.head?, k.openFrames.length⟩).toList := by
  cases c with
  | nothing => simp [step, Content.name?]
  | node kind label => simp [step, Content.name?]
  | answer a label => simp [step, Content.name?]
  | opening name => simp [step, openFrame, Content.name?]
  | closing => simp [step, closeFrame, Content.name?]

end Sketch

/-- A sketch has the containers of its lines. -/
structure Bracketed (cs : List Content) (k : Sketch) : Prop where
  openFrames : k.openFrames = (Nesting.openAfter (cs.map Content.framing)).map (opensBefore cs)
  frames : Listed Content.name? cs (fun p name => ⟨name, frameAt? cs p, levelAt cs p⟩) k.frames
  entries : Listed Content.node? cs (fun p (kind, text) => ⟨kind, text, frameAt? cs p⟩) k.entries

namespace Bracketed

variable {cs : List Content} {k : Sketch}

/-- The innermost open container is the one in which the next line lies. -/
theorem head?_openFrames (h : Bracketed cs k) : k.openFrames.head? = frameAt? cs cs.length := by
  rw [h.openFrames, List.head?_map, Nesting.head?_openAfter, List.length_map]
  rfl

theorem length_openFrames (h : Bracketed cs k) : k.openFrames.length = levelAt cs cs.length := by
  unfold levelAt
  rw [h.openFrames, List.length_map, List.take_of_length_le (by simp)]

private theorem openFrames_step (h : Bracketed cs k) (c : Content) :
    (k.step c).openFrames =
      (Nesting.openAfter ((cs ++ [c]).map Content.framing)).map (opensBefore (cs ++ [c])) := by
  have hold : (Nesting.openAfter (cs.map Content.framing)).map (opensBefore (cs ++ [c])) = k.openFrames := by
    rw [h.openFrames]
    refine List.map_congr_left fun q hq => Outline.opensBefore_concat cs c ?_
    have := Nesting.lt_of_mem_openAfter hq
    rw [List.length_map] at this
    omega
  rw [List.map_append, List.map_singleton, Nesting.openAfter_concat, List.length_map]
  rcases k.step_frames c with ⟨name, rfl, hc⟩ | ⟨rfl, hc⟩ | ⟨-, ho, hc⟩
  · have hnumber : opensBefore (cs ++ [.opening name]) cs.length = k.frames.length := by
      rw [Outline.opensBefore_concat cs _ (Nat.le_refl _), h.frames.length_eq, opensBefore, Outline.countBefore,
        List.take_length]
    rw [hc]
    show k.frames.length :: k.openFrames = opensBefore _ cs.length :: _
    rw [hnumber, hold]
  · rw [hc]
    show k.openFrames.drop 1 = ((Nesting.openAfter _).drop 1).map _
    rw [List.map_drop, hold]
  · rw [ho, hc]
    exact hold.symm

theorem step (h : Bracketed cs k) (c : Content) : Bracketed (cs ++ [c]) (k.step c) where
  openFrames := h.openFrames_step c
  frames := by
    rw [Sketch.step_frames_concat, h.head?_openFrames, h.length_openFrames]
    refine h.frames.concat c fun p hp name => ?_
    rw [Outline.frameAt?_concat cs c hp, Outline.levelAt_concat cs c hp]
  entries := by
    rw [Sketch.step_entries, h.head?_openFrames]
    refine h.entries.concat c fun p hp entry => ?_
    rw [Outline.frameAt?_concat cs c hp]

end Bracketed

theorem bracketed_ofContents (cs : List Content) : Bracketed cs (Sketch.ofContents cs) := by
  induction cs using List.reverseRecOn with
  | nil => exact ⟨rfl, .nil _ _, .nil _ _⟩
  | append_singleton cs c ih =>
    rw [Sketch.ofContents_concat]
    exact ih.step c

/-! ### Charts -/

variable {α : Type} [Scalar α]

omit [Scalar α] in
/-- The containers around a container, from the inside out. -/
inductive Ancestors (g : Graph α) : Container α → List (Container α) → Prop
  | outermost {c : Container α} : c.parent = none → Ancestors g c []
  | inside {c d : Container α} {ds : List (Container α)} :
      d ∈ g.containers → c.parent = some d.id → Ancestors g d ds → Ancestors g c (d :: ds)

/-- What names the container that is the innermost open one at a line; none if no container is open there. -/
def Surrounds (cs : List Content) (g : Graph α) (p : Nat) : Option String → Prop
  | none => Nesting.innermost? (cs.map Content.framing) p = none
  | some id => ∃ q d, Nesting.innermost? (cs.map Content.framing) p = some q ∧
      g.containers[opensBefore cs q]? = some d ∧ d.id = id

/-- The containers of a chart are the bracket structure of its lines. -/
structure Nested (cs : List Content) (g : Graph α) : Prop where
  containers_length : g.containers.length = cs.countP (·.name?.isSome)
  nodes_length : g.nodes.length = cs.countP (·.node?.isSome)
  container_ids_nodup : (g.containers.map (·.id)).Nodup
  node_ids_nodup : (g.nodes.map (·.id)).Nodup
  /-- A container lies in the innermost one that is open at its opening. -/
  opened : ∀ (p : Nat) (name : String), cs[p]? = some (.opening name) →
    ∃ c, g.containers[opensBefore cs p]? = some c ∧ c.name = name ∧ Surrounds cs g p c.parent
  /-- A node lies in the innermost container that is open at its line. -/
  placed : ∀ (p : Nat) (c : Content), cs[p]? = some c → c.node?.isSome →
    ∃ n id, g.nodes[nodesBefore cs p]? = some n ∧ n.container = Reference.ofName? id ∧ Surrounds cs g p id
  ancestors : ∀ c ∈ g.containers, ∃ ds, Ancestors g c ds ∧ ds.Nodup ∧ c.depth = ds.length
  children_eq : ∀ c ∈ g.containers, c.children = (g.containers.filter (·.parent = some c.id)).map (·.id)
  nodeIds_eq : ∀ c ∈ g.containers, c.nodeIds = (g.nodes.filter (·.container = .named c.id)).map (·.id)

namespace Depicts

variable {base : List String} {k : Sketch} {g : Graph α} {cs : List Content}

/-- A container is drawn from its frame. -/
private theorem exists_frame (h : Depicts base k g) {c : Container α} (hc : c ∈ g.containers) :
    ∃ j f, k.frames[j]? = some f ∧ rosterOf c = k.roster base f j := by
  obtain ⟨j, hj⟩ := List.mem_iff_getElem?.1 hc
  obtain ⟨f, hf, hfc⟩ := Option.map_eq_some_iff.1 (h.roster?_of_getElem? hj)
  exact ⟨j, f, hf, hfc.symm⟩

private theorem exists_container (h : Depicts base k g) {j : Nat} {f : Frame} (hf : k.frames[j]? = some f) :
    ∃ c, g.containers[j]? = some c ∧ rosterOf c = k.roster base f j := by
  have hroster := h.getElem?_containers j
  rw [Sketch.roster?, hf, Option.map_some] at hroster
  exact Option.map_eq_some_iff.1 hroster

private theorem children_eq (h : Depicts base k g) {c : Container α} (hc : c ∈ g.containers) :
    c.children = (g.containers.filter (·.parent = some c.id)).map (·.id) := by
  obtain ⟨j, f, -, hroster⟩ := h.exists_frame hc
  have hid : c.id = Part.nthId base .container j := congrArg Roster.id hroster
  have hchildren : c.children = (k.children j).map (Part.nthId base .container) :=
    congrArg Roster.children hroster
  have hfilter : (g.containers.filter (·.parent = some c.id)).map (·.id) =
      ((g.containers.map rosterOf).filter (·.parent = some c.id)).map (·.id) := by
    rw [List.filter_map, List.map_map]
    rfl
  rw [hfilter, h.containers, hchildren, hid, Sketch.rosters, List.filter_map, List.map_map, Sketch.children,
    List.map_map]
  congr 1
  refine List.filter_congr fun entry _ => ?_
  obtain ⟨f', i⟩ := entry
  refine decide_eq_decide.2 ?_
  exact (Option.map_injective (Part.nthId_injective base .container)).eq_iff.symm

private theorem nodeIds_eq (h : Depicts base k g) {c : Container α} (hc : c ∈ g.containers) :
    c.nodeIds = (g.nodes.filter (·.container = .named c.id)).map (·.id) := by
  obtain ⟨j, f, -, hroster⟩ := h.exists_frame hc
  have hid : c.id = Part.nthId base .container j := congrArg Roster.id hroster
  have hnodeIds : c.nodeIds = (k.members j).map (Part.nthId base .node) := congrArg Roster.nodeIds hroster
  have hfilter : (g.nodes.filter (·.container = .named c.id)).map (·.id) =
      ((g.nodes.map cardOf).filter (·.container = .named c.id)).map (·.id) := by
    rw [List.filter_map, List.map_map]
    rfl
  rw [hfilter, h.nodes, hnodeIds, hid, Sketch.cards, List.filter_map, List.map_map, Sketch.members, List.map_map]
  congr 1
  refine List.filter_congr fun entry _ => ?_
  obtain ⟨e, i⟩ := entry
  refine decide_eq_decide.2 ?_
  cases he : e.frame with
  | none => simp [Reference.ofName?, he]
  | some i => simp [Reference.ofName?, he, (Part.nthId_injective base .container).eq_iff]

/-- What the frame of a line names is the container around the line. -/
private theorem surrounds (h : Depicts base k g) (hk : Bracketed cs k) (p : Nat) :
    Surrounds cs g p ((frameAt? cs p).map (Part.nthId base .container)) := by
  unfold frameAt?
  cases hq : Nesting.innermost? (cs.map Content.framing) p with
  | none => exact hq
  | some q =>
    obtain ⟨-, name, hopening⟩ := Outline.opening_of_innermost? hq
    obtain ⟨d, hd, hroster⟩ := h.exists_container (hk.frames.getElem?_eq q _ name hopening rfl)
    exact ⟨q, d, hq, hd, congrArg Roster.id hroster⟩

/-- The depth of a container falls by one from each container around it to the next. -/
private theorem exists_ancestors (h : Depicts base k g) (hk : Bracketed cs k) {p : Nat} {name : String}
    {c : Container α} (hp : cs[p]? = some (.opening name)) (hc : g.containers[opensBefore cs p]? = some c) :
    ∃ ds, Ancestors g c ds ∧ ds.map (·.depth) = (List.range c.depth).reverse := by
  -- induction on the place of the opening: the container around it is opened earlier
  induction p using Nat.strongRecOn generalizing name c with
  | ind p ih =>
    obtain ⟨c', hc', hroster⟩ := h.exists_container (hk.frames.getElem?_eq p _ name hp rfl)
    obtain rfl : c = c' := Option.some.inj (hc.symm.trans hc')
    have hdepth : c.depth = levelAt cs p := congrArg Roster.depth hroster
    have hparent : c.parent = (frameAt? cs p).map (Part.nthId base .container) := congrArg Roster.parent hroster
    have hle := Nat.le_of_lt (List.getElem?_eq_some_iff.1 hp).1
    have hsurrounds := h.surrounds hk p
    rw [← hparent] at hsurrounds
    cases hid : c.parent with
    | none =>
      rw [hid] at hsurrounds
      refine ⟨[], .outermost hid, ?_⟩
      rw [hdepth, (Outline.innermost?_eq_none_iff hle).1 hsurrounds]
      rfl
    | some id =>
      rw [hid] at hsurrounds
      obtain ⟨q, d, hq, hd, rfl⟩ := hsurrounds
      obtain ⟨hlt, outer, hopening⟩ := Outline.opening_of_innermost? hq
      obtain ⟨ds, hds, hdepths⟩ := ih q hlt hopening hd
      obtain ⟨d', hd', hroster'⟩ := h.exists_container (hk.frames.getElem?_eq q _ outer hopening rfl)
      obtain rfl : d = d' := Option.some.inj (hd.symm.trans hd')
      have hdepth' : d.depth = levelAt cs q := congrArg Roster.depth hroster'
      refine ⟨d :: ds, .inside (List.mem_of_getElem? hd) hid hds, ?_⟩
      rw [List.map_cons, hdepths, hdepth, Outline.levelAt_of_innermost? hle hq, ← hdepth', List.range_succ,
        List.reverse_append]
      rfl

private theorem containers_length (h : Depicts base k g) (hk : Bracketed cs k) :
    g.containers.length = cs.countP (·.name?.isSome) := by
  have hlength := congrArg List.length h.containers
  rw [List.length_map, Sketch.rosters, List.length_map, List.length_zipIdx] at hlength
  exact hlength.trans hk.frames.length_eq

theorem nested (h : Depicts base k g) (hk : Bracketed cs k) : Nested cs g where
  containers_length := h.containers_length hk
  nodes_length := h.nodes_length.trans hk.entries.length_eq
  container_ids_nodup := nodup_of_rosters h.containers
  node_ids_nodup := nodup_of_cards h.nodes
  opened p name hp := by
    obtain ⟨c, hc, hroster⟩ := h.exists_container (hk.frames.getElem?_eq p _ name hp rfl)
    have hparent : c.parent = (frameAt? cs p).map (Part.nthId base .container) := congrArg Roster.parent hroster
    exact ⟨c, hc, congrArg Roster.name hroster, hparent ▸ h.surrounds hk p⟩
  placed p c hp hnode := by
    obtain ⟨⟨kind, text⟩, hc⟩ := Option.isSome_iff_exists.1 hnode
    have hcard := h.getElem?_nodes (nodesBefore cs p)
    have hentry : k.entries[nodesBefore cs p]? = some ⟨kind, text, frameAt? cs p⟩ :=
      hk.entries.getElem?_eq p c _ hp hc
    rw [hentry, Option.map_some] at hcard
    obtain ⟨n, hn, hcard⟩ := Option.map_eq_some_iff.1 hcard
    exact ⟨n, _, hn, congrArg Card.container hcard, h.surrounds hk p⟩
  ancestors c hc := by
    obtain ⟨j, hj⟩ := List.mem_iff_getElem?.1 hc
    have hlt : j < cs.countP (·.name?.isSome) := h.containers_length hk ▸ (List.getElem?_eq_some_iff.1 hj).1
    obtain ⟨p, d, name, hp, hd, rfl⟩ := Outline.exists_place Content.name? hlt
    have hopening : d = .opening name := by
      cases d with
      | opening name' => exact congrArg Content.opening (Option.some.inj hd)
      | _ => cases hd
    obtain ⟨ds, hds, hdepths⟩ := h.exists_ancestors hk (hopening ▸ hp) hj
    refine ⟨ds, hds, ?_, ?_⟩
    · have hnodup := List.nodup_reverse.2 (List.nodup_range (n := c.depth))
      rw [← hdepths] at hnodup
      exact hnodup.of_map _
    · simpa using (congrArg List.length hdepths).symm
  children_eq _ := h.children_eq
  nodeIds_eq _ := h.nodeIds_eq

end Depicts

variable [Trigonometry α]

/-- A closing line behind lines that leave no container open changes nothing. -/
private theorem foldlM_closing (ctx : Context α) {cs : List Content} (rest : List Content)
    (hlevel : levelAt cs cs.length = 0) :
    (cs ++ .closing :: rest).foldlM (step ctx) (.initial ctx.settings ctx.existing) =
      (cs ++ rest).foldlM (step ctx) (.initial ctx.settings ctx.existing) := by
  rw [List.foldlM_append, List.foldlM_append]
  cases hs : cs.foldlM (step ctx) (.initial ctx.settings ctx.existing) with
  | error e => rfl
  | ok s =>
    have hdrafts : s.drafts.length = 0 := by
      rw [← (Renders.run hs).drafts.length_eq, (bracketed_ofContents cs).length_openFrames, hlevel]
    have hstep : step ctx s .closing = .ok s := by
      rw [step, List.eq_nil_of_length_eq_zero hdrafts]
      rfl
    show (step ctx s .closing >>= fun s => rest.foldlM (step ctx) s) = rest.foldlM (step ctx) s
    rw [hstep]
    rfl

theorem interpretContents_eraseIdx (ctx : Context α) {cs : List Content} {p : Nat} (hp : cs[p]? = some .closing)
    (hnone : Nesting.innermost? (cs.map Content.framing) p = none) :
    interpretContents ctx (cs.eraseIdx p) = interpretContents ctx cs := by
  obtain ⟨hlt, hclosing⟩ := List.getElem?_eq_some_iff.1 hp
  have hlevel : levelAt (cs.take p) (cs.take p).length = 0 := by
    have hzero := (Outline.innermost?_eq_none_iff (Nat.le_of_lt hlt)).1 hnone
    unfold levelAt at hzero ⊢
    rw [List.map_take, List.length_take_of_le (Nat.le_of_lt hlt), List.take_take, Nat.min_self]
    exact hzero
  have hrun := foldlM_closing ctx (cs.drop (p + 1)) hlevel
  rw [← hclosing, ← List.drop_eq_getElem_cons hlt, List.take_append_drop] at hrun
  unfold interpretContents
  rw [List.eraseIdx_eq_take_drop_succ, hrun]

/-- The containers of a chart are the bracket structure of its outline, and a closing line at which no container
is open could as well be left out. -/
theorem interpret_nested {settings : Settings α} {existing : List (Node α)} {outline : String} {g : Graph α}
    (h : interpret settings existing outline = .ok g) :
    Nested (lineContents settings.labelCap outline.toList) g ∧
      ∀ (p : Nat) (shorter : String), (lineContents settings.labelCap outline.toList)[p]? = some .closing →
        Nesting.innermost? ((lineContents settings.labelCap outline.toList).map Content.framing) p = none →
        lineContents settings.labelCap shorter.toList =
          (lineContents settings.labelCap outline.toList).eraseIdx p →
        interpret settings existing shorter = .ok g := by
  rw [← Outline.contents_eq]
  constructor
  · exact (depicts_of_interpret h).nested (bracketed_ofContents _)
  · intro p shorter hp hnone hshorter
    rw [← Outline.contents_eq] at hshorter
    unfold interpret at h ⊢
    rw [hshorter, interpretContents_eraseIdx _ hp hnone, h]

/-- The first line closes nothing; the second container stays open inside the first. -/
theorem interpret_nested_open :
    ∃ (g : Graph Float) (d : Container Float),
      interpret Options.none.settings []
          "[container-end]\n[Container] X\n[Decisão] A?\n[Container] Y\nSim → B" = .ok g ∧
        interpret Options.none.settings [] "[Container] X\n[Decisão] A?\n[Container] Y\nSim → B" = .ok g ∧
        g.containers.map (fun c => (c.id, c.children)) = [("container-1", ["container-2"]), ("container-2", [])] ∧
        g.containers[1]? = some d ∧ d.name = "Y" ∧
        d.nodeIds = (g.nodes.filter (·.container = .named d.id)).map (·.id) := by
  have hrun : (interpret (Options.none : Options Float).settings []
      "[container-end]\n[Container] X\n[Decisão] A?\n[Container] Y\nSim → B").map
        (fun g => g.containers.map (fun c => (c.id, c.children))) =
      .ok [("container-1", ["container-2"]), ("container-2", [])] := by decide +kernel
  obtain ⟨g, hg, hchildren⟩ := exists_eq_ok_of_map hrun
  obtain ⟨hnested, hclosing⟩ := interpret_nested hg
  obtain ⟨d, hd, hname, -⟩ := hnested.opened 3 "Y" (by decide +kernel)
  exact ⟨g, d, hg, hclosing 0 _ (by decide +kernel) (by decide +kernel) (by decide +kernel), hchildren, hd, hname,
    hnested.nodeIds_eq d (List.mem_of_getElem? hd)⟩

end Flowchart.Interpretation
