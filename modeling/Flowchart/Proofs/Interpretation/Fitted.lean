import Flowchart.Numeric.Double
import Flowchart.Proofs.Container.Bounding
import Flowchart.Proofs.Interpretation.Closing

/-!
# Charts are fitted

A container is fitted once, when it is closed. By then the nodes in it have their places and the containers inside
it are closed, and none of them changes any more; so it still lies around its members when the chart is finished
(`fitting_of_interpret`).

There is only one way to fit the containers of a chart. So fitting them again changes nothing
(`refitContainers_interpret`), and what holds of all fitted containers holds of those of a chart
(`containers_enclose`).
-/

namespace Flowchart.Interpretation

open Outline (Content)

variable {α : Type}

theorem requireNode_of_prefix {nodes nodes' : List (Node α)} (h : nodes <+: nodes')
    (hids : (nodes'.map (·.id)).Nodup) {id : String} {n : Node α} (hn : requireNode nodes id = .ok n) :
    requireNode nodes' id = .ok n := by
  rw [requireNode_eq_ok] at hn ⊢
  obtain ⟨hmem, hid⟩ := (find?_reverse_id Node.id (hids.sublist (h.map Node.id).sublist)).1 hn
  exact (find?_reverse_id Node.id hids).2 ⟨h.subset hmem, hid⟩

variable [Scalar α]

/-- The container lies around its members as they are in a state. -/
def FittedIn (margin : α) (s : State α) (c : Container α) : Prop :=
  ∃ nodes inner, c.nodeIds.mapM (requireNode s.nodes) = .ok nodes ∧
    c.children.mapM (closedContainer s) = .ok inner ∧
      c = c.around margin (nodes.map (·.rect) ++ inner.map (·.rect))

variable {margin : α} {ctx : Context α} {s s' : State α}

theorem FittedIn.of_continues {c : Container α} (h : FittedIn margin s c) (hs : Continues s s')
    (hids : (s'.nodes.map (·.id)).Nodup) : FittedIn margin s' c := by
  obtain ⟨nodes, inner, hnodes, hinner, hfit⟩ := h
  rw [mapM_eq_ok] at hnodes hinner
  refine ⟨nodes, inner, mapM_eq_ok.2 ?_, mapM_eq_ok.2 ?_, hfit⟩
  · exact hnodes.imp fun _ _ hn => requireNode_of_prefix hs.nodes hids hn
  · exact hinner.imp fun _ _ hd => hs.closedContainer hd

/-- A container that is closed lies around its members. -/
theorem fittedIn_closeContainer (h : closeContainer ctx s = .ok s') :
    ∃ c, s'.closed = s.closed ++ [c] ∧ FittedIn ctx.settings.containerMargin s c := by
  obtain ⟨d, ds, nodes, inner, c, -, hnodes, hinner, hc, rfl⟩ := closeContainer_eq_ok h
  obtain ⟨r, hr⟩ := (finished d).exists_around_eq ctx.settings.containerMargin
    (nodes.map (·.rect) ++ inner.map (·.rect))
  rw [← hc] at hr
  -- the container lists what its draft has listed, and only its rectangle is new
  refine ⟨c, rfl, nodes, inner, ?_, ?_, ?_⟩
  · rw [hr]
    exact hnodes
  · rw [hr]
    exact hinner
  · rw [hc, Container.around_around]

/-- All containers that are closed lie around their members. -/
def AllFitted (margin : α) (s : State α) : Prop :=
  ∀ c ∈ s.closed, FittedIn margin s c

theorem AllFitted.closeContainer (h : AllFitted ctx.settings.containerMargin s)
    (hids : (s'.nodes.map (·.id)).Nodup) (hs : closeContainer ctx s = .ok s') :
    AllFitted ctx.settings.containerMargin s' := by
  obtain ⟨c, hclosed, hc⟩ := fittedIn_closeContainer hs
  intro e he
  rw [hclosed] at he
  refine FittedIn.of_continues ?_ (closeContainer_continues hs) hids
  rcases List.mem_append.1 he with he | he
  · exact h e he
  · rwa [List.mem_singleton.1 he]

theorem AllFitted.closeAll {n : Nat} (h : AllFitted ctx.settings.containerMargin s)
    (hids : (s.nodes.map (·.id)).Nodup) (hs : closeAll ctx n s = .ok s') :
    AllFitted ctx.settings.containerMargin s' := by
  induction n generalizing s with
  | zero =>
    cases hs
    exact h
  | succ n ih =>
    obtain ⟨s₁, hs₁, hs⟩ := bind_eq_ok.1 hs
    have hids₁ : (s₁.nodes.map (·.id)).Nodup := by
      obtain ⟨d, ds, nodes, inner, c, -, -, -, -, rfl⟩ := closeContainer_eq_ok hs₁
      exact hids
    exact ih (h.closeContainer hids₁ hs₁) hids₁ hs

section Runs

variable [Trigonometry α]

theorem AllFitted.step {c : Content} (h : AllFitted ctx.settings.containerMargin s)
    (hids : (s'.nodes.map (·.id)).Nodup) (hs : step ctx s c = .ok s') :
    AllFitted ctx.settings.containerMargin s' := by
  rcases step_closed hs with hclosed | hs
  · intro e he
    rw [hclosed] at he
    exact (h e he).of_continues (step_continues hs) hids
  · exact h.closeContainer hids hs

theorem allFitted_run {cs : List Content}
    (hs : cs.foldlM (step ctx) (.initial ctx.settings ctx.existing) = .ok s) :
    AllFitted ctx.settings.containerMargin s := by
  induction cs using List.reverseRecOn generalizing s with
  | nil =>
    cases hs
    exact fun c hc => absurd hc List.not_mem_nil
  | append_singleton cs c ih =>
    -- what was found under an id is still found there, since the nodes after the line have distinct ids
    have hids := nodup_of_cards (Renders.run hs).nodes
    obtain ⟨s₀, hs₀, hc⟩ := foldlM_concat_eq_ok.1 hs
    exact (ih hs₀).step hids hc

end Runs

/-! ### Charts -/

variable {base : List String} {k : Sketch} {g : Graph α}

omit [Scalar α] in
private theorem filterMap_of_forall₂ {β γ : Type} {f : β → Option γ} {xs : List β} {ys : List γ}
    (h : List.Forall₂ (fun x y => f x = some y) xs ys) : xs.filterMap f = ys := by
  induction h with
  | nil => rfl
  | cons hx _ ih => rw [List.filterMap_cons_some hx, ih]

/-- The containers of a chart are found under their ids, as they were in the state. -/
private theorem containerWithId?_of_closedContainer (h : Renders base k s) (hg : chart s = .ok g) {id : String}
    {c : Container α} (hc : closedContainer s id = .ok c) : containerWithId? g.containers id = some c := by
  obtain ⟨-, -, hids, hcontainers⟩ := chart_eq_ok hg
  obtain rfl := closedContainer_id hc
  have hopened : c.id ∈ s.opened := by
    obtain ⟨j, hj, -, hid⟩ := h.closed_ids c (List.mem_of_find?_eq_some (closedContainer_eq_ok.1 hc))
    rw [h.opened, hid]
    exact List.mem_map_of_mem (List.mem_range.2 hj)
  -- so the chart has a container with this id, and it is the one that was found for the id
  rw [← hids] at hopened
  obtain ⟨d, hd, hid⟩ := List.mem_map.1 hopened
  have hsame := hcontainers d hd
  rw [hid, hc] at hsame
  obtain rfl := Except.ok.inj hsame
  refine (find?_reverse_id Container.id ?_).2 ⟨hd, rfl⟩
  rw [show g.containers.map Container.id = _ from hids, h.opened]
  exact List.nodup_range.map (Part.nthId_injective base .container)

theorem fitting_of_chart (h : Renders base k s) (hfitted : AllFitted margin s) (hg : chart s = .ok g) :
    Fitting g.nodes margin g.containers g.containers := by
  obtain ⟨hnodes, -, -, hcontainers⟩ := chart_eq_ok hg
  have hfit : ∀ c ∈ g.containers,
      c = c.around margin (memberRects g.nodes (inside g.containers c) c) := by
    intro c hc
    obtain ⟨nodes, inner, hn, hi, hfit⟩ :=
      hfitted c (List.mem_of_find?_eq_some (closedContainer_eq_ok.1 (hcontainers c hc)))
    rw [mapM_eq_ok] at hn hi
    have hmembers : c.nodeIds.filterMap (nodeWithId? g.nodes) = nodes := by
      refine filterMap_of_forall₂ (hn.imp fun id n h => ?_)
      rw [hnodes, ← requireNode_eq_ok, h]
    have hinside : inside g.containers c = inner :=
      filterMap_of_forall₂ (hi.imp fun id d hd => containerWithId?_of_closedContainer h hg hd)
    rw [memberRects, hmembers, hinside]
    exact hfit
  exact (List.map_id _).symm.trans (List.map_congr_left hfit)

/-- A container comes before those inside it. -/
theorem Depicts.lt_of_holds (h : Depicts base k g) (hk : k.Stacked) {i j : Nat} {c d : Container α}
    (hc : g.containers[i]? = some c) (hd : g.containers[j]? = some d) (hcd : Holds g.containers c d) : i < j := by
  obtain ⟨f, -, hroster⟩ := Option.map_eq_some_iff.1 (h.roster?_of_getElem? hc)
  have hchildren : c.children = (k.children i).map (Part.nthId base .container) :=
    congrArg Roster.children hroster.symm
  have hid : d.id = Part.nthId base .container j := Sketch.id_of_roster? (h.roster?_of_getElem? hd)
  have hmem := hcd.2.2
  rw [hchildren, hid, List.mem_map_of_injective (Part.nthId_injective base .container)] at hmem
  obtain ⟨f', hf', hparent⟩ := Sketch.mem_children.1 hmem
  exact hk.parent_lt j f' hf' i hparent

theorem Depicts.acyclic (h : Depicts base k g) (hk : k.Stacked) : Acyclic g.containers := by
  have hlt : ∀ {c d}, Relation.TransGen (Holds g.containers) c d →
      ∀ i j : Nat, g.containers[i]? = some c → g.containers[j]? = some d → i < j := by
    intro c d hcd
    induction hcd with
    | single hstep => exact fun i j hi hj => h.lt_of_holds hk hi hj hstep
    | tail _ hstep ih =>
      intro i j hi hj
      obtain ⟨m, hm⟩ := List.mem_iff_getElem?.1 hstep.1
      exact Nat.lt_trans (ih i m hi hm) (h.lt_of_holds hk hm hj hstep)
  intro c hcycle
  obtain ⟨d, hd, -⟩ := Relation.TransGen.head'_iff.1 hcycle
  obtain ⟨i, hi⟩ := List.mem_iff_getElem?.1 hd.1
  exact Nat.lt_irrefl i (hlt hcycle i i hi hi)

variable [Trigonometry α]

/-- The containers of a chart lie around their members. -/
theorem fitting_of_interpret {settings : Settings α} {existing : List (Node α)} {outline : String} {g : Graph α}
    (h : interpret settings existing outline = .ok g) :
    Fitting g.nodes settings.containerMargin g.containers g.containers := by
  obtain ⟨-, s, s', hs, hs', h⟩ := interpretContents_eq_ok.1 h
  have hrun := Renders.run hs
  have hfitted := (allFitted_run hs).closeAll (nodup_of_cards hrun.nodes) hs'
  exact fitting_of_chart (hrun.closeAll (Sketch.framed_ofContents _) hs') hfitted h

/-- Fitting the containers of a chart again changes nothing. -/
theorem refitContainers_interpret {settings : Settings α} {existing : List (Node α)} {outline : String}
    {g : Graph α} (h : interpret settings existing outline = .ok g) :
    refitContainers g.containers g.nodes settings.containerMargin = g.containers := by
  have hdepicts := depicts_of_interpret h
  have hacyclic := hdepicts.acyclic (Sketch.stacked_ofContents _)
  exact ((fitting_of_interpret h).eq_refitContainers (nodup_of_rosters hdepicts.containers) hacyclic).symm

/-- One container holds a node and another container, which is empty and stays as it was. -/
theorem refitContainers_interpret_empty :
    ∃ g : Graph Float,
      interpret Options.none.settings []
          "[Decisão] A?\n[Container] X\nSim → B\n[Container] Y\n[container-end]\n[container-end]\nNão → C" =
            .ok g ∧
        g.containers.map (·.rect) = [⟨300, 60, 490, 360⟩, ⟨340, 140, 400, 240⟩] ∧
        refitContainers g.containers g.nodes containerMargin = g.containers := by
  have hrun : (interpret (Options.none : Options Float).settings []
      "[Decisão] A?\n[Container] X\nSim → B\n[Container] Y\n[container-end]\n[container-end]\nNão → C").map
        (fun g => g.containers.map (·.rect)) = .ok [⟨300, 60, 490, 360⟩, ⟨340, 140, 400, 240⟩] := by
    decide +kernel
  obtain ⟨g, hg, hrects⟩ := exists_eq_ok_of_map hrun
  have hrefit := refitContainers_interpret hg
  exact ⟨g, hg, hrects, hrefit⟩

/-- In exact coordinates the containers of a chart enclose their members, and so do any containers, none of which
is inside itself, when they have been fitted. -/
theorem containers_enclose [Trigonometry Rat] :
    (∀ (settings : Settings Rat) (existing : List (Node Rat)) (outline : String) (g : Graph Rat),
      interpret settings existing outline = .ok g →
        Encloses settings.containerMargin g.nodes g.containers) ∧
      ∀ (cs : List (Container Rat)) (nodes : List (Node Rat)) (margin : Rat),
        (cs.map (·.id)).Nodup → Acyclic cs →
          List.Forall₂ (fun c fitted => ∃ r, fitted = { c with rect := r }) cs (refitContainers cs nodes margin) ∧
            Encloses margin nodes (refitContainers cs nodes margin) := by
  refine ⟨fun settings existing outline g h => (fitting_of_interpret h).encloses, ?_⟩
  intro cs nodes margin hids hacyclic
  have hfitting : Fitting nodes margin cs (refitContainers cs nodes margin) :=
    refitContainers_fitting hids hacyclic
  refine ⟨?_, hfitting.encloses⟩
  rw [hfitting, List.forall₂_map_right_iff, List.forall₂_same]
  exact fun c _ => c.exists_around_eq margin _

/-- Lengths and angles of displacements along the x axis. -/
@[reducible] def horizontal : Trigonometry Rat where
  hypot dx _ := if dx < 0 then -dx else dx
  bearing _ _ := 0
  cosine _ := 1
  sine _ := 0

/-- One container inside another, as they are in the chart and when they have been fitted more closely. -/
theorem containers_enclose_nested :
    ∃ g : Graph Rat,
      @interpret Rat _ horizontal Options.none.settings [] "[Container] X\n[Container] Y\n[Início] A" = .ok g ∧
        g.containers.map (·.rect) = [⟨300, 100, 300, 240⟩, ⟨340, 140, 220, 160⟩] ∧
        (refitContainers g.containers g.nodes 10).map (·.rect) = [⟨360, 160, 180, 120⟩, ⟨370, 170, 160, 100⟩] ∧
        Encloses containerMargin g.nodes g.containers ∧
        Encloses 10 g.nodes (refitContainers g.containers g.nodes 10) := by
  have hrun : (@interpret Rat _ horizontal Options.none.settings []
      "[Container] X\n[Container] Y\n[Início] A").map
        (fun g => (g.containers.map (·.rect), (refitContainers g.containers g.nodes 10).map (·.rect))) =
      .ok ([⟨300, 100, 300, 240⟩, ⟨340, 140, 220, 160⟩], [⟨360, 160, 180, 120⟩, ⟨370, 170, 160, 100⟩]) := by
    decide +kernel
  obtain ⟨g, hg, hrects⟩ := exists_eq_ok_of_map hrun
  obtain ⟨hrects, hcloser⟩ := Prod.mk.inj hrects
  have hdepicts := @depicts_of_interpret Rat _ horizontal _ _ _ _ hg
  obtain ⟨hchart, hfitted⟩ := @containers_enclose horizontal
  have hacyclic := hdepicts.acyclic (Sketch.stacked_ofContents _)
  exact ⟨g, hg, hrects, hcloser, hchart _ _ _ g hg,
    (hfitted g.containers g.nodes 10 (nodup_of_rosters hdepicts.containers) hacyclic).2⟩

end Flowchart.Interpretation
