import Flowchart.Container.Fitting
import Flowchart.Proofs.Lookup
import Mathlib.Data.List.Nodup
import Mathlib.Data.List.Perm.Subperm
import Mathlib.Logic.Function.Iterate
import Mathlib.Logic.Relation

/-!
# Fitted containers

The containers of a chart are fitted if each of them lies around its members, where the containers inside it count
as they lie in the fitted chart itself (`Fitting`). Where ids are distinct and no container is inside itself, this
determines all rectangles, and fitting finds them: the result is fitted (`refitContainers_fitting`), and
there is no other fitted form (`Fitting.eq_refitContainers`).

Both rest on `fitStep`, which fits every container once, around given forms of those inside it. Containers that
are nested within some levels come out the same after as many steps, whatever the steps begin with
(`fitStep_iterate_congr`), and no more levels are possible than there are containers (`nestedWithin_of_acyclic`).
-/

namespace Flowchart

variable {α : Type}

/-- The containers that a container lists and that are there. -/
def inside (cs : List (Container α)) (c : Container α) : List (Container α) :=
  c.children.filterMap (containerWithId? cs)

/-- Whether the first container lists the second one, both being there. -/
def Holds (cs : List (Container α)) (c d : Container α) : Prop :=
  c ∈ cs ∧ d ∈ cs ∧ d.id ∈ c.children

/-- Whether no container is inside itself, directly or through others. -/
def Acyclic (cs : List (Container α)) : Prop :=
  ∀ c, ¬ Relation.TransGen (Holds cs) c c

/-- Whether the containers inside a container are nested in fewer than the given number of levels. -/
def NestedWithin (cs : List (Container α)) : (levels : Nat) → Container α → Prop
  | 0, _ => False
  | levels + 1, c => ∀ d ∈ inside cs c, NestedWithin cs levels d

theorem containerWithId?_eq_some {cs : List (Container α)} {id : String} {c : Container α}
    (h : containerWithId? cs id = some c) : c ∈ cs ∧ c.id = id :=
  ⟨List.mem_reverse.1 (List.mem_of_find?_eq_some h), by simpa using List.find?_some h⟩

theorem mem_inside {cs : List (Container α)} {c d : Container α} (h : d ∈ inside cs c) :
    d ∈ cs ∧ d.id ∈ c.children := by
  obtain ⟨id, hid, hd⟩ := List.mem_filterMap.1 h
  obtain ⟨hmem, rfl⟩ := containerWithId?_eq_some hd
  exact ⟨hmem, hid⟩

/-- Going inwards one meets new containers only, so the levels are used up when all containers have been met. -/
private theorem nestedWithin_of_path {cs : List (Container α)} (h : Acyclic cs) {levels : Nat}
    (path : List (Container α)) {c : Container α} (hc : c ∈ cs) (hnodup : path.Nodup) (hsub : path ⊆ cs)
    (hpath : ∀ a ∈ path, Relation.TransGen (Holds cs) a c) (hlevels : cs.length < levels + path.length) :
    NestedWithin cs levels c := by
  induction levels generalizing path c with
  | zero =>
    have := (hnodup.subperm hsub).length_le
    omega
  | succ levels ih =>
    intro d hd
    obtain ⟨hmem, hid⟩ := mem_inside hd
    have hholds : Holds cs c d := ⟨hc, hmem, hid⟩
    have hnew : c ∉ path := fun hin => h c (hpath c hin)
    refine ih (c :: path) hmem (List.nodup_cons.2 ⟨hnew, hnodup⟩) (List.cons_subset.2 ⟨hc, hsub⟩) ?_ ?_
    · intro a ha
      rcases List.mem_cons.1 ha with rfl | ha
      · exact .single hholds
      · exact (hpath a ha).tail hholds
    · rw [List.length_cons]
      omega

theorem nestedWithin_of_acyclic {cs : List (Container α)} (h : Acyclic cs) {c : Container α} (hc : c ∈ cs) :
    NestedWithin cs (cs.length + 1) c :=
  nestedWithin_of_path h [] hc .nil (List.nil_subset _) (by simp) (by simp)

/-- There is no cycle if containers of a lower rank only are inside a container. -/
theorem acyclic_of_rank {cs : List (Container α)} (rank : Container α → Nat)
    (h : ∀ c ∈ cs, ∀ d ∈ cs, d.id ∈ c.children → rank d < rank c) : Acyclic cs := by
  have hstep : ∀ c d, Holds cs c d → rank d < rank c := fun c d ⟨hc, hd, hid⟩ => h c hc d hd hid
  intro c hcycle
  have hfalls : ∀ d, Relation.TransGen (Holds cs) c d → rank d < rank c := by
    intro d hd
    induction hd with
    | single hcd => exact hstep _ _ hcd
    | tail _ hde ih => exact Nat.lt_trans (hstep _ _ hde) ih
  exact Nat.lt_irrefl _ (hfalls c hcycle)

theorem containerWithId?_map {t : Container α → Container α} (ht : ∀ c, (t c).id = c.id)
    (cs : List (Container α)) (id : String) :
    containerWithId? (cs.map t) id = (containerWithId? cs id).map t :=
  find?_reverse_map Container.id ht cs id

theorem inside_map {t : Container α → Container α} (ht : ∀ c, (t c).id = c.id) (cs : List (Container α))
    (c : Container α) : inside (cs.map t) c = (inside cs c).map t := by
  unfold inside
  rw [List.map_filterMap]
  congr 1
  funext id
  exact containerWithId?_map ht cs id

/-! ### One step of fitting -/

variable [Scalar α]

/-- The rectangles of the members of a container that are there: its nodes, and the containers inside it. -/
def memberRects (nodes : List (Node α)) (inner : List (Container α)) (c : Container α) : List (Rect α) :=
  (c.nodeIds.filterMap (nodeWithId? nodes)).map (·.rect) ++ inner.map (·.rect)

/-- The list holds the fitted forms of some containers: each lies around its members, where the containers
inside it count as they are in the list. -/
def Fitting (nodes : List (Node α)) (margin : α) (cs fitted : List (Container α)) : Prop :=
  fitted = cs.map fun c => c.around margin (memberRects nodes (inside fitted c) c)

namespace Container

/-- Only the rectangle of a container is fitted. -/
theorem exists_around_eq (c : Container α) (margin : α) (rects : List (Rect α)) :
    ∃ r, c.around margin rects = { c with rect := r } := by
  unfold around
  split
  · exact ⟨_, rfl⟩
  · exact ⟨c.rect, rfl⟩

@[simp] theorem around_id (c : Container α) (margin : α) (rects : List (Rect α)) :
    (c.around margin rects).id = c.id := by
  unfold around; split <;> rfl

@[simp] theorem around_children (c : Container α) (margin : α) (rects : List (Rect α)) :
    (c.around margin rects).children = c.children := by
  unfold around; split <;> rfl

/-- The rectangle that is fitted around some members does not depend on the one before. -/
theorem around_around (c : Container α) (margin : α) (rects : List (Rect α)) :
    (c.around margin rects).around margin rects = c.around margin rects := by
  unfold around; split <;> simp [*]

end Container

/-- Fits a container around its members, the containers inside it being given in the form `t`. -/
def fitStep (nodes : List (Node α)) (cs : List (Container α)) (margin : α) (t : Container α → Container α)
    (c : Container α) : Container α :=
  c.around margin (memberRects nodes ((inside cs c).map t) c)

variable {nodes : List (Node α)} {cs : List (Container α)} {margin : α}

theorem fitStep_congr {t t' : Container α → Container α} {c : Container α} (h : ∀ d ∈ inside cs c, t d = t' d) :
    fitStep nodes cs margin t c = fitStep nodes cs margin t' c := by
  unfold fitStep
  rw [List.map_congr_left h]

/-- After as many steps as there are levels it makes no difference with which forms the steps begin. -/
theorem fitStep_iterate_congr (t t' : Container α → Container α) {levels : Nat} {c : Container α}
    (h : NestedWithin cs levels c) :
    (fitStep nodes cs margin)^[levels] t c = (fitStep nodes cs margin)^[levels] t' c := by
  induction levels generalizing c with
  | zero => exact h.elim
  | succ levels ih =>
    rw [Function.iterate_succ_apply', Function.iterate_succ_apply']
    exact fitStep_congr fun d hd => ih (h d hd)

/-- The form of each container after enough steps. -/
def fittedForm (nodes : List (Node α)) (cs : List (Container α)) (margin : α) : Container α → Container α :=
  (fitStep nodes cs margin)^[cs.length + 1] id

theorem fitStep_fittedForm (h : Acyclic cs) {c : Container α} (hc : c ∈ cs) :
    fitStep nodes cs margin (fittedForm nodes cs margin) c = fittedForm nodes cs margin c := by
  unfold fittedForm
  rw [← Function.iterate_succ_apply' (fitStep nodes cs margin), Function.iterate_succ_apply]
  exact fitStep_iterate_congr _ _ (nestedWithin_of_acyclic h hc)

/-- A form that a step leaves as it is is the one after enough steps. -/
theorem eq_fittedForm (h : Acyclic cs) {t : Container α → Container α}
    (ht : ∀ c ∈ cs, fitStep nodes cs margin t c = t c) {c : Container α} (hc : c ∈ cs) :
    t c = fittedForm nodes cs margin c := by
  have hkeeps : ∀ (n : Nat), ∀ c ∈ cs, (fitStep nodes cs margin)^[n] t c = t c := by
    intro n
    induction n with
    | zero => exact fun c _ => rfl
    | succ n ih =>
      intro c hc
      rw [Function.iterate_succ_apply', ← ht c hc]
      exact fitStep_congr fun d hd => ih d (mem_inside hd).1
  rw [← hkeeps (cs.length + 1) c hc]
  exact fitStep_iterate_congr _ _ (nestedWithin_of_acyclic h hc)

/-- What is on record are containers in a form `t`, under their ids. -/
def Recorded (cs : List (Container α)) (t : Container α → Container α) (fitted : Fitted α) : Prop :=
  ∀ id done, fitted.lookup id = some done → ∃ c ∈ cs, c.id = id ∧ done = t c

/-- A run gives a container in the form `t` and keeps the record right. -/
def Records (cs : List (Container α)) (t : Container α → Container α)
    (run : Fitted α → Container α → Container α × Fitted α) (c : Container α) : Prop :=
  ∀ fitted, Recorded cs t fitted → (run fitted c).1 = t c ∧ Recorded cs t (run fitted c).2

omit [Scalar α] in
/-- Containers that are worked off one by one, each in the form `t`, are collected in this form. -/
private theorem foldl_records {β : Type} {t : Container α → Container α}
    {run : Fitted α → Container α → Container α × Fitted α} (pick : Container α → β) (xs : List (Container α))
    (hrun : ∀ c ∈ xs, Records cs t run c) (acc : List β) {fitted : Fitted α} (h : Recorded cs t fitted) :
    (xs.foldl (fun s c => (s.1 ++ [pick (run s.2 c).1], (run s.2 c).2)) (acc, fitted)).1 =
        acc ++ (xs.map fun c => pick (t c)) ∧
      Recorded cs t (xs.foldl (fun s c => (s.1 ++ [pick (run s.2 c).1], (run s.2 c).2)) (acc, fitted)).2 := by
  induction xs generalizing acc fitted with
  | nil => exact ⟨by simp, h⟩
  | cons c xs ih =>
    obtain ⟨hdone, hrecorded⟩ := hrun c List.mem_cons_self fitted h
    rw [List.foldl_cons]
    obtain ⟨hlist, hrest⟩ :=
      ih (fun d hd => hrun d (List.mem_cons_of_mem c hd)) (acc ++ [pick (run fitted c).1]) hrecorded
    refine ⟨?_, hrest⟩
    rw [hlist, hdone, List.map_cons, List.append_assoc, List.singleton_append]

/-- A container gets the form that a step leaves as it is, if the levels are enough. -/
private theorem records_fitOne (hids : (cs.map (·.id)).Nodup) {t : Container α → Container α}
    (ht : ∀ c ∈ cs, fitStep nodes cs margin t c = t c) {depth : Nat} {c : Container α} (hc : c ∈ cs)
    (hdepth : NestedWithin cs depth c) : Records cs t (fitOne nodes cs margin depth) c := by
  induction depth generalizing c with
  | zero => exact hdepth.elim
  | succ depth ih =>
    intro fitted h
    unfold fitOne
    split
    · next done hdone =>
      obtain ⟨d, hd, hid, rfl⟩ := h c.id done hdone
      obtain rfl := List.inj_on_of_nodup_map hids hd hc hid
      exact ⟨rfl, h⟩
    · have hinner : ∀ d ∈ inside cs c, Records cs t (fitOne nodes cs margin depth) d :=
        fun d hd => ih (mem_inside hd).1 (hdepth d hd)
      obtain ⟨hrects, hrecorded⟩ := foldl_records (·.rect) (inside cs c) hinner [] h
      have hdone := ht c hc
      unfold fitStep memberRects at hdone
      rw [List.map_map] at hdone
      have hfit := (congrArg (fun rects => c.around margin (_ ++ rects)) hrects).trans hdone
      refine ⟨hfit, fun id done hlookup => ?_⟩
      rw [List.lookup_cons] at hlookup
      split at hlookup
      · next hid =>
        exact ⟨c, hc, (by simpa using hid : id = c.id).symm, (Option.some.inj hlookup).symm.trans hfit⟩
      · exact hrecorded id done hlookup

/-! ### The fitted form -/

variable (hids : (cs.map (·.id)).Nodup) (hacyclic : Acyclic cs)
include hids hacyclic

theorem refitContainers_eq_map :
    refitContainers cs nodes margin = cs.map (fittedForm nodes cs margin) := by
  have hempty : Recorded cs (fittedForm nodes cs margin) ([] : Fitted α) := fun id done h => by cases h
  have hrun : ∀ c ∈ cs, Records cs (fittedForm nodes cs margin) (fitOne nodes cs margin (cs.length + 1)) c :=
    fun c hc => records_fitOne hids (fun d hd => fitStep_fittedForm hacyclic hd) hc
      (nestedWithin_of_acyclic hacyclic hc)
  exact (foldl_records (fun c => c) cs hrun [] hempty).1

/-- Fitting gives a fitted form. -/
theorem refitContainers_fitting : Fitting nodes margin cs (refitContainers cs nodes margin) := by
  have hid : ∀ c, (fittedForm nodes cs margin c).id = c.id := by
    intro c
    unfold fittedForm
    rw [Function.iterate_succ_apply']
    exact c.around_id _ _
  unfold Fitting
  rw [refitContainers_eq_map hids hacyclic]
  refine List.map_congr_left fun c hc => ?_
  rw [inside_map hid]
  exact (fitStep_fittedForm hacyclic hc).symm

/-- Only rectangles are fitted. -/
theorem forall₂_refitContainers :
    List.Forall₂ (fun c d => ∃ r, d = { c with rect := r }) cs (refitContainers cs nodes margin) := by
  have hfitting : Fitting nodes margin cs (refitContainers cs nodes margin) := refitContainers_fitting hids hacyclic
  unfold Fitting at hfitting
  rw [hfitting, List.forall₂_map_right_iff]
  exact List.forall₂_same.2 fun c _ => c.exists_around_eq margin _

/-- There is no other fitted form. -/
theorem Fitting.eq_refitContainers {fitted : List (Container α)} (h : Fitting nodes margin cs fitted) :
    fitted = refitContainers cs nodes margin := by
  let t (c : Container α) := c.around margin (memberRects nodes (inside fitted c) c)
  have hid : ∀ c, (t c).id = c.id := fun c => c.around_id _ _
  have hstep : ∀ c ∈ cs, fitStep nodes cs margin t c = t c := by
    intro c _
    unfold fitStep
    rw [← inside_map hid, ← h]
  rw [refitContainers_eq_map hids hacyclic]
  exact h.trans (List.map_congr_left fun c hc => eq_fittedForm hacyclic hstep hc)

omit [Scalar α] in
/-- A map that keeps the ids and what is inside the containers makes no cycle. -/
theorem acyclic_map {t : Container α → Container α} (hid : ∀ c, (t c).id = c.id)
    (hchildren : ∀ c, (t c).children = c.children) : Acyclic (cs.map t) := by
  let original (d : Container α) : Container α := (containerWithId? cs d.id).getD d
  have horiginal : ∀ c ∈ cs, original (t c) = c := by
    intro c hc
    show (containerWithId? cs (t c).id).getD (t c) = c
    rw [hid, containerWithId?, (find?_reverse_id Container.id hids).2 ⟨hc, rfl⟩]
    rfl
  have hstep : ∀ d e, Holds (cs.map t) d e → Holds cs (original d) (original e) := by
    rintro d e ⟨hd, he, hin⟩
    obtain ⟨c, hc, rfl⟩ := List.mem_map.1 hd
    obtain ⟨c', hc', rfl⟩ := List.mem_map.1 he
    rw [horiginal c hc, horiginal c' hc']
    exact ⟨hc, hc', by rwa [hid, hchildren] at hin⟩
  exact fun d hcycle => hacyclic (original d) (Relation.TransGen.lift original hstep d d hcycle)

omit hids hacyclic in
/-- Containers in a fitted form are fitted themselves. -/
theorem Fitting.fitting_self {fitted : List (Container α)} (h : Fitting nodes margin cs fitted) :
    Fitting nodes margin fitted fitted := by
  let t (c : Container α) := c.around margin (memberRects nodes (inside fitted c) c)
  have htwice : ∀ c, t (t c) = t c := by
    intro c
    obtain ⟨r, hr⟩ := c.exists_around_eq margin (memberRects nodes (inside fitted c) c)
    -- only the rectangle of a container is fitted, so it has the same members as before
    have hmembers : memberRects nodes (inside fitted (t c)) (t c) = memberRects nodes (inside fitted c) c := by
      show memberRects nodes (inside fitted (c.around margin _)) (c.around margin _) = _
      rw [hr]
      rfl
    show (t c).around margin (memberRects nodes (inside fitted (t c)) (t c)) = t c
    rw [hmembers]
    exact c.around_around margin _
  calc fitted = cs.map t := h
    _ = (cs.map t).map t := by
      rw [List.map_map]
      exact List.map_congr_left fun c _ => (htwice c).symm
    _ = fitted.map t := congrArg (List.map t) h.symm

/-- Fitting again changes nothing. -/
theorem refitContainers_refitContainers :
    refitContainers (refitContainers cs nodes margin) nodes margin = refitContainers cs nodes margin := by
  have hfitting : Fitting nodes margin cs (refitContainers cs nodes margin) := refitContainers_fitting hids hacyclic
  let t (c : Container α) := c.around margin (memberRects nodes (inside (refitContainers cs nodes margin) c) c)
  have hid : ∀ c, (t c).id = c.id := fun c => c.around_id _ _
  have hmap : refitContainers cs nodes margin = cs.map t := hfitting
  have hids' : ((refitContainers cs nodes margin).map (·.id)).Nodup := by
    have hsame : (cs.map t).map (·.id) = cs.map (·.id) := by
      rw [List.map_map]
      exact List.map_congr_left fun c _ => hid c
    rw [hmap, hsame]
    exact hids
  have hacyclic' : Acyclic (refitContainers cs nodes margin) := by
    rw [hmap]
    exact acyclic_map hids hacyclic hid fun c => c.around_children _ _
  exact (hfitting.fitting_self.eq_refitContainers hids' hacyclic').symm

end Flowchart
