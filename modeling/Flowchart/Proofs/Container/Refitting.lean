import Flowchart.Numeric.Double
import Flowchart.Proofs.Container.Fitting

/-!
# Fitting as a whole

Fitting is a recursion over containers inside containers that keeps a record of what is done. The recursion ends and
gives the one fitted form that there is; the order in which the containers are listed only shows in the order of the
answer, and fitting again changes nothing (`refitting_determined`).

`Fits` is the recursion without a bound, as runs that end. It has no two runs on the same list (`Fits.unique`), and
the bound is never reached (`fits_refitContainers`). In another order the containers have the same containers
inside them (`inside_perm`), so that the fitted form of a list is also that of its permutations
(`Fitting.of_perm`).
-/

namespace Flowchart

variable {α : Type}

section Order

variable {cs ds : List (Container α)}

theorem containerWithId?_perm (hids : (cs.map (·.id)).Nodup) (h : ds.Perm cs) (id : String) :
    containerWithId? ds id = containerWithId? cs id := by
  have hids' : (ds.map (·.id)).Nodup := (h.map (·.id)).nodup_iff.2 hids
  refine Option.ext fun c => ?_
  unfold containerWithId?
  rw [find?_reverse_id Container.id hids', find?_reverse_id Container.id hids, h.mem_iff]

theorem inside_perm (hids : (cs.map (·.id)).Nodup) (h : ds.Perm cs) (c : Container α) :
    inside ds c = inside cs c := by
  unfold inside
  rw [funext (containerWithId?_perm hids h)]

theorem Acyclic.of_perm (hacyclic : Acyclic cs) (h : ds.Perm cs) : Acyclic ds := by
  have hholds : ∀ c d, Holds ds c d → Holds cs c d :=
    fun c d ⟨hc, hd, hin⟩ => ⟨h.mem_iff.1 hc, h.mem_iff.1 hd, hin⟩
  exact fun c hcycle => hacyclic c (Relation.TransGen.mono hholds c c hcycle)

end Order

variable [Scalar α]

/-- Whether the second container is the first one fitted around its members, where the containers inside it count as
they are in a list: it has their bounding box, or if none of its members is there it is as it was. -/
structure FittedAmong (nodes : List (Node α)) (margin : α) (fitted : List (Container α)) (c d : Container α) :
    Prop where
  same : ∃ r, d = { c with rect := r }
  box : memberRects nodes (inside fitted c) c ≠ [] →
    boundingBox? margin (memberRects nodes (inside fitted c) c) = some d.rect
  kept : memberRects nodes (inside fitted c) c = [] → d = c

section Form

variable {nodes : List (Node α)} {margin : α} {cs fitted : List (Container α)}

theorem boundingBox?_eq_none {rects : List (Rect α)} : boundingBox? margin rects = none ↔ rects = [] := by
  unfold boundingBox?
  cases rects <;> simp

theorem fittedAmong_iff {c d : Container α} :
    FittedAmong nodes margin fitted c d ↔ d = c.around margin (memberRects nodes (inside fitted c) c) := by
  unfold Container.around
  cases hbox : boundingBox? margin (memberRects nodes (inside fitted c) c) with
  | none =>
    have hnone := boundingBox?_eq_none.1 hbox
    constructor
    · exact fun h => h.kept hnone
    · rintro rfl
      exact ⟨⟨_, rfl⟩, fun hsome => absurd hnone hsome, fun _ => rfl⟩
  | some box =>
    have hsome : memberRects nodes (inside fitted c) c ≠ [] := by
      intro hnone
      rw [boundingBox?_eq_none.2 hnone] at hbox
      cases hbox
    constructor
    · intro h
      obtain ⟨r, rfl⟩ := h.same
      obtain rfl := Option.some.inj (hbox.symm.trans (h.box hsome))
      rfl
    · rintro rfl
      exact ⟨⟨_, rfl⟩, fun _ => hbox, fun hnone => absurd hnone hsome⟩

/-- A list is fitted if each of its containers is fitted among them. -/
theorem fitting_iff :
    Fitting nodes margin cs fitted ↔ List.Forall₂ (FittedAmong nodes margin fitted) cs fitted := by
  have hrelation : FittedAmong nodes margin fitted =
      fun c d => c.around margin (memberRects nodes (inside fitted c) c) = d := by
    funext c d
    exact propext (fittedAmong_iff.trans eq_comm)
  rw [hrelation, ← List.forall₂_map_left_iff, List.forall₂_eq_eq_eq]
  exact eq_comm

/-- What is a fitted form of some containers is one of them in any order. -/
theorem Fitting.of_perm {ds : List (Container α)} (hids : (cs.map (·.id)).Nodup) (h : ds.Perm cs)
    (hfitted : Fitting nodes margin cs fitted) :
    Fitting nodes margin ds (ds.map fun c => c.around margin (memberRects nodes (inside fitted c) c)) := by
  let t (c : Container α) := c.around margin (memberRects nodes (inside fitted c) c)
  have hid : ∀ c, (t c).id = c.id := fun c => c.around_id _ _
  have hmap : fitted = cs.map t := hfitted
  have hids' : (fitted.map (·.id)).Nodup := by
    rw [hmap, List.map_map]
    simpa only [Function.comp_def, hid] using hids
  have hperm : (ds.map t).Perm fitted := hmap ▸ h.map t
  refine List.map_congr_left fun c _ => ?_
  rw [inside_perm hids' hperm]

end Form

/-! ### The recursion -/

/-- A run of the recursion that ends, as the containers that it is to fit, what it makes of them, and the record before
and after it. A container on record is taken from there. For any other one those inside it are fitted first, and then
it is put on record itself. -/
inductive Fits (nodes : List (Node α)) (all : List (Container α)) (margin : α) :
    Fitted α → List (Container α) → List (Container α) → Fitted α → Prop
  | nil {record : Fitted α} : Fits nodes all margin record [] [] record
  | known {record record' : Fitted α} {c d : Container α} {cs ds : List (Container α)} :
      record.lookup c.id = some d → Fits nodes all margin record cs ds record' →
      Fits nodes all margin record (c :: cs) (d :: ds) record'
  | fresh {record record' record'' : Fitted α} {c : Container α} {inner cs ds : List (Container α)} :
      record.lookup c.id = none → Fits nodes all margin record (inside all c) inner record' →
      Fits nodes all margin ((c.id, c.around margin (memberRects nodes inner c)) :: record') cs ds record'' →
      Fits nodes all margin record (c :: cs) (c.around margin (memberRects nodes inner c) :: ds) record''

section Runs

variable {nodes : List (Node α)} {all cs cs' ds ds' : List (Container α)} {margin : α}
  {record record' record'' : Fitted α}

theorem Fits.append (h : Fits nodes all margin record cs ds record')
    (h' : Fits nodes all margin record' cs' ds' record'') :
    Fits nodes all margin record (cs ++ cs') (ds ++ ds') record'' := by
  induction h with
  | nil => exact h'
  | known hlookup _ ih => exact .known hlookup (ih h')
  | fresh hlookup hinner _ _ ih => exact .fresh hlookup hinner (ih h')

/-- The recursion has only one run. -/
theorem Fits.unique (h : Fits nodes all margin record cs ds record')
    (h' : Fits nodes all margin record cs ds' record'') : ds = ds' ∧ record' = record'' := by
  induction h generalizing ds' record'' with
  | nil =>
    cases h'
    exact ⟨rfl, rfl⟩
  | known hlookup _ ih =>
    cases h' with
    | known hlookup' hrest =>
      obtain rfl := Option.some.inj (hlookup.symm.trans hlookup')
      obtain ⟨rfl, rfl⟩ := ih hrest
      exact ⟨rfl, rfl⟩
    | fresh hnone _ _ =>
      rw [hlookup] at hnone
      cases hnone
  | fresh hnone _ _ ihinner ih =>
    cases h' with
    | known hlookup _ =>
      rw [hnone] at hlookup
      cases hlookup
    | fresh _ hinner hrest =>
      obtain ⟨rfl, rfl⟩ := ihinner hinner
      obtain ⟨rfl, rfl⟩ := ih hrest
      exact ⟨rfl, rfl⟩

/-- Containers that are worked off one by one are fitted in one run. -/
private theorem exists_fits_foldl {β : Type} {run : Fitted α → Container α → Container α × Fitted α}
    (pick : Container α → β)
    (hrun : ∀ c ∈ cs, ∀ record, Fits nodes all margin record [c] [(run record c).1] (run record c).2)
    (acc : List β) (record : Fitted α) :
    ∃ ds record', Fits nodes all margin record cs ds record' ∧
      cs.foldl (fun s c => (s.1 ++ [pick (run s.2 c).1], (run s.2 c).2)) (acc, record) =
        (acc ++ ds.map pick, record') := by
  induction cs generalizing acc record with
  | nil => exact ⟨[], record, .nil, by simp⟩
  | cons c cs ih =>
    have hfirst := hrun c List.mem_cons_self record
    obtain ⟨ds, record', hfits, hfold⟩ := ih (fun d hd => hrun d (List.mem_cons_of_mem c hd))
      (acc ++ [pick (run record c).1]) (run record c).2
    refine ⟨(run record c).1 :: ds, record', hfirst.append hfits, ?_⟩
    rw [List.foldl_cons, hfold, List.map_cons, List.append_assoc, List.singleton_append]

/-- Where the levels are enough, the bound on the recursion makes no difference. -/
private theorem fits_fitOne {depth : Nat} {c : Container α} (h : NestedWithin all depth c) (record : Fitted α) :
    Fits nodes all margin record [c] [(fitOne nodes all margin depth record c).1]
      (fitOne nodes all margin depth record c).2 := by
  induction depth generalizing c record with
  | zero => exact h.elim
  | succ depth ih =>
    cases hlookup : record.lookup c.id with
    | some d =>
      have hknown : fitOne nodes all margin (depth + 1) record c = (d, record) := by
        unfold fitOne
        rw [hlookup]
      rw [hknown]
      exact .known hlookup .nil
    | none =>
      obtain ⟨inner, record', hinner, hfold⟩ := exists_fits_foldl (·.rect) (fun d hd => ih (h d hd)) [] record
      have hfresh : fitOne nodes all margin (depth + 1) record c =
          (c.around margin (memberRects nodes inner c),
            (c.id, c.around margin (memberRects nodes inner c)) :: record') := by
        unfold fitOne
        rw [hlookup]
        exact congrArg (fun s : List (Rect α) × Fitted α =>
          (c.around margin (_ ++ s.1), (c.id, c.around margin (_ ++ s.1)) :: s.2)) hfold
      rw [hfresh]
      exact .fresh hlookup hinner .nil

/-- The recursion ends on containers of which none is inside itself. -/
theorem fits_refitContainers (hacyclic : Acyclic cs) :
    ∃ record, Fits nodes cs margin [] cs (refitContainers cs nodes margin) record := by
  have hrun : ∀ c ∈ cs, ∀ record, Fits nodes cs margin record [c]
      [(fitOne nodes cs margin (cs.length + 1) record c).1] (fitOne nodes cs margin (cs.length + 1) record c).2 :=
    fun c hc record => fits_fitOne (nestedWithin_of_acyclic hacyclic hc) record
  obtain ⟨ds, record, hfits, hfold⟩ := exists_fits_foldl (fun c => c) hrun [] []
  have hds : refitContainers cs nodes margin = ds := by
    have hfirst := congrArg Prod.fst hfold
    rw [List.map_id', List.nil_append] at hfirst
    exact hfirst
  exact ⟨record, hds ▸ hfits⟩

end Runs

/-- Where ids are distinct and no container is inside itself, fitting ends, and it gives the one list in which each
container is fitted among the others. The containers may as well come in another order, and then they come back in that
order in the same form. Fitting again changes nothing. -/
theorem refitting_determined {cs : List (Container α)} (nodes : List (Node α)) (margin : α)
    (hids : (cs.map (·.id)).Nodup) (hacyclic : Acyclic cs) :
    (∀ fitted, (∃ record, Fits nodes cs margin [] cs fitted record) ↔
      fitted = refitContainers cs nodes margin) ∧
    (∀ fitted, List.Forall₂ (FittedAmong nodes margin fitted) cs fitted ↔
      fitted = refitContainers cs nodes margin) ∧
    (∃ form : Container α → Container α, ∀ ds, ds.Perm cs → refitContainers ds nodes margin = ds.map form) ∧
    refitContainers (refitContainers cs nodes margin) nodes margin = refitContainers cs nodes margin := by
  have hfits : ∃ record, Fits nodes cs margin [] cs (refitContainers cs nodes margin) record :=
    fits_refitContainers hacyclic
  obtain ⟨record, hrun⟩ := hfits
  have hfitting : Fitting nodes margin cs (refitContainers cs nodes margin) := refitContainers_fitting hids hacyclic
  refine ⟨fun fitted => ⟨?_, ?_⟩, fun fitted => ⟨?_, ?_⟩, ?_, refitContainers_refitContainers hids hacyclic⟩
  · rintro ⟨record', hrun'⟩
    exact (hrun'.unique hrun).1
  · rintro rfl
    exact ⟨record, hrun⟩
  · intro h
    exact (fitting_iff.2 h).eq_refitContainers hids hacyclic
  · rintro rfl
    exact fitting_iff.1 hfitting
  · refine ⟨fun c => c.around margin (memberRects nodes (inside (refitContainers cs nodes margin) c) c), ?_⟩
    intro ds hperm
    have hids' : (ds.map (·.id)).Nodup := (hperm.map (·.id)).nodup_iff.2 hids
    exact ((hfitting.of_perm hids hperm).eq_refitContainers hids' (hacyclic.of_perm hperm)).symm

/-- The container `q` is inside `p` and inside `r`, which is itself inside `p`; a member of `p` and one of `q` are
not there, and `e` has no member. In another order the containers have the same rectangles. -/
theorem refitting_determined_shared :
    ∃ (n : Node Float) (p q r e : Container Float),
      n = ⟨"a", .known .process, ⟨100, 100, 200, 80⟩, "", .absent, Hook.defaults "a"⟩ ∧
      p = ⟨"p", .known .layer, "P", ⟨0, 0, 50, 50⟩, ["x"], ["r", "q", "y"], none, 0, false, false⟩ ∧
      q = ⟨"q", .known .unit, "Q", ⟨0, 0, 50, 50⟩, ["a", "x"], [], none, 0, false, false⟩ ∧
      r = ⟨"r", .known .unit, "R", ⟨0, 0, 50, 50⟩, [], ["q", "e"], none, 0, false, false⟩ ∧
      e = ⟨"e", .known .unit, "E", ⟨400, 0, 50, 50⟩, [], [], none, 0, false, false⟩ ∧
      ([p, q, r, e].map (·.id)).Nodup ∧ Acyclic [p, q, r, e] ∧
      List.Forall₂ (FittedAmong [n] 10 (refitContainers [p, q, r, e] [n] 10)) [p, q, r, e]
        (refitContainers [p, q, r, e] [n] 10) ∧
      refitContainers [p, q, r, e] [n] 10 = [{ p with rect := ⟨70, -20, 400, 230⟩ },
        { q with rect := ⟨90, 90, 220, 100⟩ }, { r with rect := ⟨80, -10, 380, 210⟩ }, e] ∧
      (∃ form, refitContainers [p, q, r, e] [n] 10 = [p, q, r, e].map form ∧
        refitContainers [e, r, q, p] [n] 10 = [e, r, q, p].map form) ∧
      refitContainers (refitContainers [p, q, r, e] [n] 10) [n] 10 = refitContainers [p, q, r, e] [n] 10 := by
  let n : Node Float := ⟨"a", .known .process, ⟨100, 100, 200, 80⟩, "", .absent, Hook.defaults "a"⟩
  let p : Container Float :=
    ⟨"p", .known .layer, "P", ⟨0, 0, 50, 50⟩, ["x"], ["r", "q", "y"], none, 0, false, false⟩
  let q : Container Float := ⟨"q", .known .unit, "Q", ⟨0, 0, 50, 50⟩, ["a", "x"], [], none, 0, false, false⟩
  let r : Container Float := ⟨"r", .known .unit, "R", ⟨0, 0, 50, 50⟩, [], ["q", "e"], none, 0, false, false⟩
  let e : Container Float := ⟨"e", .known .unit, "E", ⟨400, 0, 50, 50⟩, [], [], none, 0, false, false⟩
  have hids : ([p, q, r, e].map (·.id)).Nodup := by decide
  have hacyclic : Acyclic [p, q, r, e] := acyclic_of_rank (·.children.length) (by decide)
  have hresult : refitContainers [p, q, r, e] [n] 10 = [{ p with rect := ⟨70, -20, 400, 230⟩ },
      { q with rect := ⟨90, 90, 220, 100⟩ }, { r with rect := ⟨80, -10, 380, 210⟩ }, e] := by
    decide +kernel
  obtain ⟨-, hfitted, ⟨form, hform⟩, hagain⟩ := refitting_determined [n] 10 hids hacyclic
  exact ⟨n, p, q, r, e, rfl, rfl, rfl, rfl, rfl, hids, hacyclic, (hfitted _).2 rfl, hresult,
    ⟨form, hform _ (.refl _), hform _ (List.reverse_perm [p, q, r, e])⟩, hagain⟩

end Flowchart
