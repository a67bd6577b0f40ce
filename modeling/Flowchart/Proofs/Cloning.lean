import Mathlib.Data.List.Forall2
import Mathlib.Data.List.Infix
import Mathlib.Data.List.Nodup
import Mathlib.Algebra.Ring.Rat
import Flowchart.Toolbar
import Flowchart.Hook.Anchor
import Flowchart.Numeric.Exact

/-!
# The hooks of a copy

A copy of a node has the hooks of the node, in whose ids the first occurrence of the node's id gives way to the copy's
own. What is put in begins with a letter that it does not hold again, so two occurrences of it cannot overlap, and it
occurs in a new id only where it was put in (`before_eq_of_append_eq`). Hence hooks with distinct ids keep distinct ids,
and on the canvas each hook moves along with the node (`cloning_rekeys`).
-/

namespace Flowchart

section Words

variable {word replacement s t : List Char}

/-- What becomes of a text when the first occurrence of a word in it is replaced. -/
inductive FirstReplaced (word replacement s : List Char) : List Char → Prop
  | absent : ¬ word <:+: s → FirstReplaced word replacement s s
  | first {before after : List Char} : s = before ++ word ++ after →
      (∀ before' after', s = before' ++ word ++ after' → before.length ≤ before'.length) →
      FirstReplaced word replacement s (before ++ replacement ++ after)

theorem firstReplaced_replaceFirst (word replacement s : List Char) :
    FirstReplaced word replacement s (replaceFirst word replacement s) := by
  induction s with
  | nil =>
    cases word with
    | nil =>
      have hreplaced : FirstReplaced [] replacement [] ([] ++ replacement ++ []) :=
        .first rfl fun _ _ _ => Nat.zero_le _
      simpa [replaceFirst] using hreplaced
    | cons w word => exact .absent (by simp)
  | cons c s ih =>
    unfold replaceFirst
    split
    · next rest hrest =>
      have hs : c :: s = [] ++ word ++ rest := (List.isPrefixOf?_eq_some_iff_append_eq.1 hrest).symm
      exact @FirstReplaced.first word replacement (c :: s) [] rest hs fun _ _ _ => Nat.zero_le _
    · next hnone =>
      have hprefix : ¬ word <+: c :: s := by
        rintro ⟨rest, hrest⟩
        rw [List.isPrefixOf?_eq_some_iff_append_eq.2 hrest] at hnone
        cases hnone
      generalize replaceFirst word replacement s = r at ih
      cases ih with
      | absent habsent => exact .absent fun h => (List.infix_cons_iff.1 h).elim hprefix habsent
      | @first before after hs hfirst =>
        refine @FirstReplaced.first word replacement (c :: s) (c :: before) after (congrArg (List.cons c) hs)
          fun before' after' hs' => ?_
        -- the word does not stand in front, so an occurrence of it lies in the rest
        cases before' with
        | nil => exact absurd ⟨after', hs'.symm⟩ hprefix
        | cons c' before' => exact Nat.succ_le_succ (hfirst before' after' (List.cons.inj hs').2)

theorem replaceFirst_of_absent (h : ¬ word <:+: s) : replaceFirst word replacement s = s := by
  have hreplaced := firstReplaced_replaceFirst word replacement s
  generalize replaceFirst word replacement s = r at hreplaced
  cases hreplaced with
  | absent _ => rfl
  | @first before after hs _ => exact absurd ⟨before, after, hs.symm⟩ h

/-- A word that a text begins with is replaced there. -/
theorem replaceFirst_append (word replacement s : List Char) :
    replaceFirst word replacement (word ++ s) = replacement ++ s := by
  have hreplaced := firstReplaced_replaceFirst word replacement (word ++ s)
  generalize replaceFirst word replacement (word ++ s) = r at hreplaced
  cases hreplaced with
  | absent habsent => exact absurd List.infix_append_left habsent
  | @first before after hs hfirst =>
    obtain rfl : before = [] := List.eq_nil_of_length_eq_zero (Nat.le_zero.1 (hfirst [] s rfl))
    rw [List.nil_append] at hs ⊢
    rw [List.append_cancel_left hs]

/-- A word that begins with a letter it does not hold again. -/
def BeginsApart (word : List Char) : Prop :=
  ∃ c rest, word = c :: rest ∧ c ∉ rest

/-- Two occurrences of such a word do not overlap: where one of them comes before the other, it ends before the other
one begins. -/
private theorem infix_of_append_eq (hword : BeginsApart word) {gap after after' : List Char} (hgap : gap ≠ [])
    (h : word ++ after = gap ++ (word ++ after')) : word <:+: gap := by
  obtain ⟨c, rest, rfl, hc⟩ := hword
  rcases List.append_eq_append_iff.1 h with ⟨behind, rfl, -⟩ | ⟨behind, hbehind, hrest⟩
  · exact List.infix_append_left
  · cases behind with
    | nil =>
      rw [List.append_nil] at hbehind
      rw [hbehind]
    | cons d behind =>
      obtain ⟨g, gap, rfl⟩ := List.exists_cons_of_ne_nil hgap
      obtain rfl : c = d := (List.cons.inj hrest).1
      refine absurd ?_ hc
      rw [(List.cons.inj hbehind).2]
      exact List.mem_append_right gap List.mem_cons_self

/-- The place where such a word was put in is told by the text, if the word does not occur before it. -/
theorem before_eq_of_append_eq (hword : BeginsApart word) {before before' after after' : List Char}
    (hbefore : ¬ word <:+: before) (hbefore' : ¬ word <:+: before')
    (h : before ++ (word ++ after) = before' ++ (word ++ after')) : before = before' := by
  rcases List.append_eq_append_iff.1 h with ⟨gap, rfl, hgap⟩ | ⟨gap, rfl, hgap⟩
  · by_contra hne
    have hgapne : gap ≠ [] := fun hnil => hne (by rw [hnil, List.append_nil])
    exact hbefore' ((infix_of_append_eq hword hgapne hgap).trans List.infix_append_right)
  · by_contra hne
    have hgapne : gap ≠ [] := fun hnil => hne (by rw [hnil, List.append_nil])
    exact hbefore ((infix_of_append_eq hword hgapne hgap).trans List.infix_append_right)

/-- Two texts in which a word is replaced by one that neither of them holds stay apart. -/
theorem replaceFirst_inj (hreplacement : BeginsApart replacement) (hs : ¬ replacement <:+: s)
    (ht : ¬ replacement <:+: t) (h : replaceFirst word replacement s = replaceFirst word replacement t) : s = t := by
  have hs' := firstReplaced_replaceFirst word replacement s
  have ht' := firstReplaced_replaceFirst word replacement t
  rw [h] at hs'
  generalize replaceFirst word replacement t = r at hs' ht'
  cases hs' with
  | absent _ =>
    cases ht' with
    | absent _ => rfl
    | first _ _ => exact absurd (List.infix_append _ _ _) hs
  | @first before after hbefore _ =>
    generalize hr : before ++ replacement ++ after = r at ht'
    cases ht' with
    | absent _ => exact absurd (hr ▸ List.infix_append _ _ _) ht
    | @first before' after' hbefore' _ =>
      have hin : ∀ {u front back : List Char}, u = front ++ word ++ back → front <:+: u := by
        rintro u front back rfl
        exact ⟨[], word ++ back, by simp⟩
      rw [List.append_assoc, List.append_assoc] at hr
      obtain rfl := before_eq_of_append_eq hreplacement (fun hw => hs (hw.trans (hin hbefore)))
        (fun hw => ht (hw.trans (hin hbefore'))) hr
      rw [hbefore, hbefore', List.append_cancel_left (List.append_cancel_left hr)]

end Words

/-- A fixed beginning and twelve hexadecimal digits, which is how the id of a new node is made. -/
def IsGenerated (id : String) : Prop :=
  ∃ digits : List Char, id.toList = "node-".toList ++ digits ∧ digits.length = 12 ∧
    ∀ d ∈ digits, d ∈ "0123456789abcdef".toList

/-- No hexadecimal digit is the first letter of such an id. -/
theorem IsGenerated.beginsApart {id : String} (h : IsGenerated id) : BeginsApart id.toList := by
  obtain ⟨digits, hid, -, hdigits⟩ := h
  refine ⟨'n', "ode-".toList ++ digits, hid, fun hmem => ?_⟩
  rcases List.mem_append.1 hmem with hmem | hmem
  · exact absurd hmem (by decide)
  · exact absurd (hdigits _ hmem) (by decide)

/-! ### Copies -/

namespace Node

variable {α : Type}

/-- A hook of a node and the one that its copy has in its place. -/
structure Rekeyed (id freshId : String) (h h' : Hook α) : Prop where
  direction : h'.direction = h.direction
  offset : h'.offset = h.offset
  visible : h'.visible = h.visible
  id_of_leading : ∀ s, h.id = id ++ s → h'.id = freshId ++ s
  id_of_absent : ¬ id.toList <:+: h.id.toList → h'.id = h.id

/-- The hook with the first occurrence of the node's id replaced in its own. -/
def rekey (id freshId : String) (h : Hook α) : Hook α :=
  { h with id := String.ofList (replaceFirst id.toList freshId.toList h.id.toList) }

theorem rekeyed_rekey (id freshId : String) (h : Hook α) : Rekeyed id freshId h (rekey id freshId h) where
  direction := rfl
  offset := rfl
  visible := rfl
  id_of_leading s hs := by
    show String.ofList (replaceFirst id.toList freshId.toList h.id.toList) = _
    rw [hs, String.toList_append, replaceFirst_append, ← String.toList_append, String.ofList_toList]
  id_of_absent habsent := by
    show String.ofList (replaceFirst id.toList freshId.toList h.id.toList) = _
    rw [replaceFirst_of_absent habsent, String.ofList_toList]

theorem rekey_id_inj {id freshId : String} (hfresh : IsGenerated freshId) {h h' : Hook α}
    (hh : ¬ freshId.toList <:+: h.id.toList) (hh' : ¬ freshId.toList <:+: h'.id.toList)
    (hsame : (rekey id freshId h).id = (rekey id freshId h').id) : h.id = h'.id :=
  String.toList_inj.1 (replaceFirst_inj hfresh.beginsApart hh hh' (String.ofList_injective hsame))

variable [Scalar α]

theorem clone_hooks (n : Node α) (freshId : String) (dx dy : α) :
    (n.clone freshId dx dy).hooks = n.hooks.map (rekey n.id freshId) := rfl

/-- Over exact numbers an anchor moves along with its node. -/
theorem hookPosition_clone (n : Node Rat) (freshId : String) (dx dy : Rat) (h : Hook Rat) :
    (n.clone freshId dx dy).hookPosition (rekey n.id freshId h) =
      ⟨(n.hookPosition h).x + dx, (n.hookPosition h).y + dy⟩ := by
  obtain ⟨id, direction, offset, visible⟩ := h
  cases direction <;>
    simp only [hookPosition, anchorAt, rekey, clone, Rect.movedTo, add_right_comm _ dx, add_right_comm _ dy]

/-- A copy under a generated id that occurs in no hook id of the node has hooks with distinct ids if the node has. Its
hooks are those of the node, one by one, with their direction, offset and visibility; an id that begins with the node's
begins with the new one instead, and an id that does not hold the node's stays. Over exact numbers each hook lies where
it lay on the node, moved by the offset of the copy. -/
theorem cloning_rekeys {freshId : String} (hfresh : IsGenerated freshId) :
    (∀ {α : Type} [Scalar α] (n : Node α) (dx dy : α), (n.hooks.map (·.id)).Nodup →
      (∀ h ∈ n.hooks, ¬ freshId.toList <:+: h.id.toList) →
        ((n.clone freshId dx dy).hooks.map (·.id)).Nodup ∧
        List.Forall₂ (Rekeyed n.id freshId) n.hooks (n.clone freshId dx dy).hooks) ∧
    ∀ (n : Node Rat) (dx dy : Rat), List.Forall₂
      (fun h h' => (n.clone freshId dx dy).hookPosition h' =
        ⟨(n.hookPosition h).x + dx, (n.hookPosition h).y + dy⟩)
      n.hooks (n.clone freshId dx dy).hooks := by
  refine ⟨fun n dx dy hids habsent => ⟨?_, ?_⟩, fun n dx dy => ?_⟩
  · rw [clone_hooks, List.map_map]
    refine (List.Nodup.of_map _ hids).map_on fun h hh h' hh' hsame => ?_
    exact List.inj_on_of_nodup_map hids hh hh' (rekey_id_inj hfresh (habsent h hh) (habsent h' hh') hsame)
  · rw [clone_hooks]
    exact List.forall₂_map_right_iff.2 (List.forall₂_same.2 fun h _ => rekeyed_rekey n.id freshId h)
  · rw [clone_hooks]
    exact List.forall₂_map_right_iff.2 (List.forall₂_same.2 fun h _ => hookPosition_clone n freshId dx dy h)

/-- The id of the node occurs twice in those of two of its hooks, and overlaps itself; the id of a third hook is the new
one but for its last digit. -/
theorem cloning_rekeys_overlapping :
    ∃ (n : Node Rat) (freshId : String),
      n = ⟨"aa", .known .process, ⟨0, 0, 200, 80⟩, "", .absent,
        [⟨"aaa", .top, 0.25, true⟩, ⟨"baaa", .left, 1, false⟩, ⟨"node-0123456789a", .topRight, 0, true⟩]⟩ ∧
      freshId = "node-0123456789ab" ∧ IsGenerated freshId ∧ n.make = .ok n ∧ (n.hooks.map (·.id)).Nodup ∧
      (∀ h ∈ n.hooks, ¬ freshId.toList <:+: h.id.toList) ∧
      ((n.clone freshId 20 30).hooks.map (·.id)).Nodup ∧
      List.Forall₂ (Rekeyed n.id freshId) n.hooks (n.clone freshId 20 30).hooks ∧
      List.Forall₂
        (fun h h' => (n.clone freshId 20 30).hookPosition h' = ⟨(n.hookPosition h).x + 20, (n.hookPosition h).y + 30⟩)
        n.hooks (n.clone freshId 20 30).hooks ∧
      (n.clone freshId 20 30).hooks.map (·.id) = ["node-0123456789aba", "bnode-0123456789aba", "node-0123456789a"] := by
  let n : Node Rat := ⟨"aa", .known .process, ⟨0, 0, 200, 80⟩, "", .absent,
    [⟨"aaa", .top, 0.25, true⟩, ⟨"baaa", .left, 1, false⟩, ⟨"node-0123456789a", .topRight, 0, true⟩]⟩
  have hfresh : IsGenerated "node-0123456789ab" := ⟨"0123456789ab".toList, rfl, rfl, by simp⟩
  have hids : (n.hooks.map (·.id)).Nodup := by decide
  have habsent : ∀ h ∈ n.hooks, ¬ "node-0123456789ab".toList <:+: h.id.toList := by decide +kernel
  obtain ⟨hrekeys, hmoves⟩ := cloning_rekeys hfresh
  obtain ⟨hdistinct, hrekeyed⟩ := hrekeys n 20 30 hids habsent
  exact ⟨n, _, rfl, rfl, hfresh, by decide +kernel, hids, habsent, hdistinct, hrekeyed, hmoves n 20 30,
    by decide +kernel⟩

end Node

end Flowchart
