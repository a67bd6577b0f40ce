import Flowchart.Proofs.Outline.Cap

/-!
# Labels

Whatever a line says of a node, its label is neither empty nor padded with blanks, under any cap: every rule trims what
it takes for a label and puts a standard label in the place of an empty one (`labeled_contentOf`), and a cut leaves the
first character of the label or nothing but the ellipsis (`cappedLabel_capChars`). The whole of it is said of lines
(`classify_label`).
-/

namespace Flowchart.Outline

open Text (Bare EndBare bare_trim endBare_append_singleton endBare_trimEnd isBlank trim trimEnd
  trimEnd_cons_of_not_blank trimEnd_prefix)

/-- What may stand as a label: some text without blanks around it. -/
structure IsLabel (s : List Char) : Prop where
  ne_nil : s ≠ []
  bare : Bare s

/-- What is promised of a label under a cap, `whole` being what it is without one: it is a label that fits, and if it was
cut, then behind a character that is not blank. -/
structure CappedLabel (maxLength : Int) (whole label : List Char) : Prop where
  isLabel : IsLabel label
  length_le : 1 ≤ maxLength → (label.length : Int) ≤ maxLength
  cut : label ≠ whole → ∃ kept, kept <+: whole ∧ EndBare kept ∧ label = kept ++ [ellipsis]

/-- A cut leaves the beginning of a label or only the ellipsis. -/
theorem isLabel_cut {label : List Char} (h : IsLabel label) (count : Nat) :
    IsLabel (trimEnd (label.take count) ++ [ellipsis]) where
  ne_nil := by simp
  bare := by
    refine ⟨fun c hc => ?_, endBare_append_singleton (by decide) _⟩
    obtain ⟨first, rest, rfl⟩ := List.exists_cons_of_ne_nil h.ne_nil
    have hfirst : isBlank first = false := h.bare.start first rfl
    cases count with
    | zero =>
      obtain rfl : ellipsis = c := Option.some.inj hc
      decide
    | succ count =>
      rw [List.take_succ_cons, trimEnd_cons_of_not_blank hfirst] at hc
      obtain rfl : first = c := Option.some.inj hc
      exact hfirst

theorem cappedLabel_capChars {whole : List Char} (h : IsLabel whole) (maxLength : Int) :
    CappedLabel maxLength whole (capChars maxLength whole) := by
  by_cases hwhole : maxLength ≤ 0 ∨ (whole.length : Int) ≤ maxLength
  · rw [capChars_of_whole hwhole]
    exact ⟨h, fun hpos => hwhole.resolve_left (by omega), fun hne => absurd rfl hne⟩
  · rw [capChars_of_cut hwhole]
    have hprefix := trimEnd_prefix (whole.take (maxLength.toNat - 1))
    refine ⟨isLabel_cut h _, fun hpos => ?_, fun _ => ⟨_, ?_, endBare_trimEnd _, rfl⟩⟩
    · have hle := hprefix.length_le
      rw [List.length_take] at hle
      rw [List.length_append, List.length_singleton]
      omega
    · exact hprefix.trans (List.take_prefix _ _)

theorem isLabel_labelOr {standIn : String} (h : IsLabel standIn.toList) (text : List Char) :
    IsLabel (labelOr text standIn).toList := by
  unfold labelOr
  split
  · exact h
  · next hne =>
    rw [String.toList_ofList]
    exact ⟨by simpa using hne, bare_trim text⟩

theorem isLabel_defaultLabel (kind : NodeKind) : IsLabel (defaultLabel kind).toList := by
  cases kind <;> exact ⟨by decide, by decide⟩

theorem isLabel_answerLabel (a : Answer) : IsLabel a.label.toList := by
  cases a <;> exact ⟨by decide, by decide⟩

/-- Whether the label that the content gives a node, if it adds one, is a label. -/
def Content.Labeled (c : Content) : Prop :=
  ∀ kind label, c.node? = some (kind, label) → IsLabel label.toList

theorem labeled_of_node?_eq_none {c : Content} (h : c.node? = none) : c.Labeled := by
  intro kind label hc
  rw [h] at hc
  cases hc

theorem labeled_of_label {c : Content} {kind : NodeKind} {label : String} (hc : c.node? = some (kind, label))
    (h : IsLabel label.toList) : c.Labeled := by
  intro kind' label' hc'
  obtain ⟨-, rfl⟩ := Prod.mk.inj (Option.some.inj (hc.symm.trans hc'))
  exact h

theorem labeled_markerRule {kind : NodeKind} {line : List Char} {c : Content} (h : markerRule kind line = some c) :
    c.Labeled := by
  obtain ⟨rest, -, rfl⟩ := Option.map_eq_some_iff.1 h
  exact labeled_of_label rfl (isLabel_labelOr (isLabel_defaultLabel kind) _)

theorem labeled_answerRule {a : Answer} {line : List Char} {c : Content} (h : answerRule a line = some c) :
    c.Labeled := by
  obtain ⟨rest, -, rfl⟩ := Option.map_eq_some_iff.1 h
  exact labeled_of_label rfl (isLabel_labelOr (isLabel_answerLabel a) _)

/-- The other rules add no node. -/
theorem node?_of_openingRule {line : List Char} {c : Content} (h : openingRule line = some c) : c.node? = none := by
  unfold openingRule at h
  split at h
  · split at h <;> cases h
    rfl
  · cases h

theorem labeled_of_rule {rule : List Char → Option Content} (hrule : rule ∈ rules) {line : List Char} {c : Content}
    (h : rule line = some c) : c.Labeled := by
  have hsilent : ∀ {b : Bool} {d : Content}, (if b then some d else none) = some c → d.node? = none → c.Labeled := by
    intro b d h hd
    cases b <;> cases h
    exact labeled_of_node?_eq_none hd
  simp only [rules, List.mem_cons, List.not_mem_nil, or_false] at hrule
  rcases hrule with rfl | rfl | rfl | rfl | rfl | rfl | rfl | rfl | rfl
  · exact hsilent h rfl
  · exact labeled_markerRule h
  · exact labeled_markerRule h
  · exact labeled_markerRule h
  · exact labeled_markerRule h
  · exact labeled_answerRule h
  · exact labeled_answerRule h
  · exact hsilent h rfl
  · exact labeled_of_node?_eq_none (node?_of_openingRule h)

/-- Where the last rule applies, the whole line is the label. -/
theorem labeled_capitalRule {line : List Char} (hline : Bare line) {c : Content} (h : capitalRule line = some c) :
    c.Labeled := by
  unfold capitalRule at h
  split at h
  · next hcapital =>
    obtain rfl := Option.some.inj h
    refine labeled_of_label rfl ?_
    rw [String.toList_ofList]
    refine ⟨?_, hline⟩
    rintro rfl
    cases hcapital
  · cases h

/-- What a line without blanks around it says has a label for the node that it adds. -/
theorem labeled_contentOf {line : List Char} (hline : Bare line) : (contentOf line).Labeled := by
  unfold contentOf
  cases hrules : rules.findSome? fun rule => rule line with
  | some c =>
    obtain ⟨rule, hrule, hc⟩ := List.exists_of_findSome?_eq_some hrules
    exact labeled_of_rule hrule hc
  | none =>
    cases hcapital : capitalRule line with
    | some c => exact labeled_capitalRule hline hcapital
    | none => exact labeled_of_node?_eq_none rfl

theorem Content.node?_capped (maxLength : Int) (c : Content) :
    (c.capped maxLength).node? = c.node?.map fun (kind, label) => (kind, capLabel maxLength label) := by
  cases c <;> rfl

theorem text_of_node? {line : Line} {kind : NodeKind} {label : String}
    (h : line.content.node? = some (kind, label)) : line.text = label := by
  obtain ⟨content, level⟩ := line
  cases content <;> cases h <;> rfl

/-- The lines that are told to be of the kind of a node are those that add one. -/
theorem isSome_node?_of_kindName {line : Line} {kind : NodeKind} (h : line.kindName = Vocabulary.name kind) :
    line.content.node?.isSome = true := by
  have hother : ∀ name ∈ ["ignore", "container-open", "container-close"], name ≠ Vocabulary.name kind := by
    cases kind <;> decide
  obtain ⟨content, level⟩ := line
  cases content with
  | node _ _ | answer _ _ => rfl
  | nothing => exact absurd h (hother "ignore" (by decide))
  | opening _ => exact absurd h (hother "container-open" (by decide))
  | closing => exact absurd h (hother "container-close" (by decide))

/-- The label of a line under a cap and the one that it has without. -/
theorem cappedLabel_classify {maxLength uncapped : Int} (huncapped : uncapped ≤ 0) {raw : List Char}
    (h : (classify maxLength raw).content.node?.isSome = true) :
    CappedLabel maxLength (classify uncapped raw).text.toList (classify maxLength raw).text.toList := by
  have hnode : ∀ cap, (classify cap raw).content.node? =
      (contentOf (trim raw)).node?.map fun (kind, label) => (kind, capLabel cap label) :=
    fun cap => Content.node?_capped cap _
  rw [hnode, Option.isSome_map] at h
  obtain ⟨⟨kind, label⟩, hlabel⟩ := Option.isSome_iff_exists.1 h
  have htext : ∀ cap, (classify cap raw).text = capLabel cap label := by
    intro cap
    have hcap : (classify cap raw).content.node? = some (kind, capLabel cap label) := by
      rw [hnode, hlabel]
      rfl
    exact text_of_node? hcap
  have hwhole : capChars uncapped label.toList = label.toList := capChars_of_whole (.inl huncapped)
  rw [htext, htext, capLabel, capLabel, String.toList_ofList, String.toList_ofList, hwhole]
  exact cappedLabel_capChars (labeled_contentOf (bare_trim raw) kind label hlabel) maxLength

/-- An answer adds a process, one level below its indentation. -/
theorem kindName_of_isBranch {maxLength : Int} {raw : List Char} (h : (classify maxLength raw).isBranch = true) :
    (classify maxLength raw).kindName = Vocabulary.name NodeKind.process ∧ 1 ≤ (classify maxLength raw).level := by
  unfold classify at h ⊢
  generalize contentOf (trim raw) = c at h ⊢
  cases c with
  | answer _ _ => exact ⟨rfl, Nat.le_add_left 1 _⟩
  | nothing | node _ _ | opening _ | closing => exact absurd h Bool.false_ne_true

/-- Every line that is told to add a node has a label, which keeps to the cap. A line is a branch exactly if an answer is
told of it, and then it adds a process below the first level. -/
theorem classify_label (maxLength : Int) (raw : List Char) {uncapped : Int} (huncapped : uncapped ≤ 0) :
    (∀ kind : NodeKind, (classify maxLength raw).kindName = Vocabulary.name kind →
      CappedLabel maxLength (classify uncapped raw).text.toList (classify maxLength raw).text.toList) ∧
    ((classify maxLength raw).isBranch = true ↔ ∃ a, (classify maxLength raw).answer? = some a) ∧
    ((classify maxLength raw).isBranch = true →
      (classify maxLength raw).kindName = Vocabulary.name NodeKind.process ∧ 1 ≤ (classify maxLength raw).level) :=
  ⟨fun _ hkind => cappedLabel_classify huncapped (isSome_node?_of_kindName hkind), Option.isSome_iff_exists,
    kindName_of_isBranch⟩

/-- An answer whose label is cut in front of blanks, and the same one with no room but for the ellipsis. -/
theorem classify_label_cut :
    ∃ (raw : List Char) (whole : String), raw = "  Sim → Abrir \t o chamado ".toList ∧
      (classify 0 raw).text = whole ∧ whole = "Abrir \t o chamado" ∧ (classify 8 raw).text = "Abrir…" ∧
      CappedLabel 8 whole.toList "Abrir…".toList ∧ (classify 1 raw).text = "…" ∧
      CappedLabel 1 whole.toList "…".toList ∧ (classify 8 raw).isBranch = true ∧
      (classify 8 raw).answer? = some .yes ∧ (classify 8 raw).kindName = Vocabulary.name NodeKind.process ∧
      1 ≤ (classify 8 raw).level := by
  let raw : List Char := "  Sim → Abrir \t o chamado ".toList
  have hwhole : (classify 0 raw).text = "Abrir \t o chamado" := by decide +kernel
  have hcut : (classify 8 raw).text = "Abrir…" := by decide +kernel
  have hbare : (classify 1 raw).text = "…" := by decide +kernel
  have hbranch : (classify 8 raw).isBranch = true := by decide +kernel
  have hlabel := (classify_label 8 raw (Int.le_refl 0)).1 .process (by decide +kernel)
  have hlabel' := (classify_label 1 raw (Int.le_refl 0)).1 .process (by decide +kernel)
  rw [hwhole, hcut] at hlabel
  rw [hwhole, hbare] at hlabel'
  exact ⟨raw, _, rfl, hwhole, rfl, hcut, hlabel, hbare, hlabel', hbranch, by decide +kernel,
    (classify_label 8 raw (Int.le_refl 0)).2.2 hbranch⟩

end Flowchart.Outline
