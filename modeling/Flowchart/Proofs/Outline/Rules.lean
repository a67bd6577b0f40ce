import Flowchart.Outline.Line
import Flowchart.Proofs.Text.Caseless
import Flowchart.Proofs.Text.Trim
import Mathlib.Data.List.Pairwise

/-!
# The order of the rules

What a line says is decided by the first rule that applies. For lines that are long enough to say anything the order of
the rules makes no difference: at most one of them applies, the last one aside, which looks at the first letter only
(`rules_exclusive`).

The beginning of a line tells which rule can apply, the case of letters set aside (`leadOf`). For each rule it is shown
that it applies to no line with another beginning (`leadOf_of_applies`).
-/

namespace Flowchart.Outline

open Text

/-- The place in the list of rules of the only one that may apply to a line, by the line's beginning in small letters. -/
def leadOf : List Char → Nat
  | '[' :: 'i' :: _ => 1
  | '[' :: 'f' :: _ => 2
  | '[' :: 'd' :: _ => 3
  | '[' :: 'p' :: _ => 4
  | '[' :: s => if s[9]? = some '-' then 7 else 8
  | 's' :: _ => 5
  | 'n' :: 'ó' :: _ => 0
  | 'n' :: _ => 6
  | _ => 0

section Beginnings

variable {line : List Char}

theorem small_of_beginsWith {word : String} (h : beginsWith word line = true) :
    ∃ rest, small line = word.toList ++ rest := by
  obtain ⟨rest, hrest⟩ := Option.isSome_iff_exists.1 h
  exact ⟨small rest, small_of_dropCaseless? hrest⟩

/-- No other rule than the first one asks for a line that begins with a sign that is no letter and no bracket. -/
theorem leadOf_of_ne {c : Char} (hc : c ∉ ['[', 's', 'n']) (s : List Char) : leadOf (c :: s) = 0 := by
  unfold leadOf
  split <;> simp_all

theorem leadOf_of_isHeading (h : isHeading line = true) : leadOf (small line) = 0 := by
  obtain ⟨word, hword, hbegins⟩ := List.any_eq_true.1 h
  obtain ⟨rest, hline⟩ := small_of_beginsWith hbegins
  rw [hline]
  simp only [headings, List.mem_cons, List.not_mem_nil, or_false] at hword
  rcases hword with rfl | rfl | rfl | rfl <;> rfl

theorem exists_digit_of_dropDigits? {rest : List Char} (h : dropDigits? line = some rest) :
    ∃ c s, line = c :: s ∧ isDigit c = true := by
  cases line with
  | nil => cases h
  | cons c s =>
    simp only [dropDigits?, Option.ite_none_right_eq_some] at h
    exact ⟨c, s, rfl, h.1⟩

/-- An outline mark begins with a digit or is a bullet. -/
theorem exists_head_of_isOutlineMark (h : isOutlineMark line = true) :
    ∃ c s, line = c :: s ∧ (isDigit c = true ∨ isBullet c = true) := by
  have hdigit : ∀ rest, dropDigits? line = some rest → ∃ c s, line = c :: s ∧ (isDigit c = true ∨ isBullet c = true) := by
    intro rest hrest
    obtain ⟨c, s, hline, hc⟩ := exists_digit_of_dropDigits? hrest
    exact ⟨c, s, hline, .inl hc⟩
  simp only [isOutlineMark, Bool.or_eq_true] at h
  rcases h with (h | h) | h
  · unfold dropDotted? at h
    split at h
    · next hrest => exact hdigit _ hrest
    · cases h
  · cases line with
    | nil => cases h
    | cons c s => exact ⟨c, s, rfl, .inr h⟩
  · unfold dropClosed? at h
    split at h
    · next hrest => exact hdigit _ hrest
    · cases h

theorem leadOf_of_isOutlineMark (h : isOutlineMark line = true) : leadOf (small line) = 0 := by
  obtain ⟨c, s, rfl, hc⟩ := exists_head_of_isOutlineMark h
  have hother : (['[', 's', 'n'].all fun x => !isDigit x && !isBullet x) = true := by decide
  have hsame : foldCase c = c := by
    rcases hc with hc | hc
    · exact foldCase_of_isDigit hc
    · simp only [isBullet, Bool.or_eq_true, decide_eq_true_eq] at hc
      rcases hc with (rfl | rfl) | rfl <;> rfl
  have hnot : foldCase c ∉ ['[', 's', 'n'] := by
    intro hmem
    have hneither := List.all_eq_true.1 hother _ hmem
    rw [hsame, Bool.and_eq_true, Bool.not_eq_true', Bool.not_eq_true'] at hneither
    simp [hneither.1, hneither.2] at hc
  exact leadOf_of_ne hnot (small s)

theorem leadOf_of_isSeparator (h : isSeparator line = true) : leadOf (small line) = 0 := by
  have htake : line.take 3 = ['=', '=', '='] := of_decide_eq_true h
  cases line with
  | nil => cases htake
  | cons c s =>
    obtain rfl : c = '=' := (List.cons.inj htake).1
    exact leadOf_of_ne (by decide) (small s)

/-- Lines that say nothing, other than short ones. -/
theorem leadOf_of_isNoise (hlength : 3 ≤ line.length) (h : isNoise line = true) : leadOf (small line) = 0 := by
  simp only [isNoise, Bool.or_eq_true, decide_eq_true_eq] at h
  rcases h with ((h | h) | h) | h
  · omega
  · exact leadOf_of_isOutlineMark h
  · exact leadOf_of_isSeparator h
  · exact leadOf_of_isHeading h

theorem leadOf_of_markerRule {kind : NodeKind} (h : (markerRule kind line).isSome = true) :
    leadOf (small line) = match kind with | .start => 1 | .finish => 2 | .decision => 3 | .process => 4 := by
  rw [markerRule, Option.isSome_map] at h
  obtain ⟨rest, hline⟩ := small_of_beginsWith h
  rw [hline]
  cases kind <;> rfl

/-- An arrow and the blanks in front of it begin with one of these. -/
theorem exists_head_of_arrow {rest : List Char} (h : dropArrow? (trimStart line) = some rest) :
    ∃ c s, line = c :: s ∧ (isBlank c = true ∨ c ∈ ['→', '-', ':']) := by
  cases line with
  | nil => cases h
  | cons c s =>
    refine ⟨c, s, rfl, ?_⟩
    cases hc : isBlank c with
    | true => exact .inl rfl
    | false =>
      right
      rw [trimStart_cons_of_not_blank hc] at h
      unfold dropArrow? at h
      split at h <;> simp_all

/-- The words of an answer are followed by a sign that is no letter. -/
theorem exists_of_answerRule {a : Answer} (h : (answerRule a line).isSome = true) :
    ∃ word ∈ a.words, ∃ c rest, small line = word.toList ++ c :: rest ∧ c ≠ 'ó' := by
  rw [answerRule, Option.isSome_map] at h
  obtain ⟨rest, hrest⟩ := Option.isSome_iff_exists.1 h
  obtain ⟨word, hword, hrest⟩ := List.exists_of_findSome?_eq_some hrest
  obtain ⟨behind, hbehind, harrow⟩ := Option.bind_eq_some_iff.1 hrest
  obtain ⟨c, s, rfl, hc⟩ := exists_head_of_arrow harrow
  have hsmall : foldCase c ≠ 'ó' := by
    have hsigns : (['→', '-', ':'].all fun x => foldCase x ≠ 'ó') = true := by decide
    rcases hc with hc | hc
    · rw [foldCase_of_isBlank hc]
      rintro rfl
      cases hc
    · exact of_decide_eq_true (List.all_eq_true.1 hsigns c hc)
  exact ⟨word, hword, foldCase c, small s, small_of_dropCaseless? hbehind, hsmall⟩

theorem leadOf_of_answerRule {a : Answer} (h : (answerRule a line).isSome = true) :
    leadOf (small line) = match a with | .yes => 5 | .no => 6 := by
  obtain ⟨word, hword, c, rest, hline, hc⟩ := exists_of_answerRule h
  rw [hline]
  cases a with
  | yes =>
    simp only [Answer.words, List.mem_cons, List.not_mem_nil, or_false] at hword
    rcases hword with rfl | rfl <;> rfl
  | no =>
    simp only [Answer.words, List.mem_cons, List.not_mem_nil, or_false] at hword
    rcases hword with rfl | rfl | rfl
    · rfl
    · rfl
    · -- the heading that begins with the same letter goes on with another one
      show leadOf ('n' :: c :: rest) = 6
      unfold leadOf
      split <;> simp_all

theorem small_of_openingRule (h : (openingRule line).isSome = true) :
    ∃ rest, small line = "[container]".toList ++ rest := by
  unfold openingRule at h
  split at h
  · next behind hbehind => exact ⟨small behind, small_of_dropCaseless? hbehind⟩
  · cases h

end Beginnings

/-! ### The rules -/

/-- A rule applies only where the beginning of the line points to it. -/
theorem leadOf_of_applies {line : List Char} (hlength : 3 ≤ line.length) {rule : List Char → Option Content} {i : Nat}
    (hrule : (rule, i) ∈ rules.zipIdx) (happlies : (rule line).isSome = true) : leadOf (small line) = i := by
  have hif : ∀ {b : Bool} {c : Content}, (if b then some c else none).isSome = true → b = true := by
    intro b c h
    cases b <;> trivial
  simp only [rules, List.zipIdx_cons, List.zipIdx_nil, List.mem_cons, Prod.mk.injEq, List.not_mem_nil, or_false] at hrule
  rcases hrule with ⟨rfl, rfl⟩ | ⟨rfl, rfl⟩ | ⟨rfl, rfl⟩ | ⟨rfl, rfl⟩ | ⟨rfl, rfl⟩ | ⟨rfl, rfl⟩ | ⟨rfl, rfl⟩ |
    ⟨rfl, rfl⟩ | ⟨rfl, rfl⟩
  · exact leadOf_of_isNoise hlength (hif happlies)
  · exact leadOf_of_markerRule happlies
  · exact leadOf_of_markerRule happlies
  · exact leadOf_of_markerRule happlies
  · exact leadOf_of_markerRule happlies
  · exact leadOf_of_answerRule happlies
  · exact leadOf_of_answerRule happlies
  · obtain ⟨rest, hline⟩ := small_of_beginsWith (hif happlies)
    rw [hline]
    rfl
  · obtain ⟨rest, hline⟩ := small_of_openingRule happlies
    rw [hline]
    rfl

/-- Of two rules at most one applies to a line. -/
theorem rules_pairwise {line : List Char} (hlength : 3 ≤ line.length) :
    rules.Pairwise fun rule rule' => ¬((rule line).isSome = true ∧ (rule' line).isSome = true) := by
  rw [List.pairwise_iff_getElem]
  rintro i j hi hj hlt ⟨happlies, happlies'⟩
  have hlead := leadOf_of_applies hlength (List.mk_mem_zipIdx_iff_getElem?.2 (List.getElem?_eq_getElem hi)) happlies
  have hlead' := leadOf_of_applies hlength (List.mk_mem_zipIdx_iff_getElem?.2 (List.getElem?_eq_getElem hj)) happlies'
  omega

/-- Where at most one entry has a result, the order of the entries makes no difference to what is found. -/
theorem findSome?_eq_of_perm {β γ : Type} {f : β → Option γ} {xs ys : List β} (hperm : xs.Perm ys)
    (hone : xs.Pairwise fun x y => ¬((f x).isSome = true ∧ (f y).isSome = true)) :
    xs.findSome? f = ys.findSome? f := by
  induction hperm with
  | nil => rfl
  | cons x _ ih => rw [List.findSome?_cons, List.findSome?_cons, ih (List.pairwise_cons.1 hone).2]
  | swap x y zs =>
    have hxy := (List.pairwise_cons.1 hone).1 x List.mem_cons_self
    simp only [List.findSome?_cons]
    cases hx : f x <;> cases hy : f y <;> simp_all
  | trans hxy _ ih ih' => exact (ih hone).trans (ih' (hxy.pairwise hone fun h h' => h h'.symm))

/-- What a line without blanks around it says if the rules are tried in another order, all but the last one; short lines
say nothing. -/
def contentIn (order : List (List Char → Option Content)) (line : List Char) : Content :=
  if line.length < 3 then .nothing
  else ((order.findSome? fun rule => rule line).or (capitalRule line)).getD .nothing

/-- A line as it is read if the rules are tried in another order. -/
def classifyIn (order : List (List Char → Option Content)) (maxLength : Int) (raw : List Char) : Line :=
  let content := contentIn order (trim raw)
  ⟨content.capped maxLength, levelOf (raw.takeWhile (· = ' ')).length content⟩

theorem contentIn_eq {order : List (List Char → Option Content)} (horder : order.Perm rules) (line : List Char) :
    contentIn order line = contentOf line := by
  unfold contentIn
  split
  · next hshort =>
    have hnoise : noiseRule line = some .nothing := if_pos (by simp [isNoise, hshort])
    rw [contentOf, rules, List.findSome?_cons_of_isSome] <;> simp [hnoise]
  · next hlong =>
    rw [contentOf, findSome?_eq_of_perm horder.symm (rules_pairwise (by omega))]

/-- To a line of at least three characters at most one of the rules applies, the last one aside. So every line is read
alike, in whatever order the rules are tried, as long as the last one stays at the end. -/
theorem rules_exclusive :
    (∀ line : List Char, 3 ≤ line.length →
      rules.Pairwise fun rule rule' => ¬((rule line).isSome = true ∧ (rule' line).isSome = true)) ∧
    ∀ order : List (List Char → Option Content), order.Perm rules → ∀ (maxLength : Int) (raw : List Char),
      classifyIn order maxLength raw = classify maxLength raw := by
  refine ⟨fun line hlength => rules_pairwise hlength, fun order horder maxLength raw => ?_⟩
  unfold classifyIn classify
  rw [contentIn_eq horder]

/-- With the rules tried backwards: a heading that begins like an answer, and an answer that goes on like the heading. -/
theorem rules_exclusive_backwards :
    ∃ (order : List (List Char → Option Content)) (heading answer : List Char),
      order = rules.reverse ∧ order.Perm rules ∧ heading = "NÓS EM SEQUÊNCIA - 1".toList ∧ 3 ≤ heading.length ∧
      answer = "\tN\u00a0-> nós em sequência ".toList ∧
      (rules.Pairwise fun rule rule' => ¬((rule heading).isSome = true ∧ (rule' heading).isSome = true)) ∧
      (noiseRule heading).isSome = true ∧ answerRule .no heading = none ∧
      classifyIn order 50 heading = classify 50 heading ∧ (classify 50 heading).content = .nothing ∧
      classifyIn order 50 answer = classify 50 answer ∧
      (classify 50 answer).content = .answer .no "nós em sequência" := by
  obtain ⟨hpairwise, horder⟩ := rules_exclusive
  have hperm : rules.reverse.Perm rules := List.reverse_perm rules
  exact ⟨rules.reverse, _, _, rfl, hperm, rfl, by decide, rfl, hpairwise _ (by decide), by decide +kernel,
    by decide +kernel, horder _ hperm _ _, by decide +kernel, horder _ hperm _ _, by decide +kernel⟩

end Flowchart.Outline
