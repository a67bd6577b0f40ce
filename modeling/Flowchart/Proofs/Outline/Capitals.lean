import Flowchart.Outline.Line
import Mathlib.Data.List.Basic

/-!
# Lines that begin with a capital

A line to which no other rule applies is a process if it begins with a character from A to Z or from À to Ú, and says
nothing otherwise (`classify_of_rules_none`). Among the Latin-1 characters this comes close to "begins with a capital":
the multiplication sign counts as one, and the four capitals behind Ú do not. For every other character the two agree
(`capital_line_taken_iff`).
-/

namespace Flowchart.Outline

open Text

/-- The capital letters among the Latin-1 characters. -/
def latinCapitals : List (Nat × Nat) := [(0x41, 0x5a), (0xc0, 0xd6), (0xd8, 0xde)]

/-- The range from À to Ú holds one sign that is no letter, and four capitals lie behind it. -/
def misreadCapitals : List Char := ['×', 'Û', 'Ü', 'Ý', 'Þ']

theorem isCapital_eq_inRanges (c : Char) : isCapital c = inRanges [(0x41, 0x5a), (0xc0, 0xda)] c := by
  have hle : ∀ d e : Char, decide (d ≤ e) = decide (d.toNat ≤ e.toNat) := fun d e => rfl
  simp only [isCapital, inRanges, List.any_cons, List.any_nil, Bool.or_false, hle]
  rfl

/-- A character counts as a capital just if it is one, with five exceptions. -/
theorem isCapital_eq_iff (c : Char) : isCapital c = inRanges latinCapitals c ↔ c ∉ misreadCapitals := by
  have hcode : c ∈ misreadCapitals ↔ c.toNat ∈ misreadCapitals.map Char.toNat :=
    (List.mem_map_of_injective fun _ _ h => Char.toNat_inj.1 h).symm
  rw [isCapital_eq_inRanges, hcode, Bool.eq_iff_iff]
  simp only [inRanges, latinCapitals, misreadCapitals, List.any_cons, List.any_nil, Bool.or_false, Bool.or_eq_true,
    Bool.and_eq_true, decide_eq_true_eq, List.map_cons, List.map_nil, List.mem_cons, List.not_mem_nil, or_false,
    Char.reduceToNat]
  omega

section Lines

variable {raw s : List Char} {c : Char}

/-- What a line says to which no rule but the last one applies. -/
theorem classify_of_rules_none (hline : trim raw = c :: s) (hrules : ∀ rule ∈ rules, rule (c :: s) = none)
    (maxLength : Int) :
    (classify maxLength raw).content =
      if isCapital c then .node .process (capLabel maxLength (String.ofList (c :: s))) else .nothing := by
  have hnone : rules.findSome? (fun rule => rule (c :: s)) = none := List.findSome?_eq_none_iff.2 hrules
  have hcontent : contentOf (c :: s) =
      if isCapital c then .node .process (String.ofList (c :: s)) else .nothing := by
    rw [contentOf, hnone, Option.none_or]
    cases hc : isCapital c <;> simp [capitalRule, hc]
  show (contentOf (trim raw)).capped maxLength = _
  rw [hline, hcontent]
  split <;> rfl

/-- A line of at least three characters that is no noise and to which no marker, answer or container rule applies is a
process with the whole line as its label, or else it says nothing. It is a process if and only if it begins with a
Latin-1 capital, for all lines but those that begin with one of the five misread characters, and for none of those. -/
theorem capital_line_taken_iff (hline : trim raw = c :: s) (hrules : ∀ rule ∈ rules, rule (c :: s) = none)
    (maxLength : Int) :
    let line := classify maxLength raw
    (line.kindName = "process" ∧ line.text = capLabel maxLength (String.ofList (c :: s)) ∧ line.answer? = none ∨
      line.kindName = "ignore") ∧
    ((line.kindName = "process" ↔ inRanges latinCapitals c = true) ↔ c ∉ misreadCapitals) := by
  have hcontent := classify_of_rules_none hline hrules maxLength
  have hprocess : (classify maxLength raw).kindName = "process" ↔ isCapital c = true := by
    rw [Line.kindName, hcontent]
    cases isCapital c
    · exact iff_of_false (show "ignore" ≠ "process" by decide) Bool.false_ne_true
    · exact iff_of_true rfl rfl
  refine ⟨?_, ?_⟩
  · rw [Line.kindName, Line.text, Line.answer?, hcontent]
    cases isCapital c
    · exact .inr rfl
    · exact .inl ⟨rfl, rfl, rfl⟩
  · rw [hprocess, ← isCapital_eq_iff]
    exact Bool.eq_iff_iff.symm

end Lines

/-- An indented line that begins with an accented capital and is longer than its label may be. -/
theorem capital_line_taken_iff_accented :
    ∃ (raw s : List Char) (c : Char), raw = "  Época de testes ".toList ∧ trim raw = c :: s ∧
      (∀ rule ∈ rules, rule (c :: s) = none) ∧ inRanges latinCapitals c = true ∧ c ∉ misreadCapitals ∧
      (classify 8 raw).kindName = "process" ∧ (classify 8 raw).text = "Época d…" := by
  have hline : trim "  Época de testes ".toList = 'É' :: "poca de testes".toList := by decide +kernel
  have hrules : ∀ rule ∈ rules, rule ('É' :: "poca de testes".toList) = none := by decide +kernel
  obtain ⟨hanswer, hiff⟩ := capital_line_taken_iff hline hrules 8
  have hprocess := (hiff.2 (by decide)).2 (by decide)
  have htext : (classify 8 "  Época de testes ".toList).text = "Época d…" := by
    rcases hanswer with ⟨-, htext, -⟩ | hignore
    · exact htext.trans (by decide +kernel)
    · rw [hignore] at hprocess
      exact absurd hprocess (by decide)
  exact ⟨_, _, _, rfl, hline, hrules, by decide, by decide, hprocess, htext⟩

/-- A line that begins with a capital from behind the range says nothing, and one that begins with the sign inside the
range is a process. -/
theorem misread_capital_lines :
    ∃ raw raw' : List Char, raw = "Über uns".toList ∧ raw' = "× dez vezes".toList ∧
      (∀ rule ∈ rules, rule (trim raw) = none) ∧ (trim raw).head? = some 'Ü' ∧ (classify 50 raw).kindName = "ignore" ∧
      ¬ ((classify 50 raw).kindName = "process" ↔ inRanges latinCapitals 'Ü' = true) ∧
      (∀ rule ∈ rules, rule (trim raw') = none) ∧ (trim raw').head? = some '×' ∧
      (classify 50 raw').kindName = "process" ∧
      ¬ ((classify 50 raw').kindName = "process" ↔ inRanges latinCapitals '×' = true) :=
  ⟨_, _, rfl, rfl, by decide +kernel, by decide +kernel, by decide +kernel, by decide +kernel, by decide +kernel,
    by decide +kernel, by decide +kernel, by decide +kernel⟩

end Flowchart.Outline
