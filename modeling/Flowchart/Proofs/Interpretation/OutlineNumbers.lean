import Flowchart.Proofs.Interpretation.Spacing
import Flowchart.Proofs.Text.Caseless

/-!
# Numbered outlines

What the numbers in front of the lines of an outline are, told by themselves and not by how they are taken off
(`OutlineNumber`), and that they make no difference: a numbered outline is interpreted as the outline without its
numbers (`interpretNumbered_numbered`).

The ways to take a number off are tried one after the other on what is left of the line, and two numbers with dots begin
three of them. That no number is taken for another one rests on what follows it: a blank or nothing, and so no digit.
-/

namespace Flowchart.Outline

open Text

/-- Whether a text is nothing but digits, at least one of them. -/
def Numeral (s : List Char) : Prop :=
  s ≠ [] ∧ ∀ c ∈ s, isDigit c = true

instance (s : List Char) : Decidable (Numeral s) :=
  decidable_of_iff (s ≠ [] ∧ s.all isDigit = true) (and_congr_right fun _ => List.all_eq_true)

/-- Some numerals with a dot behind each. -/
inductive Dotted : Nat → List Char → Prop
  | nil : Dotted 0 []
  | cons {parts : Nat} {d s : List Char} : Numeral d → Dotted parts s → Dotted (parts + 1) (d ++ '.' :: s)

/-- A number in front of a line. -/
inductive OutlineNumber : List Char → Prop
  | three {s : List Char} : Dotted 3 s → OutlineNumber s
  | two {s : List Char} : Dotted 2 s → OutlineNumber s
  | parenthesized {d : List Char} : Numeral d → OutlineNumber ('(' :: d ++ [')'])

/-- Whether no digit stands in front. -/
def NoDigit (s : List Char) : Prop :=
  ∀ c ∈ s.head?, isDigit c = false

theorem noDigit_cons {c : Char} (hc : isDigit c = false) (s : List Char) : NoDigit (c :: s) := by
  rintro x ⟨⟩
  exact hc

theorem dropDigits?_append {d rest : List Char} (hd : Numeral d) (hrest : NoDigit rest) :
    dropDigits? (d ++ rest) = some rest := by
  obtain ⟨hne, hdigits⟩ := hd
  obtain ⟨c, d, rfl⟩ := List.exists_cons_of_ne_nil hne
  have hskip : rest.dropWhile isDigit = rest := by
    cases rest with
    | nil => rfl
    | cons x rest => exact List.dropWhile_cons_of_neg (by simpa using hrest x rfl)
  rw [List.cons_append, dropDigits?, if_pos (hdigits c List.mem_cons_self),
    List.dropWhile_append_of_pos fun x hx => hdigits x (List.mem_cons_of_mem c hx), hskip]

theorem exists_of_dropDigits? {s rest : List Char} (h : dropDigits? s = some rest) :
    ∃ d, Numeral d ∧ s = d ++ rest := by
  cases s with
  | nil => cases h
  | cons c s =>
    simp only [dropDigits?, Option.ite_none_right_eq_some, Option.some.injEq] at h
    obtain ⟨hc, rfl⟩ := h
    refine ⟨c :: s.takeWhile isDigit, ⟨List.cons_ne_nil _ _, ?_⟩, ?_⟩
    · intro x hx
      rcases List.mem_cons.1 hx with rfl | hx
      · exact hc
      · exact List.all_eq_true.1 List.all_takeWhile x hx
    · rw [List.cons_append, List.takeWhile_append_dropWhile]

theorem dropDigits?_of_noDigit {s : List Char} (h : NoDigit s) : dropDigits? s = none := by
  cases s with
  | nil => rfl
  | cons c s => exact if_neg (by simpa using h c rfl)

theorem dropDotted?_succ {parts : Nat} {s rest : List Char} :
    dropDotted? (parts + 1) s = some rest ↔
      ∃ behind, dropDigits? s = some ('.' :: behind) ∧ dropDotted? parts behind = some rest := by
  rw [dropDotted?]
  split
  · next behind h => simp [h]
  · next hother =>
    constructor
    · intro h
      cases h
    · rintro ⟨behind, hdigits, -⟩
      exact (hother behind hdigits).elim

theorem dropDotted?_append {parts : Nat} {number : List Char} (hnumber : Dotted parts number) (more : Nat)
    (rest : List Char) : dropDotted? (more + parts) (number ++ rest) = dropDotted? more rest := by
  induction hnumber with
  | nil => rfl
  | @cons parts d s hd _ ih =>
    have hdigits : dropDigits? (d ++ '.' :: s ++ rest) = some ('.' :: (s ++ rest)) := by
      rw [List.append_assoc]
      exact dropDigits?_append hd (noDigit_cons (by decide) _)
    rw [← Nat.add_assoc, dropDotted?, hdigits]
    exact ih

/-- Dotted numerals are taken off exactly where a text begins with them. -/
theorem dropDotted?_eq_some {parts : Nat} {s rest : List Char} :
    dropDotted? parts s = some rest ↔ ∃ number, Dotted parts number ∧ s = number ++ rest := by
  constructor
  · intro h
    induction parts generalizing s with
    | zero => exact ⟨[], .nil, Option.some.inj h⟩
    | succ parts ih =>
      obtain ⟨behind, hdigits, hbehind⟩ := dropDotted?_succ.1 h
      obtain ⟨d, hd, rfl⟩ := exists_of_dropDigits? hdigits
      obtain ⟨number, hnumber, rfl⟩ := ih hbehind
      exact ⟨d ++ '.' :: number, .cons hd hnumber, by simp⟩
  · rintro ⟨number, hnumber, rfl⟩
    have h := dropDotted?_append hnumber 0 rest
    rwa [Nat.zero_add] at h

theorem dropDotted?_of_noDigit {s : List Char} (h : NoDigit s) (parts : Nat) : dropDotted? (parts + 1) s = none := by
  rw [dropDotted?, dropDigits?_of_noDigit h]

/-- A numeral in parentheses is taken off exactly where a text begins with it. -/
theorem dropParenthesized?_eq_some {s rest : List Char} :
    dropParenthesized? s = some rest ↔ ∃ d, Numeral d ∧ s = '(' :: d ++ ')' :: rest := by
  constructor
  · intro h
    unfold dropParenthesized? dropClosed? at h
    split at h
    · split at h
      · next behind hdigits =>
        obtain ⟨d, hd, rfl⟩ := exists_of_dropDigits? hdigits
        obtain rfl := Option.some.inj h
        exact ⟨d, hd, rfl⟩
      · cases h
    · cases h
  · rintro ⟨d, hd, rfl⟩
    have hdigits : dropDigits? (d ++ ')' :: rest) = some (')' :: rest) :=
      dropDigits?_append hd (noDigit_cons (by decide) rest)
    simp only [List.cons_append, dropParenthesized?, dropClosed?, hdigits]

/-- Whether a line has no number in front, leaving blanks aside. -/
def Unnumbered (line : List Char) : Prop :=
  ∀ number, OutlineNumber number → ¬ number <+: trim line

theorem unnumbered_iff {line : List Char} :
    Unnumbered line ↔ dropDotted? 3 (trim line) = none ∧ dropDotted? 2 (trim line) = none ∧
      dropParenthesized? (trim line) = none := by
  simp only [Option.eq_none_iff_forall_ne_some, ne_eq, dropDotted?_eq_some, dropParenthesized?_eq_some]
  constructor
  · intro h
    refine ⟨?_, ?_, ?_⟩
    · rintro rest ⟨number, hnumber, hline⟩
      exact h number (.three hnumber) ⟨rest, hline.symm⟩
    · rintro rest ⟨number, hnumber, hline⟩
      exact h number (.two hnumber) ⟨rest, hline.symm⟩
    · rintro rest ⟨d, hd, hline⟩
      exact h _ (.parenthesized hd) ⟨rest, by simp [hline]⟩
  · rintro ⟨hthree, htwo, hparenthesized⟩ number hnumber ⟨rest, hline⟩
    cases hnumber with
    | three hdotted => exact hthree rest ⟨number, hdotted, hline.symm⟩
    | two hdotted => exact htwo rest ⟨number, hdotted, hline.symm⟩
    | @parenthesized d hd => exact hparenthesized rest ⟨d, hd, by simp [← hline]⟩

instance (line : List Char) : Decidable (Unnumbered line) :=
  decidable_of_iff _ unnumbered_iff.symm

/-! ### Numbered lines -/

theorem dropNumber_of_none {number? : List Char → Option (List Char)} {line : List Char} (h : number? line = none) :
    dropNumber number? line = line := by
  rw [dropNumber, h]

theorem dropNumber_of_some {number? : List Char → Option (List Char)} {line rest : List Char}
    (h : number? line = some rest) : dropNumber number? line = trimStart rest := by
  rw [dropNumber, h]

/-- A line without a number stays as it is, but for the blanks around it. -/
theorem stripLineNumber_of_unnumbered {line : List Char} (h : Unnumbered line) : stripLineNumber line = trim line := by
  obtain ⟨hthree, htwo, hparenthesized⟩ := unnumbered_iff.1 h
  rw [stripLineNumber, dropNumber_of_none hthree, dropNumber_of_none htwo, dropNumber_of_none hparenthesized]

theorem Numeral.not_blank {d : List Char} (hd : Numeral d) {c : Char} (hc : c ∈ d) : isBlank c = false := by
  cases hblank : isBlank c with
  | false => rfl
  | true => cases (isDigit_of_isBlank hblank).symm.trans (hd.2 c hc)

theorem Dotted.not_blank {parts : Nat} {number : List Char} (h : Dotted parts number) {c : Char} (hc : c ∈ number) :
    isBlank c = false := by
  induction h with
  | nil => cases hc
  | cons hd _ ih =>
    rcases List.mem_append.1 hc with hc | hc
    · exact hd.not_blank hc
    · rcases List.mem_cons.1 hc with rfl | hc
      · decide
      · exact ih hc

theorem OutlineNumber.not_blank {number : List Char} (h : OutlineNumber number) : ∀ c ∈ number, isBlank c = false := by
  intro c hc
  cases h with
  | three h => exact h.not_blank hc
  | two h => exact h.not_blank hc
  | parenthesized hd =>
    simp only [List.cons_append, List.mem_cons, List.mem_append, List.not_mem_nil, or_false] at hc
    rcases hc with rfl | hc | rfl
    · decide
    · exact hd.not_blank hc
    · decide

theorem OutlineNumber.ne_nil {number : List Char} (h : OutlineNumber number) : number ≠ [] := by
  cases h with
  | three h => cases h; simp
  | two h => cases h; simp
  | parenthesized hd => simp

/-- A line without the blanks around it, as it is or with a number and blanks in front. -/
inductive NumberedLine (line : List Char) : List Char → Prop
  | plain : NumberedLine line (trim line)
  | numbered {number blanks : List Char} : OutlineNumber number → blanks ≠ [] → AllBlank blanks → '\n' ∉ blanks →
    NumberedLine line (number ++ (blanks ++ trim line))

/-- The number is taken off, and nothing else. -/
theorem NumberedLine.stripLineNumber_eq {line numbered : List Char} (hline : Unnumbered line)
    (h : NumberedLine line numbered) : stripLineNumber numbered = trim line := by
  cases h with
  | plain =>
    have htrimmed : Unnumbered (trim line) := by
      unfold Unnumbered
      rwa [trim_trim]
    rw [stripLineNumber_of_unnumbered htrimmed, trim_trim]
  | @numbered number blanks hnumber hne hblanks _ =>
    obtain ⟨hthree, htwo, hparenthesized⟩ := unnumbered_iff.1 hline
    -- the line may be empty, and then the blanks behind the number are trimmed, too
    have htrim := trim_append hnumber.not_blank hnumber.ne_nil (blanks ++ trim line)
    have hrest : trimStart (trimEnd (blanks ++ trim line)) = trim line := by
      have hnil : AllBlank [] := by decide
      have hpadded := trim_padded hblanks hnil (trim line)
      rw [List.append_nil, trim_trim] at hpadded
      rw [trimStart_trimEnd, hpadded]
    have hnodigit : NoDigit (trimEnd (blanks ++ trim line)) := by
      obtain ⟨b, blanks, rfl⟩ := List.exists_cons_of_ne_nil hne
      rw [List.cons_append, trimEnd_cons]
      split
      · rintro x ⟨⟩
      · exact noDigit_cons (isDigit_of_isBlank (hblanks b List.mem_cons_self)) _
    unfold stripLineNumber
    rw [htrim]
    cases hnumber with
    | three hdotted =>
      rw [dropNumber_of_some (dropDotted?_eq_some.2 ⟨number, hdotted, rfl⟩), hrest, dropNumber_of_none htwo,
        dropNumber_of_none hparenthesized]
    | two hdotted =>
      have hnext := (dropDotted?_append hdotted 1 _).trans (dropDotted?_of_noDigit hnodigit 0)
      rw [dropNumber_of_none hnext, dropNumber_of_some (dropDotted?_eq_some.2 ⟨number, hdotted, rfl⟩), hrest,
        dropNumber_of_none hparenthesized]
    | @parenthesized d hd =>
      have hopening : NoDigit ('(' :: d ++ [')'] ++ trimEnd (blanks ++ trim line)) := noDigit_cons (by decide) _
      have hclosing : dropParenthesized? ('(' :: d ++ [')'] ++ trimEnd (blanks ++ trim line)) =
          some (trimEnd (blanks ++ trim line)) := dropParenthesized?_eq_some.2 ⟨d, hd, by simp⟩
      rw [dropNumber_of_none (dropDotted?_of_noDigit hopening 2),
        dropNumber_of_none (dropDotted?_of_noDigit hopening 1), dropNumber_of_some hclosing, hrest]

variable {lines numbered : List (List Char)}

theorem not_mem_trim {c : Char} {s : List Char} (h : c ∉ s) : c ∉ trim s := by
  obtain ⟨before, after, -, -, hs⟩ := exists_padding s
  intro hc
  rw [hs] at h
  exact h (List.mem_append_left after (List.mem_append_right before hc))

theorem NumberedLine.newline_not_mem {line numbered : List Char} (hline : '\n' ∉ line)
    (h : NumberedLine line numbered) : '\n' ∉ numbered := by
  cases h with
  | plain => exact not_mem_trim hline
  | @numbered number blanks hnumber _ _ hblanks =>
    have hin : '\n' ∉ number := fun hc => by cases hnumber.not_blank _ hc
    simp [hin, hblanks, not_mem_trim hline]

theorem stripNumbering_joinLines (hlines : ∀ line ∈ lines, '\n' ∉ line ∧ Unnumbered line)
    (h : List.Forall₂ NumberedLine lines numbered) :
    stripNumbering (joinLines numbered) = joinLines (lines.map trim) := by
  have hstripped : (∀ line ∈ numbered, '\n' ∉ line) ∧ numbered.map stripLineNumber = lines.map trim := by
    induction h with
    | nil => exact ⟨by simp, rfl⟩
    | @cons line numberedLine lines numbered hline _ ih =>
      obtain ⟨hnewline, hnumber⟩ := hlines line List.mem_cons_self
      obtain ⟨hnewlines, hmap⟩ := ih fun l hl => hlines l (List.mem_cons_of_mem line hl)
      refine ⟨List.forall_mem_cons.2 ⟨hline.newline_not_mem hnewline, hnewlines⟩, ?_⟩
      rw [List.map_cons, List.map_cons, hline.stripLineNumber_eq hnumber, hmap]
  obtain ⟨hnewlines, hmap⟩ := hstripped
  cases h with
  | nil => rfl
  | cons _ _ =>
    unfold stripNumbering
    rw [splitLines_joinLines (List.cons_ne_nil _ _) hnewlines, hmap]

/-- The blanks around the lines of a text make no difference to what it says. -/
theorem contents_joinLines_trim (maxLength : Int) (hlines : ∀ line ∈ lines, '\n' ∉ line) :
    contents maxLength (joinLines (lines.map trim)) = contents maxLength (joinLines lines) := by
  have htrimmed : ∀ line ∈ lines.map trim, '\n' ∉ line :=
    List.forall_mem_map.2 fun line hline => not_mem_trim (hlines line hline)
  cases lines with
  | nil => rfl
  | cons line rest =>
    have hne : (line :: rest).map trim ≠ [] := List.cons_ne_nil _ _
    rw [contents_eq_map_meaningful, contents_eq_map_meaningful, splitLines_joinLines hne htrimmed,
      splitLines_joinLines (List.cons_ne_nil line rest) hlines, meaningful_map_trim]

end Flowchart.Outline

namespace Flowchart.Interpretation

open Outline (NumberedLine OutlineNumber Unnumbered joinLines)

variable {α : Type} [Scalar α] [Trigonometry α]

/-- Numbers in front of the lines of an outline are invisible where a numbered outline is interpreted: if no line begins
with a number of its own, and some are numbered, the outcome is that of the outline as it was, for all settings and all
nodes that are there already. -/
theorem interpretNumbered_numbered (settings : Settings α) (existing : List (Node α))
    {lines numbered : List (List Char)} (hlines : ∀ line ∈ lines, '\n' ∉ line ∧ Unnumbered line)
    (hnumbered : List.Forall₂ NumberedLine lines numbered) :
    interpretNumbered settings existing (String.ofList (joinLines numbered)) =
      interpret settings existing (String.ofList (joinLines lines)) := by
  have hcontents := Outline.contents_joinLines_trim settings.labelCap fun line hline => (hlines line hline).1
  unfold interpretNumbered interpret
  rw [String.toList_ofList, String.toList_ofList, String.toList_ofList,
    Outline.stripNumbering_joinLines hlines hnumbered, hcontents]

/-- A container, an answer and a blank line are numbered, and the start, with digits of another script; the decision is
not. -/
theorem interpretNumbered_numbered_answers :
    ∃ (settings : Settings Float) (lines numbered : List (List Char)) (g : Graph Float),
      settings = Options.none.settings ∧
      lines = ["[Container] Etapa".toList, "  [Início] Abrir".toList, "[Decisão] Ok?".toList, [],
        "Sim → Sair ".toList] ∧
      (∀ line ∈ lines, '\n' ∉ line ∧ Unnumbered line) ∧ List.Forall₂ NumberedLine lines numbered ∧
      String.ofList (joinLines numbered) =
        "1.1. [Container] Etapa\n\u0661.\u0662\u0663.\u0664.\t[Início] Abrir\n[Decisão] Ok?\n(7)\r\n(12)  Sim → Sair" ∧
      interpretNumbered settings [] (String.ofList (joinLines numbered)) =
        interpret settings [] (String.ofList (joinLines lines)) ∧
      interpret settings [] (String.ofList (joinLines lines)) = .ok g ∧
      g.nodes.map (·.text) = ["Abrir", "Ok?", "Sair"] ∧ g.containers.map (·.name) = ["Etapa"] := by
  let settings : Settings Float := Options.none.settings
  let lines : List (List Char) := ["[Container] Etapa".toList, "  [Início] Abrir".toList,
    "[Decisão] Ok?".toList, [], "Sim → Sair ".toList]
  let numbered : List (List Char) := [
    ['1', '.', '1', '.'] ++ ([' '] ++ Text.trim "[Container] Etapa".toList),
    ['\u0661', '.', '\u0662', '\u0663', '.', '\u0664', '.'] ++ (['\t'] ++ Text.trim "  [Início] Abrir".toList),
    Text.trim "[Decisão] Ok?".toList,
    ['(', '7', ')'] ++ (['\r'] ++ Text.trim []),
    ['(', '1', '2', ')'] ++ ([' ', ' '] ++ Text.trim "Sim → Sair ".toList)]
  have hlines : ∀ line ∈ lines, '\n' ∉ line ∧ Unnumbered line := by decide +kernel
  have htwo : OutlineNumber ['1', '.', '1', '.'] :=
    .two (.cons (d := ['1']) (by decide) (.cons (d := ['1']) (by decide) .nil))
  have hthree : OutlineNumber ['\u0661', '.', '\u0662', '\u0663', '.', '\u0664', '.'] :=
    .three (.cons (d := ['\u0661']) (by decide) (.cons (d := ['\u0662', '\u0663']) (by decide)
      (.cons (d := ['\u0664']) (by decide) .nil)))
  have hnumbered : List.Forall₂ NumberedLine lines numbered := by
    refine .cons (.numbered htwo ?_ ?_ ?_) (.cons (.numbered hthree ?_ ?_ ?_) (.cons .plain (.cons
      (.numbered (.parenthesized (d := ['7']) (by decide)) ?_ ?_ ?_) (.cons
        (.numbered (.parenthesized (d := ['1', '2']) (by decide)) ?_ ?_ ?_) .nil))))
    all_goals decide
  have hrun : (interpret settings [] (String.ofList (joinLines lines))).map
      (fun g => (g.nodes.map (·.text), g.containers.map (·.name))) =
        .ok (["Abrir", "Ok?", "Sair"], ["Etapa"]) := by
    decide +kernel
  obtain ⟨g, hg, hshown⟩ := exists_eq_ok_of_map hrun
  obtain ⟨htexts, hnames⟩ := Prod.mk.inj hshown
  exact ⟨settings, lines, numbered, g, rfl, rfl, hlines, hnumbered, by decide +kernel,
    interpretNumbered_numbered settings [] hlines hnumbered, hg, htexts, hnames⟩

end Flowchart.Interpretation
