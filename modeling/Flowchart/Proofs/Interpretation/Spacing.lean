import Flowchart.Interpretation.Run
import Flowchart.Numeric.Double
import Flowchart.Proofs.Fault
import Flowchart.Proofs.Outline.Lines
import Flowchart.Proofs.Text.Trim

/-!
# The spacing of an outline

An outline is taken up by its meaningful lines, and of each only what is left without the blanks around it
(`contents_eq_map_meaningful`). Two outlines with the same meaningful lines have the same chart or fail alike
(`interpret_respaced`).

`Respaced` lists the changes that keep the meaningful lines: other blanks around a line, and lines that are put in
or taken out and say nothing. There are no others (`respaced_iff`).
-/

namespace Flowchart.Outline

open Text

/-- The lines that say something, without the blanks around them. -/
def meaningful (maxLength : Int) (ls : List (List Char)) : List (List Char) :=
  (ls.filter fun raw => (classify maxLength raw).content ≠ .nothing).map trim

/-- What a line says does not depend on the blanks around it; these only tell its level. -/
@[simp] theorem classify_trim_content (maxLength : Int) (raw : List Char) :
    (classify maxLength (trim raw)).content = (classify maxLength raw).content := by
  simp [classify]

theorem content_of_allBlank (maxLength : Int) {raw : List Char} (h : AllBlank raw) :
    (classify maxLength raw).content = .nothing := by
  refine content_of_blank maxLength ?_
  rw [trim, trimStart_of_allBlank h]
  rfl

theorem contents_eq_map_meaningful (maxLength : Int) (text : List Char) :
    contents maxLength text =
      (meaningful maxLength (splitLines text)).map fun line => (classify maxLength line).content := by
  rw [contents_eq, lineContents, lines, meaningful, List.filter_map, List.map_map, List.map_map]
  refine List.map_congr_left fun raw _ => ?_
  exact (classify_trim_content maxLength raw).symm

section Meaningful

variable {maxLength : Int} {raw : List Char} (ls : List (List Char))

theorem meaningful_cons_of_nothing (h : (classify maxLength raw).content = .nothing) :
    meaningful maxLength (raw :: ls) = meaningful maxLength ls := by
  simp [meaningful, h]

theorem meaningful_cons (h : (classify maxLength raw).content ≠ .nothing) :
    meaningful maxLength (raw :: ls) = trim raw :: meaningful maxLength ls := by
  simp [meaningful, h]

/-- Only the trimmed line counts, also for whether it is meaningful at all. -/
theorem meaningful_cons_congr {raw' : List Char} {ls ls' : List (List Char)} (hraw : trim raw = trim raw')
    (hls : meaningful maxLength ls = meaningful maxLength ls') :
    meaningful maxLength (raw :: ls) = meaningful maxLength (raw' :: ls') := by
  have hcontent : (classify maxLength raw).content = (classify maxLength raw').content := by
    rw [← classify_trim_content, hraw, classify_trim_content]
  by_cases h : (classify maxLength raw).content = .nothing
  · rw [meaningful_cons_of_nothing ls h, meaningful_cons_of_nothing ls' (hcontent ▸ h), hls]
  · rw [meaningful_cons ls h, meaningful_cons ls' (hcontent ▸ h), hraw, hls]

end Meaningful

theorem meaningful_map_trim (maxLength : Int) (ls : List (List Char)) :
    meaningful maxLength (ls.map trim) = meaningful maxLength ls := by
  induction ls with
  | nil => rfl
  | cons raw ls ih => exact meaningful_cons_congr (trim_trim raw) ih

/-- The changes to the spacing of an outline, line by line. -/
inductive Respaced (maxLength : Int) : List (List Char) → List (List Char) → Prop
  | nil : Respaced maxLength [] []
  /-- A line stays, with other blanks in front of it and behind it. -/
  | keep (before line after before' after' : List Char) {ls ls' : List (List Char)} :
    AllBlank before → AllBlank after → AllBlank before' → AllBlank after' → Respaced maxLength ls ls' →
      Respaced maxLength ((before ++ line ++ after) :: ls) ((before' ++ line ++ after') :: ls')
  /-- A line is put in that is blank or says nothing. -/
  | insert {raw : List Char} {ls ls' : List (List Char)} :
    AllBlank raw ∨ (classify maxLength raw).content = .nothing → Respaced maxLength ls ls' →
      Respaced maxLength ls (raw :: ls')
  /-- A line is taken out that is blank or says nothing. -/
  | delete {raw : List Char} {ls ls' : List (List Char)} :
    AllBlank raw ∨ (classify maxLength raw).content = .nothing → Respaced maxLength ls ls' →
      Respaced maxLength (raw :: ls) ls'

variable {maxLength : Int} {ls ls' : List (List Char)}

private theorem Respaced.meaningful_eq (h : Respaced maxLength ls ls') :
    meaningful maxLength ls = meaningful maxLength ls' := by
  have hnothing : ∀ {raw : List Char}, AllBlank raw ∨ (classify maxLength raw).content = .nothing →
      (classify maxLength raw).content = .nothing :=
    fun h => h.elim (content_of_allBlank maxLength) id
  induction h with
  | nil => rfl
  | keep before line after before' after' hbefore hafter hbefore' hafter' _ ih =>
    refine meaningful_cons_congr ?_ ih
    rw [trim_padded hbefore hafter, trim_padded hbefore' hafter']
  | insert hraw _ ih => rw [meaningful_cons_of_nothing _ (hnothing hraw), ih]
  | delete hraw _ ih => rw [meaningful_cons_of_nothing _ (hnothing hraw), ih]

/-- Two lines that differ only in the blanks around them. -/
private theorem Respaced.cons {raw raw' : List Char} (hraw : trim raw = trim raw')
    (h : Respaced maxLength ls ls') : Respaced maxLength (raw :: ls) (raw' :: ls') := by
  obtain ⟨before, after, hbefore, hafter, heq⟩ := exists_padding raw
  obtain ⟨before', after', hbefore', hafter', heq'⟩ := exists_padding raw'
  rw [heq, heq', ← hraw]
  exact .keep before (trim raw) after before' after' hbefore hafter hbefore' hafter' h

private theorem respaced_of_meaningful_eq (h : meaningful maxLength ls = meaningful maxLength ls') :
    Respaced maxLength ls ls' := by
  induction ls generalizing ls' with
  | nil =>
    induction ls' with
    | nil => exact .nil
    | cons raw' ls' ih =>
      by_cases hraw' : (classify maxLength raw').content = .nothing
      · rw [meaningful_cons_of_nothing _ hraw'] at h
        exact .insert (.inr hraw') (ih h)
      · rw [meaningful_cons _ hraw'] at h
        cases h
  | cons raw ls ih =>
    by_cases hraw : (classify maxLength raw).content = .nothing
    · rw [meaningful_cons_of_nothing _ hraw] at h
      exact .delete (.inr hraw) (ih h)
    · rw [meaningful_cons _ hraw] at h
      -- the first meaningful line on the other side may have others in front of it
      induction ls' with
      | nil => cases h
      | cons raw' ls' ih' =>
        by_cases hraw' : (classify maxLength raw').content = .nothing
        · rw [meaningful_cons_of_nothing _ hraw'] at h
          exact .insert (.inr hraw') (ih' h)
        · rw [meaningful_cons _ hraw'] at h
          exact .cons (List.cons.inj h).1 (ih (List.cons.inj h).2)

/-- The changes to the spacing are those that keep the meaningful lines. -/
theorem respaced_iff : Respaced maxLength ls ls' ↔ meaningful maxLength ls = meaningful maxLength ls' :=
  ⟨Respaced.meaningful_eq, respaced_of_meaningful_eq⟩

end Flowchart.Outline

namespace Flowchart.Interpretation

open Outline (Respaced meaningful splitLines)
open Text (AllBlank)

variable {α : Type} [Scalar α] [Trigonometry α]

/-- Outlines with the same meaningful lines are interpreted alike. So other blanks around a line make no difference,
nor do lines that are put in or taken out anywhere and are blank or say nothing. -/
theorem interpret_respaced (settings : Settings α) (existing : List (Node α)) (outline outline' : String) :
    (meaningful settings.labelCap (splitLines outline.toList) =
        meaningful settings.labelCap (splitLines outline'.toList) →
      interpret settings existing outline = interpret settings existing outline') ∧
    (Respaced settings.labelCap (splitLines outline.toList) (splitLines outline'.toList) →
      interpret settings existing outline = interpret settings existing outline') := by
  have hsame : meaningful settings.labelCap (splitLines outline.toList) =
      meaningful settings.labelCap (splitLines outline'.toList) →
        interpret settings existing outline = interpret settings existing outline' := by
    intro h
    unfold interpret
    rw [Outline.contents_eq_map_meaningful, Outline.contents_eq_map_meaningful, h]
  exact ⟨hsame, fun h => hsame (Outline.respaced_iff.1 h)⟩

/-- Two lines are indented, two end in a carriage return, and a blank line, a note and a rule have been put in. -/
theorem interpret_respaced_notes :
    ∃ (outline outline' : String) (g : Graph Float),
      outline = "[Início] A\n[Decisão] B?\nSim → C" ∧
        outline' = "  [Início] A \r\n\n• nota\n\t[Decisão] B?\r\n======\nSim → C" ∧
        meaningful 50 (splitLines outline.toList) = meaningful 50 (splitLines outline'.toList) ∧
        Respaced 50 (splitLines outline.toList) (splitLines outline'.toList) ∧
        interpret (Options.none : Options Float).settings [] outline = interpret Options.none.settings [] outline' ∧
        interpret Options.none.settings [] outline' = .ok g ∧ g.nodes.map (·.text) = ["A", "B?", "C"] := by
  have hlines : splitLines "[Início] A\n[Decisão] B?\nSim → C".toList =
      ["[Início] A".toList, "[Decisão] B?".toList, "Sim → C".toList] := by decide +kernel
  have hlines' : splitLines "  [Início] A \r\n\n• nota\n\t[Decisão] B?\r\n======\nSim → C".toList =
      [[' ', ' '] ++ "[Início] A".toList ++ [' ', '\r'], [], "• nota".toList,
        ['\t'] ++ "[Decisão] B?".toList ++ ['\r'], "======".toList, "Sim → C".toList] := by decide +kernel
  have hrespaced : Respaced 50 (splitLines "[Início] A\n[Decisão] B?\nSim → C".toList)
      (splitLines "  [Início] A \r\n\n• nota\n\t[Decisão] B?\r\n======\nSim → C".toList) := by
    have hnil : AllBlank [] := by decide
    rw [hlines, hlines']
    refine .keep [] "[Início] A".toList [] [' ', ' '] [' ', '\r'] hnil hnil (by decide) (by decide) ?_
    refine .insert (.inl hnil) (.insert (.inr (by decide +kernel)) ?_)
    refine .keep [] "[Decisão] B?".toList [] ['\t'] ['\r'] hnil hnil (by decide) (by decide) ?_
    refine .insert (.inr (by decide +kernel)) ?_
    exact .keep [] "Sim → C".toList [] [] [] hnil hnil hnil hnil .nil
  have hmeaningful := Outline.respaced_iff.1 hrespaced
  have hrun : (interpret (Options.none : Options Float).settings [] "[Início] A\n[Decisão] B?\nSim → C").map
      (fun g => g.nodes.map (·.text)) = .ok ["A", "B?", "C"] := by decide +kernel
  obtain ⟨g, hg, htexts⟩ := exists_eq_ok_of_map hrun
  have hsame := interpret_respaced (Options.none : Options Float).settings []
    "[Início] A\n[Decisão] B?\nSim → C" "  [Início] A \r\n\n• nota\n\t[Decisão] B?\r\n======\nSim → C"
  exact ⟨_, _, g, rfl, rfl, hmeaningful, hrespaced, hsame.1 hmeaningful, (hsame.2 hrespaced).symm.trans hg, htexts⟩

end Flowchart.Interpretation
