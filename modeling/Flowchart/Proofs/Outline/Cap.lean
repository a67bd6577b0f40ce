import Flowchart.Proofs.Outline.Lines
import Flowchart.Proofs.Text.Trim

/-!
# Capping labels

A label that has been capped and is capped again more tightly is as if it had only been capped tightly
(`capLabel_capLabel`), although the first cut may have taken blanks with it and so left less than the second cut would.
A text says the same under any cap, but for the labels (`contents_capped`).
-/

namespace Flowchart.Outline

open Text (trimEnd trimEnd_trimEnd trimEnd_take_trimEnd)

variable {wide cap : Int}

theorem capChars_of_whole {label : List Char} (h : cap ≤ 0 ∨ (label.length : Int) ≤ cap) : capChars cap label = label :=
  if_pos h

theorem capChars_of_cut {label : List Char} (h : ¬(cap ≤ 0 ∨ (label.length : Int) ≤ cap)) :
    capChars cap label = trimEnd (label.take (cap.toNat - 1)) ++ [ellipsis] :=
  if_neg h

/-- A tight cut after a wide one. Where the wide cut has left no more than the tight one allows, the tight one would
have found blanks behind it. -/
private theorem capChars_cut {label : List Char} (hcap : 1 ≤ cap) (hwide : cap ≤ wide) :
    capChars cap (trimEnd (label.take (wide.toNat - 1)) ++ [ellipsis]) =
      trimEnd (label.take (cap.toNat - 1)) ++ [ellipsis] := by
  have hcut : trimEnd ((trimEnd (label.take (wide.toNat - 1))).take (cap.toNat - 1)) =
      trimEnd (label.take (cap.toNat - 1)) := by
    rw [trimEnd_take_trimEnd, List.take_take, min_eq_left (by omega)]
  by_cases hshort : (((trimEnd (label.take (wide.toNat - 1)) ++ [ellipsis]).length : Nat) : Int) ≤ cap
  · have hsame : trimEnd (label.take (wide.toNat - 1)) = trimEnd (label.take (cap.toNat - 1)) := by
      rw [List.length_append, List.length_singleton] at hshort
      rw [← hcut, List.take_of_length_le (i := cap.toNat - 1) (by omega), trimEnd_trimEnd]
    rw [capChars_of_whole (.inr hshort), hsame]
  · have hlong : cap.toNat - 1 ≤ (trimEnd (label.take (wide.toNat - 1))).length := by
      rw [List.length_append, List.length_singleton] at hshort
      omega
    rw [capChars_of_cut (by omega), List.take_append_of_le_length hlong, hcut]

theorem capChars_capChars (hcap : 1 ≤ cap) (hwide : wide ≤ 0 ∨ cap ≤ wide) (label : List Char) :
    capChars cap (capChars wide label) = capChars cap label := by
  by_cases hwhole : wide ≤ 0 ∨ (label.length : Int) ≤ wide
  · rw [capChars_of_whole hwhole]
  · have hle : cap ≤ wide := hwide.resolve_left fun h => hwhole (.inl h)
    rw [capChars_of_cut hwhole, capChars_cut hcap hle, capChars_of_cut]
    omega

theorem capLabel_capLabel (hcap : 1 ≤ cap) (hwide : wide ≤ 0 ∨ cap ≤ wide) (label : String) :
    capLabel cap (capLabel wide label) = capLabel cap label := by
  unfold capLabel
  rw [String.toList_ofList, capChars_capChars hcap hwide]

namespace Content

/-- The content with its label replaced; the name of a container stays. -/
def relabeled (f : String → String) : Content → Content
  | node kind label => node kind (f label)
  | answer a label => answer a (f label)
  | other => other

theorem capped_eq_relabeled (maxLength : Int) (c : Content) :
    c.capped maxLength = c.relabeled (capLabel maxLength) := by
  cases c <;> rfl

theorem capped_capped (hcap : 1 ≤ cap) (hwide : wide ≤ 0 ∨ cap ≤ wide) (c : Content) :
    (c.capped wide).capped cap = c.capped cap := by
  cases c <;> simp [capped, capLabel_capLabel hcap hwide]

theorem relabeled_eq_nothing {f : String → String} {c : Content} : c.relabeled f = .nothing ↔ c = .nothing := by
  cases c <;> simp [relabeled]

end Content

/-- Under a tighter cap a text says the same, with the labels capped once more. -/
theorem contents_capped (hcap : 1 ≤ cap) (hwide : wide ≤ 0 ∨ cap ≤ wide) (text : List Char) :
    contents cap text = (contents wide text).map (Content.relabeled (capLabel cap)) := by
  have hline : ∀ raw, (classify cap raw).content = (classify wide raw).content.relabeled (capLabel cap) := by
    intro raw
    rw [← Content.capped_eq_relabeled]
    exact (Content.capped_capped hcap hwide _).symm
  have hsays : (fun c : Content => decide (c ≠ .nothing)) ∘ Content.relabeled (capLabel cap) =
      fun c => decide (c ≠ .nothing) :=
    funext fun c => decide_eq_decide.2 (not_congr Content.relabeled_eq_nothing)
  have hcontents : contents cap text =
      ((((splitLines text).filter fun line => !(Text.trim line).isEmpty).map fun line =>
        (classify wide line).content).map (Content.relabeled (capLabel cap))).filter (· ≠ .nothing) := by
    unfold contents
    rw [List.map_map]
    exact congrArg _ (List.map_congr_left fun raw _ => hline raw)
  rw [hcontents, List.filter_map, hsays]
  rfl

end Flowchart.Outline
