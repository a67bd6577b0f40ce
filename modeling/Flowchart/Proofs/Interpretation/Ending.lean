import Flowchart.Proofs.Interpretation.Emission
import Flowchart.Proofs.Outline.Lines

/-!
# The end of an outline

Where an outline ends, the containers that are still open are closed in the same way as by closing lines. So any
number of closing lines at its end makes no difference (`interpret_append_closing`): the first ones close what would
be closed anyway, and those that are left over close nothing.
-/

namespace Flowchart.Interpretation

open Outline (Content)

variable {α : Type} [Scalar α] [Trigonometry α]

/-- One closing line before all containers are closed makes no difference. -/
private theorem closeAll_of_closing (ctx : Context α) (s : State α) :
    (step ctx s .closing >>= fun t => closeAll ctx t.drafts.length t) = closeAll ctx s.drafts.length s := by
  cases hd : s.drafts with
  | nil =>
    have hstep : step ctx s .closing = .ok s := by simp [step, hd]
    rw [hstep]
    show closeAll ctx s.drafts.length s = _
    rw [hd]
  | cons d ds =>
    have hstep : step ctx s .closing = closeContainer ctx s := by simp [step, hd]
    rw [hstep]
    show _ = closeContainer ctx s >>= closeAll ctx ds.length
    cases ht : closeContainer ctx s with
    | error e => rfl
    | ok t =>
      have hlength : ds.length = t.drafts.length := by
        have hclose := closeContainer_drafts ht
        rw [hd] at hclose
        exact Nat.succ.inj hclose
      rw [hlength]
      rfl

private theorem closeAll_of_closings (ctx : Context α) (count : Nat) (s : State α) :
    ((List.replicate count Content.closing).foldlM (step ctx) s >>= fun t => closeAll ctx t.drafts.length t) =
      closeAll ctx s.drafts.length s := by
  induction count generalizing s with
  | zero => rfl
  | succ count ih =>
    rw [List.replicate_succ, List.foldlM_cons, bind_assoc]
    simp only [ih]
    exact closeAll_of_closing ctx s

/-- Closing lines at the end add nothing to what lines say. -/
theorem interpretContents_append_closing (ctx : Context α) (cs : List Content) (count : Nat) :
    interpretContents ctx (cs ++ List.replicate count .closing) = interpretContents ctx cs := by
  have hrun : ∀ s : State α,
      ((List.replicate count Content.closing).foldlM (step ctx) s >>= fun t =>
        closeAll ctx t.drafts.length t >>= chart) = closeAll ctx s.drafts.length s >>= chart := by
    intro s
    rw [← closeAll_of_closings ctx count s, bind_assoc]
  unfold interpretContents
  simp only [List.foldlM_append, bind_assoc, hrun]

/-- Each closing line that is written below an outline closes one container. -/
theorem contents_append_closing (maxLength : Int) (text : List Char) (count : Nat) :
    Outline.contents maxLength (text ++ (String.join (List.replicate count "\n[Container-end]")).toList) =
      Outline.contents maxLength text ++ List.replicate count .closing := by
  induction count generalizing text with
  | zero => simp
  | succ count ih =>
    have hline : Outline.contents maxLength "[Container-end]".toList = [.closing] := rfl
    have htext : text ++ (String.join (List.replicate (count + 1) "\n[Container-end]")).toList =
        (text ++ '\n' :: "[Container-end]".toList) ++
          (String.join (List.replicate count "\n[Container-end]")).toList := by
      rw [List.replicate_succ, String.join_cons, String.toList_append, ← List.append_assoc]
      rfl
    rw [htext, ih, Outline.contents_append, hline, List.append_assoc]
    rfl

/-- Any number of closing lines at the end of an outline makes no difference, whether as many containers are open
there, or more, or fewer. -/
theorem interpret_append_closing (settings : Settings α) (existing : List (Node α)) (outline : String)
    (count : Nat) :
    interpret settings existing (outline ++ String.join (List.replicate count "\n[Container-end]")) =
      interpret settings existing outline := by
  unfold interpret
  rw [String.toList_append, contents_append_closing, interpretContents_append_closing]

end Flowchart.Interpretation
