import Flowchart.Text.Blank

/-!
# Trimming

Trimming takes nothing but blanks off a text (`exists_padding`), and all blanks that have been put around a text
(`trim_padded`). So a text that has been trimmed stays as it is (`trim_trim`), and no blank is left at either end of it
(`bare_trim`).
-/

namespace Flowchart.Text

/-- Whether a text is nothing but blanks. -/
def AllBlank (s : List Char) : Prop :=
  ∀ c ∈ s, isBlank c = true

instance (s : List Char) : Decidable (AllBlank s) :=
  decidable_of_iff (s.all isBlank = true) List.all_eq_true

theorem allBlank_takeWhile (s : List Char) : AllBlank (s.takeWhile isBlank) := by
  intro c hc
  have hall := List.all_takeWhile (l := s) (p := isBlank)
  exact List.all_eq_true.1 hall c hc

theorem AllBlank.reverse {s : List Char} (h : AllBlank s) : AllBlank s.reverse :=
  fun c hc => h c (List.mem_reverse.1 hc)

theorem trimStart_append {before : List Char} (h : AllBlank before) (s : List Char) :
    trimStart (before ++ s) = trimStart s :=
  List.dropWhile_append_of_pos h

theorem trimStart_of_allBlank {s : List Char} (h : AllBlank s) : trimStart s = [] := by
  simpa [trimStart] using trimStart_append h []

theorem trimEnd_append {after : List Char} (h : AllBlank after) (s : List Char) :
    trimEnd (s ++ after) = trimEnd s := by
  unfold trimEnd
  rw [List.reverse_append, List.dropWhile_append_of_pos h.reverse]

theorem takeWhile_append_trimStart (s : List Char) : s.takeWhile isBlank ++ trimStart s = s :=
  List.takeWhile_append_dropWhile

theorem trimEnd_append_takeWhile (s : List Char) : trimEnd s ++ (s.reverse.takeWhile isBlank).reverse = s := by
  unfold trimEnd
  rw [← List.reverse_append, List.takeWhile_append_dropWhile, List.reverse_reverse]

@[simp] theorem trimEnd_trimEnd (s : List Char) : trimEnd (trimEnd s) = trimEnd s := by
  calc trimEnd (trimEnd s) = trimEnd (trimEnd s ++ (s.reverse.takeWhile isBlank).reverse) :=
        (trimEnd_append (allBlank_takeWhile _).reverse _).symm
    _ = trimEnd s := by rw [trimEnd_append_takeWhile]

/-- Blanks at the end may be taken off before a cut or after it. -/
theorem trimEnd_take_trimEnd (count : Nat) (s : List Char) :
    trimEnd ((trimEnd s).take count) = trimEnd (s.take count) := by
  have hblank : AllBlank ((s.reverse.takeWhile isBlank).reverse.take (count - (trimEnd s).length)) :=
    fun c hc => (allBlank_takeWhile _).reverse c (List.mem_of_mem_take hc)
  calc trimEnd ((trimEnd s).take count)
      = trimEnd ((trimEnd s ++ (s.reverse.takeWhile isBlank).reverse).take count) := by
        rw [List.take_append, trimEnd_append hblank]
    _ = trimEnd (s.take count) := by rw [trimEnd_append_takeWhile]

theorem trimStart_cons_of_blank {c : Char} (hc : isBlank c = true) (s : List Char) : trimStart (c :: s) = trimStart s :=
  List.dropWhile_cons_of_pos hc

theorem trimStart_cons_of_not_blank {c : Char} (hc : isBlank c = false) (s : List Char) :
    trimStart (c :: s) = c :: s :=
  List.dropWhile_cons_of_neg (by simpa using hc)

/-- The first character is taken off with the blanks at the end only if it is one of them. -/
theorem trimEnd_cons (c : Char) (s : List Char) :
    trimEnd (c :: s) = if (trimEnd s).isEmpty && isBlank c then [] else c :: trimEnd s := by
  unfold trimEnd
  rw [List.reverse_cons, List.dropWhile_append]
  cases h : s.reverse.dropWhile isBlank <;> cases hc : isBlank c <;> simp [hc]

theorem trimEnd_cons_of_not_blank {c : Char} (hc : isBlank c = false) (s : List Char) :
    trimEnd (c :: s) = c :: trimEnd s := by
  rw [trimEnd_cons, hc, Bool.and_false]
  rfl

/-- The order in which the ends are trimmed makes no difference. -/
theorem trimStart_trimEnd (s : List Char) : trimStart (trimEnd s) = trim s := by
  unfold trim
  induction s with
  | nil => rfl
  | cons c s ih =>
    cases hc : isBlank c with
    | false => rw [trimStart_cons_of_not_blank hc, trimEnd_cons_of_not_blank hc, trimStart_cons_of_not_blank hc]
    | true =>
      rw [trimStart_cons_of_blank hc, ← ih, trimEnd_cons, hc, Bool.and_true]
      split
      · next hempty => rw [List.isEmpty_iff.1 hempty]
      · exact trimStart_cons_of_blank hc _

/-- What stands behind a text without blanks is trimmed at its end only. -/
theorem trim_append {s : List Char} (hs : ∀ c ∈ s, isBlank c = false) (hne : s ≠ []) (t : List Char) :
    trim (s ++ t) = s ++ trimEnd t := by
  have hend : ∀ u : List Char, (∀ c ∈ u, isBlank c = false) → trimEnd (u ++ t) = u ++ trimEnd t := by
    intro u hu
    induction u with
    | nil => rfl
    | cons c u ih =>
      rw [List.cons_append, trimEnd_cons_of_not_blank (hu c List.mem_cons_self),
        ih fun d hd => hu d (List.mem_cons_of_mem c hd), List.cons_append]
  obtain ⟨c, u, rfl⟩ := List.exists_cons_of_ne_nil hne
  unfold trim
  rw [List.cons_append, trimStart_cons_of_not_blank (hs c List.mem_cons_self), ← List.cons_append, hend _ hs]

/-- All blanks around a text are taken off. -/
theorem trim_padded {before after : List Char} (hbefore : AllBlank before) (hafter : AllBlank after)
    (s : List Char) : trim (before ++ s ++ after) = trim s := by
  unfold trim
  rw [List.append_assoc, trimStart_append hbefore]
  by_cases hs : trimStart s = []
  · have hboth : trimStart (s ++ after) = [] := by
      unfold trimStart at hs ⊢
      rw [List.dropWhile_append, hs]
      exact trimStart_of_allBlank hafter
    rw [hboth, hs]
  · have hboth : trimStart (s ++ after) = trimStart s ++ after := by
      unfold trimStart at hs ⊢
      rw [List.dropWhile_append, if_neg (by simpa using hs)]
    rw [hboth, trimEnd_append hafter]

/-- Nothing but blanks is taken off. -/
theorem exists_padding (s : List Char) :
    ∃ before after, AllBlank before ∧ AllBlank after ∧ s = before ++ trim s ++ after := by
  refine ⟨s.takeWhile isBlank, ((trimStart s).reverse.takeWhile isBlank).reverse, allBlank_takeWhile s,
    (allBlank_takeWhile _).reverse, ?_⟩
  rw [List.append_assoc]
  unfold trim
  rw [trimEnd_append_takeWhile, takeWhile_append_trimStart]

@[simp] theorem trim_trim (s : List Char) : trim (trim s) = trim s := by
  obtain ⟨before, after, hbefore, hafter, hs⟩ := exists_padding s
  calc trim (trim s) = trim (before ++ trim s ++ after) := (trim_padded hbefore hafter _).symm
    _ = trim s := by rw [← hs]

/-- Whether no blank stands at the end of a text. -/
def EndBare (s : List Char) : Prop :=
  ∀ c ∈ s.getLast?, isBlank c = false

/-- Whether no blank stands at either end of a text. -/
structure Bare (s : List Char) : Prop where
  start : ∀ c ∈ s.head?, isBlank c = false
  endBare : EndBare s

instance (s : List Char) : Decidable (EndBare s) :=
  decidable_of_iff (s.getLast?.any isBlank = false) (Option.any_eq_false _ _)

instance (s : List Char) : Decidable (Bare s) :=
  decidable_of_iff (s.head?.any isBlank = false ∧ EndBare s)
    ⟨fun h => ⟨(Option.any_eq_false _ _).1 h.1, h.2⟩, fun h => ⟨(Option.any_eq_false _ _).2 h.start, h.endBare⟩⟩

theorem endBare_append_singleton {c : Char} (hc : isBlank c = false) (s : List Char) : EndBare (s ++ [c]) := by
  intro d hd
  rw [List.getLast?_concat, Option.mem_some_iff] at hd
  exact hd ▸ hc

theorem endBare_trimEnd (s : List Char) : EndBare (trimEnd s) := by
  intro c hc
  have hfirst := List.head?_dropWhile_not isBlank s.reverse
  unfold trimEnd at hc
  rw [List.getLast?_reverse, Option.mem_def] at hc
  rwa [hc] at hfirst

theorem bare_trim (s : List Char) : Bare (trim s) where
  start c hc := by
    have hfirst := List.head?_dropWhile_not isBlank (trimEnd s)
    rw [← trimStart_trimEnd, trimStart, Option.mem_def] at hc
    rwa [hc] at hfirst
  endBare := endBare_trimEnd _

theorem trimEnd_prefix (s : List Char) : trimEnd s <+: s :=
  ⟨_, trimEnd_append_takeWhile s⟩

end Flowchart.Text
