import Flowchart.Text.Blank
import Flowchart.Text.Caseless
import Flowchart.Text.Numeral

/-!
# Small letters

A text that begins with a word, the case of letters set aside, has a small form that begins with it
(`small_of_dropCaseless?`). Digits and blanks have no other form (`foldCase_of_isDigit`, `foldCase_of_isBlank`).
-/

namespace Flowchart.Text

/-- The small form of a text, letter by letter. -/
def small (s : List Char) : List Char :=
  s.map foldCase

/-- Whether the ranges of two classes have no code point in common. -/
def Apart (ranges ranges' : List (Nat × Nat)) : Prop :=
  ∀ range ∈ ranges, ∀ range' ∈ ranges', range.2 < range'.1 ∨ range'.2 < range.1

instance (ranges ranges' : List (Nat × Nat)) : Decidable (Apart ranges ranges') :=
  inferInstanceAs (Decidable (∀ range ∈ ranges, ∀ range' ∈ ranges', range.2 < range'.1 ∨ range'.2 < range.1))

theorem Apart.inRanges_eq_false {ranges ranges' : List (Nat × Nat)} (h : Apart ranges ranges') {c : Char}
    (hc : inRanges ranges c = true) : inRanges ranges' c = false := by
  obtain ⟨range, hrange, hin⟩ := List.any_eq_true.1 hc
  rw [inRanges, List.any_eq_false]
  intro range' hrange' hin'
  have hapart := h range hrange range' hrange'
  simp only [Bool.and_eq_true, decide_eq_true_eq] at hin hin'
  omega

/-- The digits of all scripts as a class of characters. -/
def digitRanges : List (Nat × Nat) :=
  zeroDigits.map fun least => (least, least + 9)

theorem inRanges_digitRanges (c : Char) : inRanges digitRanges c = isDigit c := by
  rw [inRanges, digitRanges, List.any_map, isDigit, digitValue?, Option.isSome_map, List.isSome_find?]
  congr 1
  funext least
  simp only [Function.comp_apply, Nat.lt_succ_iff]

/-- The digits of no script lie among the blanks. -/
theorem isDigit_of_isBlank {c : Char} (h : isBlank c = true) : isDigit c = false := by
  have hapart : Apart blankRanges digitRanges := by decide
  rw [← inRanges_digitRanges]
  exact hapart.inRanges_eq_false h

/-- The letters that have another small form, and a few signs between them. -/
def casedRanges : List (Nat × Nat) :=
  [(0x41, 0x5a), (0xc0, 0xde), (0x130, 0x131), (0x17f, 0x17f), (0x212a, 0x212b)]

theorem foldCase_of_not_cased {c : Char} (h : inRanges casedRanges c = false) : foldCase c = c := by
  have hne : ∀ d : Char, inRanges casedRanges d = true → c ≠ d := by
    rintro d hd rfl
    rw [h] at hd
    cases hd
  have hcode := h
  simp only [inRanges, casedRanges, List.any_cons, List.any_nil, Bool.or_eq_false_iff, Bool.and_eq_false_iff,
    decide_eq_false_iff_not] at hcode
  have hlower : c.toLower = c := by
    unfold Char.toLower
    rw [dif_neg]
    rintro ⟨hA, hZ⟩
    have hA' : 0x41 ≤ c.toNat := hA
    have hZ' : c.toNat ≤ 0x5a := hZ
    omega
  have hi : ¬(c = 'İ' ∨ c = 'ı') := by
    rintro (hc | hc)
    · exact hne 'İ' (by decide) hc
    · exact hne 'ı' (by decide) hc
  unfold foldCase
  rw [if_neg (by omega), if_neg (hne 'ſ' (by decide)), if_neg hi, if_neg (by omega), if_neg (by omega), hlower]

theorem foldCase_of_isDigit {c : Char} (h : isDigit c = true) : foldCase c = c := by
  have hapart : Apart digitRanges casedRanges := by decide
  rw [← inRanges_digitRanges] at h
  exact foldCase_of_not_cased (hapart.inRanges_eq_false h)

theorem foldCase_of_isBlank {c : Char} (h : isBlank c = true) : foldCase c = c := by
  have hapart : Apart blankRanges casedRanges := by decide
  exact foldCase_of_not_cased (hapart.inRanges_eq_false h)

/-- Where a word can be taken off, the small form of the text begins with it. -/
theorem small_of_dropCaseless? {word s rest : List Char} (h : dropCaseless? word s = some rest) :
    small s = word ++ small rest := by
  induction word generalizing s with
  | nil =>
    obtain rfl := Option.some.inj h
    rfl
  | cons w word ih =>
    cases s with
    | nil => cases h
    | cons c s =>
      simp only [dropCaseless?, Option.ite_none_right_eq_some] at h
      obtain ⟨rfl, h⟩ := h
      rw [List.cons_append, ← ih h]
      rfl

end Flowchart.Text
