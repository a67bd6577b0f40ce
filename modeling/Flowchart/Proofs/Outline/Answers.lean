import Flowchart.Proofs.Outline.Lines

/-!
# Answers and the chain

An answer belongs to the innermost decision that is open at its line (`attachment?`). The node lines that are
attached to no decision follow one another in the chain; an answer that finds no decision open is one of them
(`previous?`). Both depend on the lines up to the place in question only.
-/

namespace Flowchart.Outline

/-- What a node line answers, and the place of the decision that it is attached to. -/
def attachment? (ns : List Content) (i : Nat) : Option (Answer × Nat) :=
  (ns[i]?.bind Content.answer?).bind fun a =>
    (Nesting.innermost? (ns.map Content.branching) i).map fun j => (a, j)

/-- The last place before another one at which a node line is attached to no decision. -/
def previous? (ns : List Content) (i : Nat) : Option Nat :=
  (List.range i).reverse.find? fun j => (attachment? ns j).isNone

/-- The first node line is attached to nothing. -/
theorem attachment?_zero (ns : List Content) : attachment? ns 0 = none := by
  unfold attachment?
  rw [show Nesting.innermost? (ns.map Content.branching) 0 = none from rfl]
  cases ns[0]?.bind Content.answer? <;> rfl

theorem attachment?_concat_of_lt (ns : List Content) (c : Content) {i : Nat} (hi : i < ns.length) :
    attachment? (ns ++ [c]) i = attachment? ns i := by
  unfold attachment?
  rw [List.getElem?_append_left hi, List.map_append, Nesting.innermost?_append _ (by simpa using Nat.le_of_lt hi)]

/-- The last line is attached to the top of the stack. -/
theorem attachment?_concat_length (ns : List Content) (c : Content) :
    attachment? (ns ++ [c]) ns.length =
      c.answer?.bind fun a => (Nesting.openAfter (ns.map Content.branching)).head?.map fun j => (a, j) := by
  unfold attachment?
  rw [List.map_append, Nesting.innermost?_append _ (by simp), Nesting.head?_openAfter, List.length_map,
    List.getElem?_concat_length]
  rfl

/-- A decision is attached to nothing. -/
theorem attachment?_of_attachment? {ns : List Content} {i j : Nat} {a : Answer}
    (h : attachment? ns i = some (a, j)) : attachment? ns j = none := by
  obtain ⟨a', -, h⟩ := Option.bind_eq_some_iff.1 h
  obtain ⟨j', hj, h⟩ := Option.map_eq_some_iff.1 h
  obtain ⟨rfl, rfl⟩ := Prod.mk.inj h
  have hc := (Nesting.isOpen_of_innermost? hj).2.1
  rw [List.getElem?_map] at hc
  obtain ⟨c, hc, hopens⟩ := Option.map_eq_some_iff.1 hc
  have hanswer : c.answer? = none := by
    cases c with
    | answer a text => cases hopens
    | _ => rfl
  unfold attachment?
  rw [hc, Option.bind_some, hanswer, Option.bind_none]

theorem previous?_succ (ns : List Content) (i : Nat) :
    previous? ns (i + 1) = if (attachment? ns i).isNone then some i else previous? ns i := by
  unfold previous?
  rw [List.range_succ, List.reverse_append, List.reverse_singleton, List.singleton_append, List.find?_cons]
  cases attachment? ns i <;> rfl

theorem previous?_concat_of_le (ns : List Content) (c : Content) {i : Nat} (hi : i ≤ ns.length) :
    previous? (ns ++ [c]) i = previous? ns i := by
  induction i with
  | zero => rfl
  | succ i ih => rw [previous?_succ, previous?_succ, attachment?_concat_of_lt ns c hi, ih (Nat.le_of_lt hi)]

theorem attachment?_of_previous? {ns : List Content} {i j : Nat} (h : previous? ns i = some j) :
    attachment? ns j = none := by
  simpa using List.find?_some h

end Flowchart.Outline
