import Flowchart.Payload.Node
import Flowchart.Proofs.Fault
import Flowchart.Proofs.Numeric.Finite

/-!
# Readings that fail

A payload that cannot be read has a wrong value in it, or a whole number that no double can hold. Where the latter
happens is told part by part (`FailsAt`): of two parts in a row the second one counts only if the first one could be
read (`FailsAt.bind`), and of a list only the first member that cannot be read (`failsAt_members`).
-/

namespace Flowchart

/-- A whole number that no double can hold. -/
def Value.IsHuge (v : Value) : Prop :=
  ∃ n, v = .whole n ∧ Double.ofInt n = .error .tooLarge

/-- The faults that say that a value is wrong. -/
inductive Fault.OfValue {α : Type} : Fault α → Prop
  | payload (cause : PayloadFault) : OfValue (.payload cause)
  | numberText : OfValue .numberText
  | unknownDirection (name : String) : OfValue (.unknownDirection name)
  | offsetOutside (offset : α) : OfValue (.offsetOutside offset)
  | sizeNotPositive (node : String) (width height : α) : OfValue (.sizeNotPositive node width height)

theorem Fault.OfValue.of_payload {β : Type} {cause : PayloadFault} {e : Fault Float}
    (h : (.error (.payload cause) : Except (Fault Float) β) = .error e) : e.OfValue := by
  obtain rfl := Except.error.inj h
  exact .payload cause

/-- A reading that fails because a value is wrong, or else because a whole number is too large for a double. The latter
happens exactly in the case `huge`. -/
structure FailsAt {β : Type} (x : Except (Fault Float) β) (huge : Prop) : Prop where
  of_error : ∀ e, x = .error e → e.OfValue ∨ e = .number .tooLarge
  overflows_iff : x = .error (.number .tooLarge) ↔ huge

namespace FailsAt

variable {β γ : Type} {x : Except (Fault Float) β} {p : Prop}

theorem congr {q : Prop} (h : FailsAt x p) (hpq : p ↔ q) : FailsAt x q :=
  ⟨h.of_error, h.overflows_iff.trans hpq⟩

/-- A check that only looks for wrong values. -/
theorem of_check (h : ∀ e, x = .error e → e.OfValue) : FailsAt x False where
  of_error e he := .inl (h e he)
  overflows_iff := iff_false_intro fun he => nomatch h _ he

theorem of_ok (b : β) : FailsAt (.ok b) False :=
  of_check fun _ he => nomatch he

theorem of_payload {cause : PayloadFault} (hx : x = .error (.payload cause)) (hp : ¬ p) : FailsAt x p := by
  refine (of_check fun e he => ?_).congr (iff_of_false not_false hp)
  exact .of_payload (hx.symm.trans he)

theorem bind {f : β → Except (Fault Float) γ} {q : β → Prop} (hx : FailsAt x p)
    (hf : ∀ b, x = .ok b → FailsAt (f b) (q b)) : FailsAt (x >>= f) (p ∨ ∃ b, x = .ok b ∧ q b) where
  of_error e he := by
    rcases bind_eq_error.1 he with he | ⟨b, hb, he⟩
    · exact hx.of_error e he
    · exact (hf b hb).of_error e he
  overflows_iff := by
    rw [bind_eq_error]
    refine or_congr hx.overflows_iff (exists_congr fun b => and_congr_right fun hb => ?_)
    exact (hf b hb).overflows_iff

theorem bind_check {f : β → Except (Fault Float) γ} {q : β → Prop} (hx : ∀ e, x = .error e → e.OfValue)
    (hf : ∀ b, x = .ok b → FailsAt (f b) (q b)) : FailsAt (x >>= f) (∃ b, x = .ok b ∧ q b) :=
  ((of_check hx).bind hf).congr (Iff.of_eq (false_or _))

theorem mapM {f : γ → Except (Fault Float) β} {xs : List γ} {q : γ → Prop} (hf : ∀ y ∈ xs, FailsAt (f y) (q y)) :
    FailsAt (xs.mapM f) (∃ before y after, xs = before ++ y :: after ∧ (∀ z ∈ before, ∃ b, f z = .ok b) ∧ q y) where
  of_error e he := by
    obtain ⟨y, hy, he⟩ := exists_of_mapM_eq_error he
    exact (hf y hy).of_error e he
  overflows_iff := by
    rw [mapM_eq_error]
    refine exists_congr fun before => exists_congr fun y => exists_congr fun after => ?_
    refine and_congr_right fun hxs => and_congr_right fun _ => (hf y ?_).overflows_iff
    rw [hxs]
    exact List.mem_append_right before List.mem_cons_self

end FailsAt

theorem Double.ofInt_eq_error {n : Int} {cause : NumberFault} (h : Double.ofInt n = .error cause) :
    cause = .tooLarge := by
  simp only [Double.ofInt] at h
  split at h
  · exact (Except.error.inj h).symm
  · cases h

theorem Value.toDouble_eq_tooLarge {v : Value} : v.toDouble = .error .tooLarge ↔ v.IsHuge := by
  unfold IsHuge
  cases v with
  | whole n =>
    cases hn : Double.ofInt n with
    | ok x => simp [toDouble, hn]
    | error cause =>
      obtain rfl := Double.ofInt_eq_error hn
      simp [toDouble, hn]
  | text s =>
    simp only [toDouble]
    split <;> simp
  | null => simp [toDouble]
  | bool b => simp [toDouble]
  | decimal x => simp [toDouble]
  | array items => simp [toDouble]
  | object fields => simp [toDouble]

theorem Value.isNumber_iff {v : Value} : v.isNumber = true ↔ (∃ n, v = .whole n) ∨ ∃ x, v = .decimal x := by
  cases v <;> simp [isNumber]

namespace Payload

theorem numberOf_eq_error {v : Value} {e : Fault Float} (h : numberOf v = .error e) : e = .number .tooLarge := by
  unfold numberOf at h
  split at h
  · cases h
  · exact (Except.error.inj h).symm

theorem numberOf_of_not_isHuge {v : Value} (hnumber : v.isNumber = true) (h : ¬ v.IsHuge) :
    ∃ x, numberOf v = .ok x := by
  rw [← Value.toDouble_eq_tooLarge] at h
  rcases Value.isNumber_iff.1 hnumber with ⟨n, rfl⟩ | ⟨x, rfl⟩
  · cases hn : Double.ofInt n with
    | ok x => exact ⟨x, by simp [numberOf, Value.toDouble, hn]⟩
    | error cause => exact absurd (by simp [Value.toDouble, hn]) h
  · exact ⟨x, rfl⟩

theorem numberOf_of_isHuge {v : Value} (h : v.IsHuge) : numberOf v = .error (.number .tooLarge) := by
  unfold numberOf
  rw [Value.toDouble_eq_tooLarge.2 h]

/-- Only a decimal can be no number. -/
theorem isNaN_of_numberOf {v : Value} {x : Float} (hnumber : v.isNumber = true) (h : numberOf v = .ok x) :
    x.isNaN = false ∨ v = .decimal x := by
  rcases Value.isNumber_iff.1 hnumber with ⟨n, rfl⟩ | ⟨y, rfl⟩
  · cases hn : Double.ofInt n with
    | ok y =>
      simp only [numberOf, Value.toDouble, hn] at h
      obtain rfl := Except.ok.inj h
      exact .inl (Double.isNaN_of_ofInt hn)
    | error cause =>
      simp only [numberOf, Value.toDouble, hn] at h
      cases h
  · exact .inr (congrArg _ (Except.ok.inj h))

/-- A number that is used as a double. -/
theorem failsAt_bind_numberOf {β : Type} {v : Value} (hnumber : v.isNumber = true)
    {f : Float → Except (Fault Float) β} {q : Prop} (hf : ∀ x, FailsAt (f x) q) :
    FailsAt (numberOf v >>= f) (v.IsHuge ∨ q) := by
  have hv : FailsAt (numberOf v) v.IsHuge := by
    refine ⟨fun e he => .inr (numberOf_eq_error he), fun he => ?_, numberOf_of_isHuge⟩
    by_contra hhuge
    obtain ⟨x, hx⟩ := numberOf_of_not_isHuge hnumber hhuge
    rw [hx] at he
    cases he
  refine (hv.bind fun x _ => hf x).congr ⟨?_, ?_⟩
  · rintro (hhuge | ⟨_, _, hq⟩)
    · exact .inl hhuge
    · exact .inr hq
  · rintro (hhuge | hq)
    · exact .inl hhuge
    · by_cases hhuge : v.IsHuge
      · exact .inl hhuge
      · obtain ⟨x, hx⟩ := numberOf_of_not_isHuge hnumber hhuge
        exact .inr ⟨x, hx, hq⟩

/-- A list whose first member that cannot be read fails on a number that is too large. -/
inductive OverflowsFirst {β : Type} (read : Value → Except (Fault Float) β) (huge : Value → Prop) : Value → Prop
  | member {before after : List Value} {v : Value} : (∀ w ∈ before, ∃ b, read w = .ok b) → huge v →
      OverflowsFirst read huge (.array (before ++ v :: after))

/-- Only the members of a list are objects. -/
theorem eq_array_of_object_mem {v : Value} {items : List Value} (hitems : v.members? = some items) {fields : Fields}
    (hmem : .object fields ∈ items) : v = .array items := by
  cases v with
  | array items' => exact congrArg _ (Option.some.inj hitems)
  | object fields' =>
    obtain rfl := Option.some.inj hitems
    simp at hmem
  | text s =>
    obtain rfl := Option.some.inj hitems
    simp at hmem
  | _ =>
    -- any other value has no members, if it can be gone through at all
    simp only [Value.members?] at hitems
    split at hitems
    · cases hitems
    · obtain rfl := Option.some.inj hitems
      cases hmem

theorem failsAt_members {β : Type} {read : Value → Except (Fault Float) β} {huge : Value → Prop}
    (hread : ∀ v, FailsAt (read v) (huge v)) (hobject : ∀ v, huge v → ∃ fields, v = .object fields) {v : Value}
    {items : List Value} (hitems : v.members? = some items) :
    FailsAt (items.mapM read) (OverflowsFirst read huge v) := by
  refine (FailsAt.mapM fun y _ => hread y).congr ⟨?_, ?_⟩
  · rintro ⟨before, y, after, rfl, hbefore, hy⟩
    obtain ⟨fields, rfl⟩ := hobject y hy
    rw [eq_array_of_object_mem hitems (List.mem_append_right before List.mem_cons_self)]
    exact .member hbefore hy
  · rintro ⟨hbefore, hy⟩
    obtain rfl := Option.some.inj hitems
    exact ⟨_, _, _, rfl, hbefore, hy⟩

end Payload

end Flowchart
