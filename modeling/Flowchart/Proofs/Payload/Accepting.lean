import Flowchart.Proofs.Connection.Drawn
import Flowchart.Proofs.Payload.Failure

/-!
# Payloads that are accepted as connections

Which payloads describe a connection is said field by field (`Describes`), and a payload is accepted if and only if it
does, where a variant or a list of points counts as absent if it is not given (`connection_accepted_iff`). This is more
than absent or null: false, zero and everything empty are not given either, so such a value is accepted in the place of
a variant or of the points, although it is neither.
-/

namespace Flowchart.Payload

/-- What has to be in the fields of a payload for a connection, where `absent` tells which values of the variant and of
the points stand for none. -/
structure Describes (absent : Value → Prop) (fields : Fields) : Prop where
  source : ∃ s, eitherField fields "fromNodeId" "from_node_id" = .text s
  target : ∃ s, eitherField fields "toNodeId" "to_node_id" = .text s
  label : fieldOr .null fields "label" = .null ∨ ∃ s, fieldOr .null fields "label" = .text s
  variant : absent (fieldOr .null fields "variant") ∨
    ∃ variant : Variant, fieldOr .null fields "variant" = .text (Vocabulary.name variant)
  points : absent (fieldOr .null fields "points") ∨
    ∃ items, fieldOr .null fields "points" = .array items ∧ items.length ≠ 1 ∧ ∀ item ∈ items, ∃ p, GivesPoint item p

/-- A value that does not count as given: null, false, zero or something empty. -/
def NotGiven (v : Value) : Prop :=
  v.isGiven = false

/-- A value that does not count as given although there is one. -/
def IsHollow (v : Value) : Prop :=
  NotGiven v ∧ v ≠ .null

theorem notGiven_text {t : String} : NotGiven (.text t) ↔ t = "" := by
  simp [NotGiven, Value.isGiven]

theorem notGiven_array {items : List Value} : NotGiven (.array items) ↔ items = [] := by
  simp [NotGiven, Value.isGiven]

theorem notGiven_object {fields : Fields} : NotGiven (.object fields) ↔ fields = [] := by
  simp [NotGiven, Value.isGiven]

theorem notGiven_iff {v : Value} : NotGiven v ↔ v = .null ∨ IsHollow v := by
  unfold IsHollow
  constructor
  · intro h
    by_cases hnull : v = .null
    · exact .inl hnull
    · exact .inr ⟨h, hnull⟩
  · rintro (rfl | ⟨h, -⟩)
    · rfl
    · exact h

section Checks

variable {e : Ends} {fields : Fields} {v : Value}

theorem endsOf_eq_ok : endsOf fields = .ok e ↔
    eitherField fields "fromNodeId" "from_node_id" = .text e.source ∧
      eitherField fields "toNodeId" "to_node_id" = .text e.target := by
  have htext : ∀ {w : Value} {s : String}, w.text? = some s ↔ w = .text s := by
    intro w s
    cases w <;> simp [Value.text?]
  rw [← htext, ← htext]
  unfold endsOf
  split
  · next source target hsource htarget =>
    rw [hsource, htarget, Option.some.injEq, Option.some.injEq]
    constructor
    · intro h
      obtain rfl := Except.ok.inj h
      exact ⟨rfl, rfl⟩
    · rintro ⟨rfl, rfl⟩
      rfl
  · next hnone => exact iff_of_false nofun fun h => hnone _ _ h.1 h.2

theorem labelOf_accepts_iff : (∃ label, labelOf e v = .ok label) ↔ v = .null ∨ ∃ s, v = .text s := by
  cases v <;> simp [labelOf]

/-- A variant is found under its name only. -/
theorem find?_eq_some_iff {s : String} {variant : Variant} :
    Vocabulary.find? s = some variant ↔ s = Vocabulary.name variant := by
  constructor
  · exact fun h => (Vocabulary.name_of_find? h).symm
  · rintro rfl
    cases variant <;> rfl

theorem variantOf_accepts_iff {label : Option String} : (∃ variant, variantOf e label v = .ok variant) ↔
    NotGiven v ∨ ∃ variant : Variant, v = .text (Vocabulary.name variant) := by
  have hknown : ∀ {variant : Variant},
      (v.text?.bind Vocabulary.find? : Option Variant) = some variant ↔ v = .text (Vocabulary.name variant) := by
    intro variant
    cases v <;> simp [Value.text?, find?_eq_some_iff]
  unfold variantOf NotGiven
  cases hgiven : v.isGiven with
  | false => exact iff_of_true ⟨_, rfl⟩ (.inl rfl)
  | true =>
    simp only [← hknown]
    cases (v.text?.bind Vocabulary.find? : Option Variant) <;> simp

theorem coordinateOf_eq_ok {key : String} {x : Float} :
    coordinateOf e fields key = .ok x ↔ ∃ w, lookupField? fields key = some w ∧ w.toDouble = .ok x := by
  constructor
  · intro h
    unfold coordinateOf at h
    cases hw : lookupField? fields key with
    | none => simp [hw] at h
    | some w =>
      refine ⟨w, rfl, ?_⟩
      cases hx : w.toDouble with
      | ok y => simpa [hw, hx] using h
      | error cause => cases cause <;> simp [hw, hx] at h
  · rintro ⟨w, hw, hx⟩
    exact coordinateOf_of_toDouble hw hx

theorem pointOf_eq_ok {p : Point Float} : pointOf e v = .ok p ↔ GivesPoint v p := by
  refine ⟨fun h => ?_, pointOf_of_givesPoint⟩
  cases v with
  | object fields =>
    obtain ⟨x, hx, h⟩ := bind_eq_ok.1 h
    obtain ⟨y, hy, h⟩ := bind_eq_ok.1 h
    obtain rfl := Except.ok.inj h
    obtain ⟨w, hw, hwx⟩ := coordinateOf_eq_ok.1 hx
    obtain ⟨w', hw', hwy⟩ := coordinateOf_eq_ok.1 hy
    exact ⟨fields, w, w', rfl, hw, hwx, hw', hwy⟩
  | _ => cases h

theorem pointsOf_accepts_of_members {items : List Value} (hitems : v.members? = some items) :
    (∃ points, pointsOf e v = .ok points) ↔ items.length ≠ 1 ∧ ∀ item ∈ items, ∃ p, GivesPoint item p := by
  unfold pointsOf
  rw [hitems]
  simp only [bind_eq_ok, ← pointOf_eq_ok (e := e)]
  constructor
  · rintro ⟨points, points', hread, h⟩
    split at h
    · cases h
    · next hlength =>
      refine ⟨(mapM_eq_ok.1 hread).length_eq ▸ hlength, fun item hitem => ?_⟩
      obtain ⟨p, -, hp⟩ := exists_of_mapM_eq_ok hread hitem
      exact ⟨p, hp⟩
  · rintro ⟨hlength, hall⟩
    obtain ⟨points, hread⟩ := exists_mapM_eq_ok hall
    exact ⟨points, points, hread, if_neg ((mapM_eq_ok.1 hread).length_eq ▸ hlength)⟩

theorem members?_of_notGiven (h : NotGiven v) : v.members? = some [] := by
  cases v with
  | text t =>
    obtain rfl := notGiven_text.1 h
    rfl
  | array items =>
    obtain rfl := notGiven_array.1 h
    rfl
  | object fields =>
    obtain rfl := notGiven_object.1 h
    rfl
  | _ =>
    have hnone : Value.isGiven _ = false := h
    simp [Value.members?, hnone]

/-- The letters of a text and the keys of an object are no points. -/
theorem pointsOf_accepts_iff : (∃ points, pointsOf e v = .ok points) ↔
    NotGiven v ∨ ∃ items, v = .array items ∧ items.length ≠ 1 ∧ ∀ item ∈ items, ∃ p, GivesPoint item p := by
  constructor
  · intro haccepted
    by_contra hnone
    obtain ⟨hgiven, hnoarray⟩ := not_or.1 hnone
    have htexts : ∀ ts : List String, v.members? = some (ts.map .text) → ts = [] := by
      intro ts hts
      obtain ⟨-, hall⟩ := (pointsOf_accepts_of_members hts).1 haccepted
      refine List.eq_nil_iff_forall_not_mem.2 fun t ht => ?_
      obtain ⟨p, fields, _, _, hfields, -⟩ := hall _ (List.mem_map_of_mem ht)
      cases hfields
    cases v with
    | array items => exact hnoarray ⟨items, rfl, (pointsOf_accepts_of_members rfl).1 haccepted⟩
    | object fields =>
      have hkeys := htexts (fields.map (·.1)) (by simp [Value.members?, Function.comp_def])
      exact hgiven (notGiven_object.2 (List.map_eq_nil_iff.1 hkeys))
    | text t =>
      have hletters := htexts (t.toList.map fun c => String.ofList [c]) (by simp [Value.members?, Function.comp_def])
      exact hgiven (notGiven_text.2 (String.toList_eq_nil_iff.1 (List.map_eq_nil_iff.1 hletters)))
    | _ =>
      -- any other value that is given has no members
      obtain ⟨points, hpoints⟩ := haccepted
      simp [pointsOf, Value.members?, Bool.eq_true_of_not_eq_false hgiven] at hpoints
  · rintro (hnone | ⟨items, rfl, hitems⟩)
    · exact (pointsOf_accepts_of_members (members?_of_notGiven hnone)).2 (by simp)
    · exact (pointsOf_accepts_of_members rfl).2 hitems

end Checks

/-! ### Connections -/

theorem connection_accepts_iff (fields : Fields) :
    (∃ c, connection (.object fields) = .ok c) ↔ Describes NotGiven fields := by
  constructor
  · rintro ⟨c, h⟩
    obtain ⟨e, hends, h⟩ := bind_eq_ok.1 h
    obtain ⟨label, hlabel, h⟩ := bind_eq_ok.1 h
    obtain ⟨variant, hvariant, h⟩ := bind_eq_ok.1 h
    obtain ⟨points, hpoints, -⟩ := bind_eq_ok.1 h
    obtain ⟨hsource, htarget⟩ := endsOf_eq_ok.1 hends
    exact ⟨⟨_, hsource⟩, ⟨_, htarget⟩, labelOf_accepts_iff.1 ⟨_, hlabel⟩, variantOf_accepts_iff.1 ⟨_, hvariant⟩,
      pointsOf_accepts_iff.1 ⟨_, hpoints⟩⟩
  · rintro ⟨⟨source, hsource⟩, ⟨target, htarget⟩, hlabel, hvariant, hpoints⟩
    have hends : endsOf fields = .ok ⟨source, target⟩ := endsOf_eq_ok.2 ⟨hsource, htarget⟩
    obtain ⟨label, hlabel⟩ := labelOf_accepts_iff.2 hlabel
    obtain ⟨variant, hvariant⟩ := variantOf_accepts_iff.2 hvariant
    obtain ⟨points, hpoints⟩ := pointsOf_accepts_iff.2 hpoints
    exact ⟨_, bind_eq_ok.2 ⟨_, hends, bind_eq_ok.2 ⟨_, hlabel, bind_eq_ok.2 ⟨_, hvariant,
      bind_eq_ok.2 ⟨_, hpoints, rfl⟩⟩⟩⟩⟩

/-- Something hollow in the place of the variant, or of the points, other than an empty list of points. -/
def IsMisfilled (fields : Fields) : Prop :=
  IsHollow (fieldOr .null fields "variant") ∨
    IsHollow (fieldOr .null fields "points") ∧ fieldOr .null fields "points" ≠ .array []

theorem Describes.mono {absent absent' : Value → Prop} {fields : Fields} (h : Describes absent fields)
    (habsent : ∀ v, absent v → absent' v) : Describes absent' fields where
  source := h.source
  target := h.target
  label := h.label
  variant := h.variant.imp_left (habsent _)
  points := h.points.imp_left (habsent _)

theorem not_isHollow_null : ¬ IsHollow .null :=
  fun h => h.2 rfl

theorem not_isHollow_name (variant : Variant) : ¬ IsHollow (.text (Vocabulary.name variant)) := by
  rintro ⟨hnone, -⟩
  cases variant <;> cases hnone

/-- What is not given is absent or null, or it is hollow; only an empty list is both hollow and a list of points. -/
theorem describes_null_iff (fields : Fields) :
    Describes (· = .null) fields ↔ Describes NotGiven fields ∧ ¬ IsMisfilled fields := by
  constructor
  · intro h
    refine ⟨h.mono fun v hv => hv ▸ notGiven_iff.2 (.inl rfl), ?_⟩
    rintro (hvariant | ⟨hpoints, hne⟩)
    · rcases h.variant with hnull | ⟨variant, hname⟩
      · exact not_isHollow_null (hnull ▸ hvariant)
      · exact not_isHollow_name variant (hname ▸ hvariant)
    · rcases h.points with hnull | ⟨items, hitems, -⟩
      · exact not_isHollow_null (hnull ▸ hpoints)
      · rw [hitems] at hpoints hne
        exact hne (congrArg _ (notGiven_array.1 hpoints.1))
  · rintro ⟨h, hfilled⟩
    obtain ⟨hvariant, hpoints⟩ := not_or.1 hfilled
    refine ⟨h.source, h.target, h.label, ?_, ?_⟩
    · refine h.variant.imp_left fun hnone => ?_
      exact (notGiven_iff.1 hnone).resolve_right hvariant
    · rcases h.points with hnone | hitems
      · rcases notGiven_iff.1 hnone with hnull | hhollow
        · exact .inl hnull
        · have hempty : fieldOr .null fields "points" = .array [] := by
            by_contra hne
            exact hpoints ⟨hhollow, hne⟩
          exact .inr ⟨[], hempty, by decide, by simp⟩
      · exact .inr hitems

/-- A payload is accepted if and only if its fields are right, where a variant and points that are not given count as
absent. The payloads whose fields are right in the stricter sense, in which only what is absent or null may be missing,
are the accepted ones that have nothing hollow in the place of these two. -/
theorem connection_accepted_iff (fields : Fields) :
    ((∃ c, connection (.object fields) = .ok c) ↔ Describes NotGiven fields) ∧
      (Describes (· = .null) fields ↔ (∃ c, connection (.object fields) = .ok c) ∧ ¬ IsMisfilled fields) := by
  have haccepts := connection_accepts_iff fields
  refine ⟨haccepts, ?_⟩
  rw [haccepts]
  exact describes_null_iff fields

/-- Zero is accepted as a variant and an empty text as points, and neither is absent or null. -/
theorem hollow_fields_accepted :
    ∃ (fields : Fields) (c : Connection Float),
      fields = [("fromNodeId", .text "a"), ("toNodeId", .text "b"), ("variant", .whole 0), ("points", .text "")] ∧
      connection (.object fields) = .ok c ∧
      c = { Connection.between "conn-a-to-b" "a" "b" with variant := some (.known .neutral) } ∧
      ¬ Describes (· = .null) fields := by
  refine ⟨_, _, rfl, by decide +kernel, rfl, fun h => ?_⟩
  rcases h.variant with hnull | ⟨variant, hname⟩
  · cases hnull
  · cases hname

end Flowchart.Payload
