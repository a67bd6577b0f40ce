import Flowchart.Payload.Connection
import Flowchart.Proofs.Payload.Node

/-!
# What payloads are read as

What is read from a payload is well formed, and a payload that cannot be read has a wrong value in it, with one
exception: a whole number that no double can hold is not reported as a wrong value where a double is asked for. The
payloads that fail so are those that pass all checks up to such a number (`reading_answers`).
-/

namespace Flowchart.Payload

section Connections

variable {e : Ends}

/-- A point with a coordinate that is too large for a double. -/
inductive PointOverflows (e : Ends) : Value → Prop
  | first {fields : Fields} {v : Value} : lookupField? fields "x" = some v → v.IsHuge →
      PointOverflows e (.object fields)
  | second {fields : Fields} {x : Float} {v : Value} : coordinateOf e fields "x" = .ok x →
      lookupField? fields "y" = some v → v.IsHuge → PointOverflows e (.object fields)

/-- A connection payload that passes its checks, with a coordinate that is too large for a double in the first of its
points that cannot be read. -/
inductive ConnectionOverflows : Value → Prop
  | point {fields : Fields} {e : Ends} {label : Option String} {variant : Variant} : endsOf fields = .ok e →
      labelOf e (fieldOr .null fields "label") = .ok label →
      variantOf e label (fieldOr .null fields "variant") = .ok variant →
      OverflowsFirst (pointOf e) (PointOverflows e) (fieldOr .null fields "points") →
      ConnectionOverflows (.object fields)

theorem check_endsOf {fields : Fields} {e : Fault Float} (h : endsOf fields = .error e) : e.OfValue := by
  unfold endsOf at h
  split at h
  · cases h
  · exact .of_payload h

theorem check_labelOf {v : Value} {f : Fault Float} (h : labelOf e v = .error f) : f.OfValue := by
  unfold labelOf at h
  split at h
  · cases h
  · cases h
  · exact .of_payload h

theorem check_variantOf {label : Option String} {v : Value} {f : Fault Float} (h : variantOf e label v = .error f) :
    f.OfValue := by
  unfold variantOf at h
  split at h
  · split at h
    · cases h
    · exact .of_payload h
  · cases h

theorem failsAt_coordinateOf (fields : Fields) (key : String) :
    FailsAt (coordinateOf e fields key) (∃ v, lookupField? fields key = some v ∧ v.IsHuge) where
  of_error f hf := by
    unfold coordinateOf at hf
    split at hf
    · cases hf
    · exact .inr (Except.error.inj hf).symm
    · exact .inl (.of_payload hf)
  overflows_iff := by
    simp only [← Value.toDouble_eq_tooLarge]
    unfold coordinateOf
    cases lookupField? fields key with
    | none => simp
    | some v =>
      cases hv : v.toDouble with
      | ok x => simp [hv]
      | error cause => cases cause <;> simp [hv]

theorem failsAt_pointOf (v : Value) : FailsAt (pointOf e v) (PointOverflows e v) := by
  cases v with
  | object fields =>
    refine ((failsAt_coordinateOf fields "x").bind fun x _ => (failsAt_coordinateOf fields "y").bind fun y _ =>
      FailsAt.of_ok _).congr ⟨?_, ?_⟩
    · rintro (⟨v, hv, hhuge⟩ | ⟨x, hx, ⟨v, hv, hhuge⟩ | ⟨_, _, hnone⟩⟩)
      · exact .first hv hhuge
      · exact .second hx hv hhuge
      · exact hnone.elim
    · intro h
      cases h with
      | first hv hhuge => exact .inl ⟨_, hv, hhuge⟩
      | second hx hv hhuge => exact .inr ⟨_, hx, .inl ⟨_, hv, hhuge⟩⟩
  | _ => exact .of_payload rfl nofun

theorem failsAt_pointsOf (v : Value) : FailsAt (pointsOf e v) (OverflowsFirst (pointOf e) (PointOverflows e) v) := by
  unfold pointsOf
  split
  · next hnone =>
    refine .of_payload rfl fun h => ?_
    cases h
    cases hnone
  · next items hitems =>
    have hpoints : FailsAt (items.mapM (pointOf e)) (OverflowsFirst (pointOf e) (PointOverflows e) v) := by
      refine failsAt_members failsAt_pointOf (fun w hw => ?_) hitems
      cases hw <;> exact ⟨_, rfl⟩
    have hcount : ∀ points : List (Point Float), FailsAt (if points.length = 1 then
        .error (.payload (.connectionLonePoint e.source e.target)) else .ok points) False := by
      intro points
      split
      · exact .of_payload rfl not_false
      · exact .of_ok points
    refine (hpoints.bind fun points _ => hcount points).congr (or_iff_left ?_)
    rintro ⟨_, _, hnone⟩
    exact hnone

theorem failsAt_connectionOfFields (fields : Fields) :
    FailsAt (connectionOfFields fields) (ConnectionOverflows (.object fields)) := by
  refine (FailsAt.bind_check (fun _ => check_endsOf) fun e _ =>
    FailsAt.bind_check (fun _ => check_labelOf) fun label _ =>
    FailsAt.bind_check (fun _ => check_variantOf) fun variant _ =>
    (failsAt_pointsOf _).bind fun points _ => FailsAt.of_ok _).congr ⟨?_, ?_⟩
  · rintro ⟨e, hends, label, hlabel, variant, hvariant, hfirst | ⟨_, _, hnone⟩⟩
    · exact .point hends hlabel hvariant hfirst
    · exact hnone.elim
  · rintro ⟨hends, hlabel, hvariant, hfirst⟩
    exact ⟨_, hends, _, hlabel, _, hvariant, .inl hfirst⟩

/-- A connection that is read from a payload has a known variant, and only a drawn one has points of its own. -/
theorem connectionOfFields_eq_ok {fields : Fields} {c : Connection Float} (h : connectionOfFields fields = .ok c) :
    (∃ variant, c.variant = some (.known variant)) ∧ (c.custom = false → c.waypoints = []) := by
  obtain ⟨e, -, h⟩ := bind_eq_ok.1 h
  obtain ⟨label, -, h⟩ := bind_eq_ok.1 h
  obtain ⟨variant, -, h⟩ := bind_eq_ok.1 h
  obtain ⟨points, -, h⟩ := bind_eq_ok.1 h
  obtain rfl := Except.ok.inj h
  refine ⟨⟨variant, rfl⟩, fun hcustom => ?_⟩
  have hempty : points = [] := by simpa using hcustom
  rw [hempty]
  rfl

end Connections

theorem failsAt_node (v : Value) : FailsAt (node v) (NodeOverflows v) := by
  cases v with
  | object fields => exact failsAt_nodeOfFields fields
  | _ => exact .of_payload rfl nofun

theorem failsAt_connection (v : Value) : FailsAt (connection v) (ConnectionOverflows v) := by
  cases v with
  | object fields => exact failsAt_connectionOfFields fields
  | _ => exact .of_payload rfl nofun

/-- What is read as a node has a known kind, at least one hook, its hooks on its sides, and a positive size unless the
payload gives no number for it. What is read as a connection has a known variant, and no points of its own unless it is
drawn. Anything else fails because a value is wrong, or, exactly for the payloads that are told here, because a whole
number is too large for a double. -/
theorem reading_answers (v : Value) :
    (∀ n, node v = .ok n → (∃ kind, n.kind = .known kind) ∧ n.hooks ≠ [] ∧
      (∀ h ∈ n.hooks, 0 ≤ h.offset ∧ h.offset ≤ 1) ∧
      (0 < n.rect.width ∨ GivesNaN v "width") ∧ (0 < n.rect.height ∨ GivesNaN v "height")) ∧
    FailsAt (node v) (NodeOverflows v) ∧
    (∀ c, connection v = .ok c →
      (∃ variant, c.variant = some (.known variant)) ∧ (c.custom = false → c.waypoints = [])) ∧
    FailsAt (connection v) (ConnectionOverflows v) := by
  refine ⟨fun n hn => ?_, failsAt_node v, fun c hc => ?_, failsAt_connection v⟩
  · cases v with
    | object fields =>
      obtain ⟨hsound, hkind, hwidth, hheight⟩ := sound_of_nodeOfFields hn
      have hoffsets : ∀ h ∈ n.hooks, 0 ≤ h.offset ∧ h.offset ≤ 1 := fun h hh =>
        (Hook.make_known_eq_ok.1 (hsound.hooks h hh)).1
      exact ⟨hkind, (Node.make_eq_self.1 hsound.make_eq).2, hoffsets, hwidth, hheight⟩
    | _ => cases hn
  · cases v with
    | object fields => exact connectionOfFields_eq_ok hc
    | _ => cases hc

/-- A node with a size and a hook of its own, and a connection that leads back to it with a single point. -/
theorem reading_answers_lone :
    ∃ (v w : Value) (n : Node Float) (e : Fault Float),
      v = .object [("id", .text "a"), ("type", .text "decision"), ("x", .whole 40), ("y", .decimal 1.5),
        ("width", .whole 300), ("hooks", .array [.object [("id", .whole 7), ("direction", .text "top"),
          ("offset", .text " 0.25 ")]])] ∧
      w = .object [("fromNodeId", .text "a"), ("toNodeId", .text "a"),
        ("points", .array [.object [("x", .whole 0), ("y", .whole 0)]])] ∧
      node v = .ok n ∧ n = ⟨"a", .known .decision, ⟨40, 1.5, 300, 80⟩, "", .absent, [⟨"7", .top, 0.25, true⟩]⟩ ∧
      n.hooks ≠ [] ∧ (∀ h ∈ n.hooks, 0 ≤ h.offset ∧ h.offset ≤ 1) ∧ 0 < n.rect.width ∧
      connection w = .error e ∧ e.OfValue := by
  let v : Value := .object [("id", .text "a"), ("type", .text "decision"), ("x", .whole 40), ("y", .decimal 1.5),
    ("width", .whole 300), ("hooks", .array [.object [("id", .whole 7), ("direction", .text "top"),
      ("offset", .text " 0.25 ")]])]
  let w : Value := .object [("fromNodeId", .text "a"), ("toNodeId", .text "a"),
    ("points", .array [.object [("x", .whole 0), ("y", .whole 0)]])]
  have hv : node v = .ok ⟨"a", .known .decision, ⟨40, 1.5, 300, 80⟩, "", .absent, [⟨"7", .top, 0.25, true⟩]⟩ := by
    decide +kernel
  have hw : connection w = .error (.payload (.connectionLonePoint "a" "a")) := by decide +kernel
  obtain ⟨hnode, -, -, -⟩ := reading_answers v
  obtain ⟨-, -, -, hconnection⟩ := reading_answers w
  obtain ⟨-, hhooks, hoffsets, hwidth, -⟩ := hnode _ hv
  have hnumber : ¬ GivesNaN v "width" := by
    rintro ⟨fields, x, hfields, hfield, -⟩
    obtain rfl := Value.object.inj hfields
    cases hfield
  refine ⟨v, w, _, _, rfl, rfl, hv, rfl, hhooks, hoffsets, hwidth.resolve_right hnumber, hw, ?_⟩
  exact (hconnection.of_error _ hw).resolve_right nofun

/-- A coordinate that is too large for a double is neither accepted nor reported as a wrong value, be it that of a point
of a connection or that of a node. -/
theorem reading_overflows :
    ∃ v w : Value,
      v = .object [("fromNodeId", .text "a"), ("toNodeId", .text "b"),
        ("points", .array [.object [("x", .whole (10 ^ 400)), ("y", .whole 0)],
          .object [("x", .whole 1), ("y", .whole 1)]])] ∧
      w = .object [("id", .text "a"), ("kind", .text "process"), ("x", .whole (10 ^ 400)), ("y", .whole 0)] ∧
      ¬ ((∃ c, connection v = .ok c) ∨ ∃ e, connection v = .error e ∧ e.OfValue) ∧
      ¬ ((∃ n, node w = .ok n) ∨ ∃ e, node w = .error e ∧ e.OfValue) := by
  have hneither : ∀ {β : Type} {x : Except (Fault Float) β}, x = .error (.number .tooLarge) →
      ¬ ((∃ b, x = .ok b) ∨ ∃ e, x = .error e ∧ e.OfValue) := by
    rintro β x rfl (⟨b, hb⟩ | ⟨e, he, hvalue⟩)
    · cases hb
    · obtain rfl := Except.error.inj he
      cases hvalue
  exact ⟨_, _, rfl, rfl, hneither (by decide +kernel), hneither (by decide +kernel)⟩

end Flowchart.Payload
