import Flowchart.Proofs.Node
import Flowchart.Proofs.Numeric.Zero
import Flowchart.Proofs.Payload.Failure

/-!
# Nodes that are read from payloads

A node that is read from a payload passes the checks of nodes and hooks (`sound_of_nodeOfFields`). A whole number that
is too large for a double is met only behind the checks of the payload, in a hook or else in the position or the size
(`failsAt_nodeOfFields`).
-/

namespace Flowchart.Payload

/-- A hook with an offset that is too large for a double. -/
inductive HookOverflows : Value → Prop
  | offset {fields : Fields} {id direction : Value} : lookupField? fields "id" = some id →
      lookupField? fields "direction" = some direction → (fieldOr (.decimal 0.5) fields "offset").IsHuge →
      HookOverflows (.object fields)

section Hooks

variable {node : String}

theorem hookField_eq_ok {fields : Fields} {key : String} {v : Value} :
    hookField node fields key = .ok v ↔ lookupField? fields key = some v := by
  unfold hookField
  split <;> simp [*]

theorem check_hookField {fields : Fields} {key : String} {e : Fault Float}
    (h : hookField node fields key = .error e) : e.OfValue := by
  unfold hookField at h
  split at h
  · cases h
  · exact .of_payload h

theorem failsAt_hookOffset (v : Value) : FailsAt (hookOffset node v) v.IsHuge where
  of_error e he := by
    unfold hookOffset at he
    split at he
    · cases he
    · exact .inr (Except.error.inj he).symm
    · obtain rfl := Except.error.inj he
      exact .inl .numberText
    · exact .inl (.of_payload he)
  overflows_iff := by
    rw [← Value.toDouble_eq_tooLarge]
    unfold hookOffset
    split <;> simp [*]

theorem check_make {id : String} {d : Term Direction} {offset : Float} {visible : Bool} {e : Fault Float}
    (h : Hook.make id d offset visible = .error e) : e.OfValue := by
  unfold Hook.make at h
  split at h
  · obtain rfl := Except.error.inj h
    exact .unknownDirection _
  · split at h
    · cases h
    · obtain rfl := Except.error.inj h
      exact .offsetOutside _

theorem failsAt_hook (v : Value) : FailsAt (hook node v) (HookOverflows v) := by
  cases v with
  | object fields =>
    refine (FailsAt.bind_check (fun _ => check_hookField) fun id hid =>
      FailsAt.bind_check (fun _ => check_hookField) fun direction hdirection =>
      (failsAt_hookOffset _).bind fun offset _ => FailsAt.of_check fun _ => check_make).congr ⟨?_, ?_⟩
    · rintro ⟨id, hid, direction, hdirection, hhuge | ⟨_, _, hnone⟩⟩
      · exact .offset (hookField_eq_ok.1 hid) (hookField_eq_ok.1 hdirection) hhuge
      · exact hnone.elim
    · rintro ⟨hid, hdirection, hhuge⟩
      exact ⟨_, hookField_eq_ok.2 hid, _, hookField_eq_ok.2 hdirection, .inl hhuge⟩
  | _ => exact .of_payload rfl nofun

theorem failsAt_hooks (v : Value) : FailsAt (hooks node v) (OverflowsFirst (hook node) HookOverflows v) := by
  unfold hooks
  split
  · next items hitems =>
    refine failsAt_members failsAt_hook (fun w hw => ?_) hitems
    cases hw
    exact ⟨_, rfl⟩
  · next hnone =>
    refine .of_payload rfl fun h => ?_
    cases h
    cases hnone

/-- What is read as a hook has an offset from 0 to 1. -/
theorem make_of_hook {v : Value} {h : Hook Float} (hv : hook node v = .ok h) :
    Hook.make h.id (.known h.direction) h.offset h.visible = .ok h := by
  cases v with
  | object fields =>
    obtain ⟨id, -, hv⟩ := bind_eq_ok.1 hv
    obtain ⟨direction, -, hv⟩ := bind_eq_ok.1 hv
    obtain ⟨offset, -, hv⟩ := bind_eq_ok.1 hv
    obtain ⟨-, -, -, hbounds⟩ := Hook.make_eq_ok hv
    exact Hook.make_known_eq_ok.2 ⟨hbounds, rfl⟩
  | _ => cases hv

theorem make_of_mem_hooks {v : Value} {hs : List (Hook Float)} (hhooks : hooks node v = .ok hs) {h : Hook Float}
    (hh : h ∈ hs) : Hook.make h.id (.known h.direction) h.offset h.visible = .ok h := by
  unfold hooks at hhooks
  split at hhooks
  · obtain ⟨v, -, hv⟩ := exists_of_mem_mapM hhooks hh
    exact make_of_hook hv
  · cases hhooks

end Hooks

/-! ### Nodes -/

/-- The position and the size of a node payload. -/
def nodeNumbers (fields : Fields) (kind : NodeKind) : List Value :=
  [fieldOr .null (placeFields fields) "x", fieldOr .null (placeFields fields) "y",
    fieldOr (.decimal kind.width) fields "width", fieldOr (.decimal nodeHeight) fields "height"]

/-- The checks that a node payload passes before its hooks are read. -/
structure NodeChecked (fields : Fields) (id : String) (kind : NodeKind) (text : String) : Prop where
  id_eq : idOf (fieldOr .null fields "id") = .ok id
  kind_eq : kindOf id (eitherField fields "kind" "type") = .ok kind
  numbers : ∀ v ∈ nodeNumbers fields kind, v.isNumber = true
  text_eq : textField id (fieldOr (.text "") fields "text") = .ok text

/-- A node payload that passes its checks, with a number that is too large for a double: in the first of its hooks that
cannot be read, or else as a coordinate or a size. -/
inductive NodeOverflows : Value → Prop
  | hook {fields : Fields} {id : String} {kind : NodeKind} {text : String} : NodeChecked fields id kind text →
      OverflowsFirst (Payload.hook id) HookOverflows (fieldOr .null fields "hooks") → NodeOverflows (.object fields)
  | number {fields : Fields} {id : String} {kind : NodeKind} {text : String} {hs : List (Hook Float)} {v : Value} :
      NodeChecked fields id kind text → hooks id (fieldOr .null fields "hooks") = .ok hs →
      v ∈ nodeNumbers fields kind → v.IsHuge → NodeOverflows (.object fields)

theorem check_idOf {v : Value} {e : Fault Float} (h : idOf v = .error e) : e.OfValue := by
  unfold idOf at h
  split at h
  · split at h
    · exact .of_payload h
    · cases h
  · exact .of_payload h

theorem check_kindOf {id : String} {v : Value} {e : Fault Float} (h : kindOf id v = .error e) : e.OfValue := by
  unfold kindOf at h
  split at h
  · cases h
  · exact .of_payload h

theorem numberField_eq_ok {id field : String} {v w : Value} :
    numberField id field v = .ok w ↔ v.isNumber = true ∧ v = w := by
  unfold numberField
  split <;> simp [*]

theorem isNumber_of_numberField {id field : String} {v w : Value} (h : numberField id field v = .ok w) :
    w.isNumber = true := by
  obtain ⟨hnumber, rfl⟩ := numberField_eq_ok.1 h
  exact hnumber

theorem check_numberField {id field : String} {v : Value} {e : Fault Float} (h : numberField id field v = .error e) :
    e.OfValue := by
  unfold numberField at h
  split at h
  · cases h
  · exact .of_payload h

theorem check_textField {id : String} {v : Value} {e : Fault Float} (h : textField id v = .error e) : e.OfValue := by
  unfold textField at h
  split at h
  · cases h
  · exact .of_payload h

theorem check_nodeMake {n : Node Float} {e : Fault Float} (h : n.make = .error e) : e.OfValue := by
  unfold Node.make at h
  split at h
  · obtain rfl := Except.error.inj h
    exact .sizeNotPositive _ _ _
  · cases h

theorem failsAt_nodeOfFields (fields : Fields) : FailsAt (nodeOfFields fields) (NodeOverflows (.object fields)) := by
  refine (FailsAt.bind_check (fun _ => check_idOf) fun id _ =>
    FailsAt.bind_check (fun _ => check_kindOf) fun kind _ =>
    FailsAt.bind_check (fun _ => check_numberField) fun x hx =>
    FailsAt.bind_check (fun _ => check_numberField) fun y hy =>
    FailsAt.bind_check (fun _ => check_numberField) fun width hwidth =>
    FailsAt.bind_check (fun _ => check_numberField) fun height hheight =>
    FailsAt.bind_check (fun _ => check_textField) fun text _ =>
    (failsAt_hooks _).bind fun hs _ =>
    failsAt_bind_numberOf (isNumber_of_numberField hx) fun _ =>
    failsAt_bind_numberOf (isNumber_of_numberField hy) fun _ =>
    failsAt_bind_numberOf (isNumber_of_numberField hwidth) fun _ =>
    failsAt_bind_numberOf (isNumber_of_numberField hheight) fun _ =>
    FailsAt.of_check fun _ => check_nodeMake).congr ⟨?_, ?_⟩
  · rintro ⟨id, hid, kind, hkind, x, hx, y, hy, width, hwidth, height, hheight, text, htext, hoverflow⟩
    obtain ⟨hx, rfl⟩ := numberField_eq_ok.1 hx
    obtain ⟨hy, rfl⟩ := numberField_eq_ok.1 hy
    obtain ⟨hwidth, rfl⟩ := numberField_eq_ok.1 hwidth
    obtain ⟨hheight, rfl⟩ := numberField_eq_ok.1 hheight
    have hchecked : NodeChecked fields id kind text := ⟨hid, hkind, by simp [nodeNumbers, *], htext⟩
    rcases hoverflow with hfirst | ⟨hs, hhooks, hhuge⟩
    · exact .hook hchecked hfirst
    · have hsome : ∃ v ∈ nodeNumbers fields kind, v.IsHuge := by simpa [nodeNumbers] using hhuge
      obtain ⟨v, hv, hhuge⟩ := hsome
      exact .number hchecked hhooks hv hhuge
  · intro h
    obtain ⟨id, kind, text, hchecked, hoverflow⟩ : ∃ id kind text, NodeChecked fields id kind text ∧
        (OverflowsFirst (hook id) HookOverflows (fieldOr .null fields "hooks") ∨
          ∃ hs, hooks id (fieldOr .null fields "hooks") = .ok hs ∧ ∃ v ∈ nodeNumbers fields kind, v.IsHuge) := by
      cases h with
      | hook hchecked hfirst => exact ⟨_, _, _, hchecked, .inl hfirst⟩
      | number hchecked hhooks hv hhuge => exact ⟨_, _, _, hchecked, .inr ⟨_, hhooks, _, hv, hhuge⟩⟩
    have hnumber := hchecked.numbers
    simp only [nodeNumbers, List.forall_mem_cons] at hnumber
    obtain ⟨hx, hy, hwidth, hheight, -⟩ := hnumber
    refine ⟨id, hchecked.id_eq, kind, hchecked.kind_eq, _, numberField_eq_ok.2 ⟨hx, rfl⟩, _,
      numberField_eq_ok.2 ⟨hy, rfl⟩, _, numberField_eq_ok.2 ⟨hwidth, rfl⟩, _, numberField_eq_ok.2 ⟨hheight, rfl⟩,
      text, hchecked.text_eq, ?_⟩
    simpa [nodeNumbers] using hoverflow

/-- A node that is read from a payload has passed the checks, and all of its parts could be read. -/
theorem nodeOfFields_eq_ok {fields : Fields} {n : Node Float} (h : nodeOfFields fields = .ok n) :
    ∃ (id : String) (kind : NodeKind) (text : String) (raw : Node Float), NodeChecked fields id kind text ∧
      hooks id (fieldOr .null fields "hooks") = .ok raw.hooks ∧
      List.Forall₂ (fun v x => numberOf v = .ok x) (nodeNumbers fields kind)
        [raw.rect.x, raw.rect.y, raw.rect.width, raw.rect.height] ∧
      raw.id = id ∧ raw.kind = .known kind ∧ raw.text = text ∧
      raw.container = .ofValue (eitherField fields "containerId" "container_id") ∧ raw.make = .ok n := by
  obtain ⟨id, hid, h⟩ := bind_eq_ok.1 h
  obtain ⟨kind, hkind, h⟩ := bind_eq_ok.1 h
  obtain ⟨x, hx, h⟩ := bind_eq_ok.1 h
  obtain ⟨y, hy, h⟩ := bind_eq_ok.1 h
  obtain ⟨width, hwidth, h⟩ := bind_eq_ok.1 h
  obtain ⟨height, hheight, h⟩ := bind_eq_ok.1 h
  obtain ⟨text, htext, h⟩ := bind_eq_ok.1 h
  obtain ⟨hs, hhooks, h⟩ := bind_eq_ok.1 h
  obtain ⟨rx, hrx, h⟩ := bind_eq_ok.1 h
  obtain ⟨ry, hry, h⟩ := bind_eq_ok.1 h
  obtain ⟨rwidth, hrwidth, h⟩ := bind_eq_ok.1 h
  obtain ⟨rheight, hrheight, hmake⟩ := bind_eq_ok.1 h
  obtain ⟨hx, rfl⟩ := numberField_eq_ok.1 hx
  obtain ⟨hy, rfl⟩ := numberField_eq_ok.1 hy
  obtain ⟨hwidth, rfl⟩ := numberField_eq_ok.1 hwidth
  obtain ⟨hheight, rfl⟩ := numberField_eq_ok.1 hheight
  have hchecked : NodeChecked fields id kind text := ⟨hid, hkind, by simp [nodeNumbers, *], htext⟩
  have hnumbers : List.Forall₂ (fun v x => numberOf v = .ok x) (nodeNumbers fields kind) [rx, ry, rwidth, rheight] :=
    .cons hrx (.cons hry (.cons hrwidth (.cons hrheight .nil)))
  exact ⟨id, kind, text, _, hchecked, hhooks, hnumbers, rfl, rfl, rfl, rfl, hmake⟩

/-- A payload that gives something as a number that is none. -/
def GivesNaN (v : Value) (key : String) : Prop :=
  ∃ fields x, v = .object fields ∧ lookupField? fields key = some (.decimal x) ∧ x.isNaN = true

theorem pos_of_numberOf {fields : Fields} {key : String} {standard size : Float} (hstandard : standard.isNaN = false)
    (hnumber : (fieldOr (.decimal standard) fields key).isNumber = true)
    (hsize : numberOf (fieldOr (.decimal standard) fields key) = .ok size) (hnonpos : ¬ size ≤ 0) :
    0 < size ∨ GivesNaN (.object fields) key := by
  cases hnan : size.isNaN with
  | false => exact .inl (Double.pos_of_not_le_zero hnan hnonpos)
  | true =>
    right
    rcases isNaN_of_numberOf hnumber hsize with hfalse | hdecimal
    · rw [hnan] at hfalse
      cases hfalse
    · unfold fieldOr at hdecimal
      cases hfield : lookupField? fields key with
      | none =>
        rw [hfield] at hdecimal
        obtain rfl := Value.decimal.inj hdecimal
        rw [hnan] at hstandard
        cases hstandard
      | some v =>
        rw [hfield] at hdecimal
        obtain rfl : v = .decimal size := hdecimal
        exact ⟨fields, size, rfl, hfield, hnan⟩

/-- A node that is read from a payload is sound, and its size is positive unless the payload gives no number for it. -/
theorem sound_of_nodeOfFields {fields : Fields} {n : Node Float} (h : nodeOfFields fields = .ok n) :
    n.Sound ∧ (∃ kind, n.kind = .known kind) ∧ (0 < n.rect.width ∨ GivesNaN (.object fields) "width") ∧
      (0 < n.rect.height ∨ GivesNaN (.object fields) "height") := by
  obtain ⟨id, kind, text, raw, hchecked, hhooks, hnumbers, -, hkind, -, -, hmake⟩ := nodeOfFields_eq_ok h
  obtain ⟨hsize, rfl⟩ := Node.make_eq_ok.1 hmake
  obtain ⟨hwidth, hheight⟩ := not_or.1 hsize
  have hchecks := hchecked.numbers
  simp only [nodeNumbers, List.forall_mem_cons] at hchecks
  obtain ⟨-, -, hwidthNumber, hheightNumber, -⟩ := hchecks
  simp only [nodeNumbers, List.forall₂_cons] at hnumbers
  obtain ⟨-, -, hwidthRead, hheightRead, -⟩ := hnumbers
  refine ⟨Node.sound_of_make (fun h hh => make_of_mem_hooks hhooks hh) hmake, ⟨kind, by simpa using hkind⟩, ?_, ?_⟩
  · rw [Node.withSomeHook_rect]
    exact pos_of_numberOf (by cases kind <;> decide +kernel) hwidthNumber hwidthRead hwidth
  · rw [Node.withSomeHook_rect]
    exact pos_of_numberOf (by decide +kernel) hheightNumber hheightRead hheight

end Flowchart.Payload
