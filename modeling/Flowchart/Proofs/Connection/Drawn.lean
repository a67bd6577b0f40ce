import Flowchart.Payload.Connection
import Flowchart.Proofs.Connection.Reversal

/-!
# Drawn routes

A drawn route comes in with a payload or is stored by an edit. Both ways keep the same part of it and refuse the same
routes: the points of a payload decide nothing but what an edit changes (`Payload.connectionOfFields_setField`), and
both drop the two ends (`Payload.storesAlike`).

A route always runs from its start to its finish (`Route.exists_points_eq`). So a connection that stores the points of
its own route has the same route again, now as a drawn one, whatever shape it had before
(`Connection.route_withCustomPoints`).
-/

namespace Flowchart

theorem lookupField?_setField_self (key : String) (v : Value) (fields : List (String × Value)) :
    lookupField? (setField key v fields) key = some v := by
  induction fields with
  | nil => simp [setField, lookupField?]
  | cons field fields ih =>
    obtain ⟨k, w⟩ := field
    unfold setField
    by_cases hk : k = key
    · simp [lookupField?, hk]
    · simpa [lookupField?, hk] using ih

theorem lookupField?_setField_of_ne {key other : String} (hother : other ≠ key) (v : Value)
    (fields : List (String × Value)) : lookupField? (setField key v fields) other = lookupField? fields other := by
  induction fields with
  | nil => simp [setField, lookupField?, hother.symm]
  | cons field fields ih =>
    obtain ⟨k, w⟩ := field
    unfold setField
    by_cases hk : k = key
    · subst hk
      simp [lookupField?, hother.symm]
    · by_cases hk' : k = other
      · simp [lookupField?, hk', hother]
      · simpa [lookupField?, hk, hk'] using ih

namespace Connection

variable {α : Type}

/-- The connection with what a drawn way leaves behind: the points between its two ends, and a mark unless there is no
way at all. -/
def redrawn (c : Connection α) (points : List (Point α)) : Connection α :=
  { c with waypoints := (points.drop 1).dropLast, custom := !points.isEmpty }

theorem redrawn_between (c : Connection α) (p q : Point α) (inner : List (Point α)) :
    c.redrawn (p :: inner ++ [q]) = { c with waypoints := inner, custom := true } := by
  have hinner : ((p :: inner ++ [q]).drop 1).dropLast = inner := List.dropLast_concat
  unfold redrawn
  rw [hinner]
  rfl

theorem withCustomPoints_eq_redrawn (c : Connection α) {points : List (Point α)} (hcount : 2 ≤ points.length) :
    c.withCustomPoints points = .ok (c.redrawn points) := by
  have hnonempty : points.isEmpty = false := by
    cases points with
    | nil => simp at hcount
    | cons p points => rfl
  unfold withCustomPoints redrawn
  rw [if_neg (by omega), hnonempty]
  rfl

theorem redrawn_nil {c : Connection α} (hwaypoints : c.waypoints = []) (hcustom : c.custom = false) :
    c.redrawn [] = c := by
  show { c with waypoints := [], custom := false } = c
  rw [← hwaypoints, ← hcustom]

end Connection

namespace Payload

section

variable {key other alternative : String} {v default : Value} {fields : Fields}

theorem fieldOr_setField_self : fieldOr default (setField key v fields) key = v := by
  rw [fieldOr, lookupField?_setField_self, Option.getD_some]

theorem fieldOr_setField_of_ne (hother : other ≠ key) :
    fieldOr default (setField key v fields) other = fieldOr default fields other := by
  rw [fieldOr, lookupField?_setField_of_ne hother, fieldOr]

theorem eitherField_setField_of_ne (hother : other ≠ key) (halternative : alternative ≠ key) :
    eitherField (setField key v fields) other alternative = eitherField fields other alternative := by
  unfold eitherField lookupEither?
  rw [lookupField?_setField_of_ne hother, lookupField?_setField_of_ne halternative]

end

/-- An object that gives a point: its fields `x` and `y` hold what stands for the two coordinates. -/
def GivesPoint (v : Value) (p : Point Float) : Prop :=
  ∃ fields x y, v = .object fields ∧ lookupField? fields "x" = some x ∧ x.toDouble = .ok p.x ∧
    lookupField? fields "y" = some y ∧ y.toDouble = .ok p.y

/-- A payload without points: there is no such field, or nothing in it. -/
def HasNoPoints (fields : Fields) : Prop :=
  (fieldOr .null fields "points").members? = some []

theorem coordinateOf_of_toDouble {e : Ends} {fields : Fields} {key : String} {v : Value} {x : Float}
    (hv : lookupField? fields key = some v) (hx : v.toDouble = .ok x) : coordinateOf e fields key = .ok x := by
  unfold coordinateOf
  rw [hv, Option.map_some, hx]

theorem pointOf_of_givesPoint {e : Ends} {v : Value} {p : Point Float} (h : GivesPoint v p) :
    pointOf e v = .ok p := by
  obtain ⟨fields, x, y, rfl, hx, hpx, hy, hpy⟩ := h
  exact bind_eq_ok.2 ⟨p.x, coordinateOf_of_toDouble hx hpx, bind_eq_ok.2 ⟨p.y, coordinateOf_of_toDouble hy hpy, rfl⟩⟩

theorem pointsOf_array {e : Ends} {items : List Value} {points : List (Point Float)}
    (hpoints : List.Forall₂ GivesPoint items points) : pointsOf e (.array items) =
      if points.length = 1 then .error (.payload (.connectionLonePoint e.source e.target)) else .ok points := by
  have hitems : items.mapM (pointOf e) = .ok points :=
    mapM_eq_ok.2 (hpoints.imp fun _ _ => pointOf_of_givesPoint)
  show (items.mapM (pointOf e) >>= fun points => _) = _
  rw [hitems]
  rfl

/-- Of a payload that can be read, the points only decide which way is stored. -/
theorem connectionOfFields_setField {fields : Fields} {c : Connection Float} (h : connectionOfFields fields = .ok c)
    (v : Value) : connectionOfFields (setField "points" v fields) =
      (pointsOf ⟨c.source, c.target⟩ v).map c.redrawn := by
  obtain ⟨e, hends, h⟩ := bind_eq_ok.1 h
  obtain ⟨label, hlabel, h⟩ := bind_eq_ok.1 h
  obtain ⟨variant, hvariant, h⟩ := bind_eq_ok.1 h
  obtain ⟨points, -, h⟩ := bind_eq_ok.1 h
  obtain rfl := Except.ok.inj h
  have hfield : ∀ key, key ≠ "points" → fieldOr .null (setField "points" v fields) key = fieldOr .null fields key :=
    fun _ hkey => fieldOr_setField_of_ne hkey
  have heither : ∀ key alternative, key ≠ "points" → alternative ≠ "points" →
      eitherField (setField "points" v fields) key alternative = eitherField fields key alternative :=
    fun _ _ hkey halternative => eitherField_setField_of_ne hkey halternative
  have hends' : endsOf (setField "points" v fields) = .ok e := by
    rw [← hends, endsOf, heither _ _ (by decide) (by decide), heither _ _ (by decide) (by decide), endsOf]
  unfold connectionOfFields
  rw [hends', hfield "label" (by decide), hfield "variant" (by decide), hfield "id" (by decide), fieldOr_setField_self,
    heither _ _ (by decide) (by decide), heither _ _ (by decide) (by decide)]
  show (labelOf e _ >>= fun label => _) = _
  rw [hlabel]
  show (variantOf e label _ >>= fun variant => _) = _
  rw [hvariant]
  show (pointsOf e v >>= fun points => _) = _
  cases pointsOf e v <;> rfl

theorem givesPoint_decimals (p : Point Float) :
    GivesPoint (.object [("x", .decimal p.x), ("y", .decimal p.y)]) p :=
  ⟨_, _, _, rfl, rfl, rfl, rfl, rfl⟩

theorem undrawn_of_hasNoPoints {fields : Fields} {c : Connection Float} (h : connectionOfFields fields = .ok c)
    (hnone : HasNoPoints fields) : c.waypoints = [] ∧ c.custom = false := by
  obtain ⟨e, -, h⟩ := bind_eq_ok.1 h
  obtain ⟨label, -, h⟩ := bind_eq_ok.1 h
  obtain ⟨variant, -, h⟩ := bind_eq_ok.1 h
  obtain ⟨points, hpoints, h⟩ := bind_eq_ok.1 h
  have hempty : points = [] := by
    unfold pointsOf at hpoints
    rw [hnone] at hpoints
    exact (Except.ok.inj hpoints).symm
  obtain rfl := Except.ok.inj h
  rw [hempty]
  exact ⟨rfl, rfl⟩

/-- A payload with a drawn route is read as an edit would have stored it. -/
structure StoresAlike (fields : Fields) (items : List Value) (c : Connection Float) (points : List (Point Float)) :
    Prop where
  drawn : 2 ≤ points.length → ∃ c', connection (.object (setField "points" (.array items) fields)) = .ok c' ∧
    c.withCustomPoints points = .ok c'
  lone : points.length = 1 →
    connection (.object (setField "points" (.array items) fields)) =
        .error (.payload (.connectionLonePoint c.source c.target)) ∧
      c.withCustomPoints points = .error (.routeTooShort 1)
  none : points = [] → HasNoPoints fields →
    connection (.object (setField "points" (.array items) fields)) = .ok c

theorem storesAlike {fields : Fields} {c : Connection Float} (h : connection (.object fields) = .ok c)
    {items : List Value} {points : List (Point Float)} (hpoints : List.Forall₂ GivesPoint items points) :
    StoresAlike fields items c points := by
  have hread : connection (.object (setField "points" (.array items) fields)) =
      (pointsOf ⟨c.source, c.target⟩ (.array items)).map c.redrawn :=
    connectionOfFields_setField h _
  rw [pointsOf_array hpoints] at hread
  constructor
  · intro hcount
    rw [if_neg (by omega)] at hread
    exact ⟨_, hread, c.withCustomPoints_eq_redrawn hcount⟩
  · intro hcount
    rw [if_pos hcount] at hread
    refine ⟨hread, ?_⟩
    unfold Connection.withCustomPoints
    rw [if_pos (by omega), hcount]
  · rintro rfl hnone
    obtain ⟨hwaypoints, hcustom⟩ := undrawn_of_hasNoPoints h hnone
    rw [hread]
    exact congrArg Except.ok (Connection.redrawn_nil hwaypoints hcustom)

end Payload

/-! ### Routes that are drawn again -/

section

variable {α : Type} [Scalar α]

theorem exists_buildPath_eq (p q : Point α) (style : Term PathStyle) (curvature : α) :
    ∃ inner, buildPath p q style curvature = p :: inner ++ [q] := by
  match style with
  | .known .straight => exact ⟨[], rfl⟩
  | .known .curved => exact ⟨[_, _], rfl⟩
  | .known .elbow => exact ⟨[_, _], rfl⟩
  | .foreign _ => exact ⟨[_, _], rfl⟩

theorem Route.exists_points_eq (r : Route α) : ∃ inner, r.points = r.start :: inner ++ [r.finish] := by
  unfold points
  split
  · exact ⟨r.waypoints, rfl⟩
  · exact exists_buildPath_eq _ _ _ _

namespace Connection

theorem route_withCustomPoints [Trigonometry α] {c : Connection α} {nodes : List (Node α)} {r : Route α}
    (h : c.route nodes = .ok r) : ∃ c' r', c.withCustomPoints r.points = .ok c' ∧ c'.route nodes = .ok r' ∧
      r'.points = r.points := by
  obtain ⟨inner, hinner⟩ := r.exists_points_eq
  obtain ⟨a, b, ha, hb, hstart, hfinish, -⟩ := route_eq_ok h
  have hcount : 2 ≤ r.points.length := by
    rw [hinner]
    simp
  have hredrawn : c.redrawn r.points = { c with waypoints := inner, custom := true } := by
    rw [hinner, redrawn_between]
  -- the anchors depend on the ends of the connection only, which an edit of the way keeps
  have hroute : (c.redrawn r.points).route nodes =
      .ok ⟨r.start, r.finish, inner, c.style, c.curvature, true⟩ := by
    rw [hredrawn]
    exact route_of_endAnchors ha hb hstart hfinish
  have hpoints : (⟨r.start, r.finish, inner, c.style, c.curvature, true⟩ : Route α).points = r.points := hinner.symm
  exact ⟨_, _, c.withCustomPoints_eq_redrawn hcount, hroute, hpoints⟩

end Connection

/-- The two ways of storing a drawn route agree, and drawing a route through the points that it already has changes
nothing. -/
theorem drawing_agrees :
    (∀ (fields : Payload.Fields) (c : Connection Float), Payload.connection (.object fields) = .ok c →
      ∀ (items : List Value) (points : List (Point Float)), List.Forall₂ Payload.GivesPoint items points →
        Payload.StoresAlike fields items c points) ∧
    ∀ (α : Type) [Scalar α] [Trigonometry α] (c : Connection α) (nodes : List (Node α)) (r : Route α),
      c.route nodes = .ok r → ∃ c' r', c.withCustomPoints r.points = .ok c' ∧ c'.route nodes = .ok r' ∧
        r'.points = r.points := by
  constructor
  · intro fields c h items points hpoints
    exact Payload.storesAlike h hpoints
  · intro α _ _ c nodes r h
    exact Connection.route_withCustomPoints h

end

/-- A way whose points are given in different spellings, and a curve that is drawn again. -/
theorem drawing_agrees_curve :
    ∃ (fields : Payload.Fields) (c : Connection Float) (items : List Value) (points : List (Point Float))
      (d d' : Connection Rat) (nodes : List (Node Rat)) (r r' : Route Rat),
      fields = [("fromNodeId", .text "a"), ("to_node_id", .text "b"), ("variant", .text "positive"), ("points", .null)] ∧
      items = [.object [("x", .decimal 0.5), ("y", .decimal 2)], .object [("y", .text " 1.5 "), ("x", .whole 5)],
        .object [("x", .decimal 9), ("y", .decimal 2)]] ∧
      points = [⟨0.5, 2⟩, ⟨5, 1.5⟩, ⟨9, 2⟩] ∧ Payload.connection (.object fields) = .ok c ∧
      List.Forall₂ Payload.GivesPoint items points ∧ Payload.StoresAlike fields items c points ∧
      d = { Connection.between "c" "a" "b" with style := .known .curved } ∧
      nodes = [⟨"a", .known .process, ⟨0, 0, 200, 80⟩, "", .absent, Hook.defaults "a"⟩,
        ⟨"b", .known .process, ⟨300, 300, 200, 80⟩, "", .absent, Hook.defaults "b"⟩] ∧
      @Connection.route Rat _ compass d nodes = .ok r ∧
      r.points = [⟨100, 80⟩, ⟨250, 80⟩, ⟨250, 300⟩, ⟨400, 300⟩] ∧
      d.withCustomPoints r.points = .ok d' ∧ @Connection.route Rat _ compass d' nodes = .ok r' ∧
      r'.points = r.points := by
  let fields : Payload.Fields :=
    [("fromNodeId", .text "a"), ("to_node_id", .text "b"), ("variant", .text "positive"), ("points", .null)]
  let d : Connection Rat := { Connection.between "c" "a" "b" with style := .known .curved }
  let nodes : List (Node Rat) := [⟨"a", .known .process, ⟨0, 0, 200, 80⟩, "", .absent, Hook.defaults "a"⟩,
    ⟨"b", .known .process, ⟨300, 300, 200, 80⟩, "", .absent, Hook.defaults "b"⟩]
  have hread : Payload.connection (.object fields) =
      .ok { Connection.between "conn-a-to-b" "a" "b" with variant := some (.known .positive) } := by decide +kernel
  have hmiddle : Payload.GivesPoint (.object [("y", .text " 1.5 "), ("x", .whole 5)]) ⟨5, 1.5⟩ :=
    ⟨_, _, _, rfl, rfl, by decide +kernel, rfl, by decide +kernel⟩
  have hpoints := List.Forall₂.cons (Payload.givesPoint_decimals ⟨0.5, 2⟩) (.cons hmiddle
    (.cons (Payload.givesPoint_decimals ⟨9, 2⟩) .nil))
  have hroute : (@Connection.route Rat _ compass d nodes).map (·.points) =
      .ok [⟨100, 80⟩, ⟨250, 80⟩, ⟨250, 300⟩, ⟨400, 300⟩] := by decide +kernel
  obtain ⟨r, hr, hshape⟩ := exists_eq_ok_of_map hroute
  obtain ⟨hstores, hredraws⟩ := drawing_agrees
  have hstored := hstores fields _ hread _ _ hpoints
  obtain ⟨d', r', hdrawn, hagain, hsame⟩ := @hredraws Rat _ compass d nodes r hr
  exact ⟨fields, _, _, _, d, d', nodes, r, r', rfl, rfl, rfl, hread, hpoints, hstored, rfl, rfl, hr, hshape, hdrawn,
    hagain, hsame⟩

end Flowchart
