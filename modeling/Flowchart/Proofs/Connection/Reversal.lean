import Flowchart.Proofs.Connection.Attached
import Flowchart.Proofs.Connection.Label

/-!
# Routes in the other direction

The ends of a connection are exchanged together with the hooks at them (`Connection.reversed`). In exact coordinates its
route is then the same one from the other end: the sides on which two nodes face each other do not depend on which of
them comes first (`Node.facingSides_swap`), and each shape is its own mirror image (`buildPath_reverse`).

The quadrants that tell the facing sides contain only one of the two diagonals at their border. Half a turn takes the
diagonal that belongs to a quadrant to the one that belongs to the opposite quadrant (`quadrantSides_neg`).
-/

namespace Flowchart

/-- The sides with which two nodes face each other, by the quadrant in which the one lies as seen from the other. -/
def quadrantSides (dx dy : Rat) : Direction × Direction :=
  if -dx ≤ dy ∧ dy < dx then (.right, .left)
  else if dx ≤ dy ∧ -dy < dx then (.bottom, .top)
  else if dy ≤ dx ∧ dx < -dy then (.top, .bottom)
  else (.left, .right)

section Quadrants

variable {dx dy : Rat}

theorem quadrantSides_right (h : -dx ≤ dy ∧ dy < dx) : quadrantSides dx dy = (.right, .left) :=
  if_pos h

theorem quadrantSides_bottom (h : dx ≤ dy ∧ -dy < dx) : quadrantSides dx dy = (.bottom, .top) := by
  unfold quadrantSides
  rw [if_neg fun hright => by linarith [hright.2], if_pos h]

theorem quadrantSides_top (h : dy ≤ dx ∧ dx < -dy) : quadrantSides dx dy = (.top, .bottom) := by
  unfold quadrantSides
  rw [if_neg fun hright => by linarith [hright.1], if_neg fun hbottom => by linarith [hbottom.1], if_pos h]

theorem quadrantSides_left (h : dy ≤ -dx ∧ dx < dy) : quadrantSides dx dy = (.left, .right) := by
  unfold quadrantSides
  rw [if_neg fun hright => by linarith [hright.2], if_neg fun hbottom => by linarith [hbottom.2],
    if_neg fun htop => by linarith [htop.1]]

/-- Every direction lies in a quadrant. -/
theorem quadrant_cases (h : dx ≠ 0 ∨ dy ≠ 0) :
    (-dx ≤ dy ∧ dy < dx) ∨ (dx ≤ dy ∧ -dy < dx) ∨ (dy ≤ dx ∧ dx < -dy) ∨ (dy ≤ -dx ∧ dx < dy) := by
  grind

theorem quadrantSides_neg (h : dx ≠ 0 ∨ dy ≠ 0) : quadrantSides (-dx) (-dy) = (quadrantSides dx dy).swap := by
  -- half a turn takes the diagonal that a quadrant contains to the one that the opposite quadrant contains
  rcases quadrant_cases h with ⟨hfrom, hto⟩ | ⟨hfrom, hto⟩ | ⟨hfrom, hto⟩ | ⟨hfrom, hto⟩
  · rw [quadrantSides_right ⟨hfrom, hto⟩, quadrantSides_left ⟨by linarith, by linarith⟩]
    rfl
  · rw [quadrantSides_bottom ⟨hfrom, hto⟩, quadrantSides_top ⟨by linarith, by linarith⟩]
    rfl
  · rw [quadrantSides_top ⟨hfrom, hto⟩, quadrantSides_bottom ⟨by linarith, by linarith⟩]
    rfl
  · rw [quadrantSides_left ⟨hfrom, hto⟩, quadrantSides_right ⟨by linarith, by linarith⟩]
    rfl

end Quadrants

private theorem displaced_of_apart {p q : Point Rat} (hapart : p ≠ q) : q.x - p.x ≠ 0 ∨ q.y - p.y ≠ 0 := by
  by_contra hsame
  obtain ⟨hx, hy⟩ := not_or.1 hsame
  exact hapart (congrArg₂ Point.mk (sub_eq_zero.1 (not_not.1 hx)).symm (sub_eq_zero.1 (not_not.1 hy)).symm)

section

variable [Trigonometry Rat] (hbearings : ExactBearings) {a b : Node Rat}
include hbearings

theorem Node.facingSides_eq (hapart : a.center ≠ b.center) :
    a.facingSides b = quadrantSides (b.center.x - a.center.x) (b.center.y - a.center.y) := by
  have hdisplaced := displaced_of_apart hapart
  have h₁ := hbearings.lt_45 hdisplaced
  have h₂ := hbearings.lt_neg_45 hdisplaced
  have h₃ := hbearings.lt_135 hdisplaced
  have h₄ := hbearings.lt_neg_135 hdisplaced
  unfold facingSides quadrantSides
  -- both sides ask for the same quadrants in the same order
  simp only [← not_lt, h₁, h₂, h₃, h₄]
  grind

theorem Node.facingSides_swap (hapart : a.center ≠ b.center) : b.facingSides a = (a.facingSides b).swap := by
  have hx : a.center.x - b.center.x = -(b.center.x - a.center.x) := (neg_sub _ _).symm
  have hy : a.center.y - b.center.y = -(b.center.y - a.center.y) := (neg_sub _ _).symm
  rw [facingSides_eq hbearings hapart.symm, facingSides_eq hbearings hapart, hx, hy,
    quadrantSides_neg (displaced_of_apart hapart)]

end

theorem buildPath_reverse (p q : Point Rat) (style : Term PathStyle) (curvature : Rat) :
    buildPath q p style curvature = (buildPath p q style curvature).reverse := by
  have helbow : [q, (⟨(q.x + p.x) / 2, q.y⟩ : Point Rat), ⟨(q.x + p.x) / 2, p.y⟩, p] =
      [p, ⟨(p.x + q.x) / 2, p.y⟩, ⟨(p.x + q.x) / 2, q.y⟩, q].reverse := by
    rw [add_comm q.x]
    rfl
  match style with
  | .known .straight => rfl
  | .known .curved =>
    have hfirst : ∀ c : Rat, q.x + (p.x - q.x) * c = p.x + (q.x - p.x) * (1 - c) := fun c => by ring
    have hlast : ∀ c : Rat, q.x + (p.x - q.x) * (1 - c) = p.x + (q.x - p.x) * c := fun c => by ring
    show [q, (⟨_, q.y⟩ : Point Rat), ⟨_, p.y⟩, p] = _
    rw [hfirst, hlast]
    rfl
  | .known .elbow => exact helbow
  | .foreign _ => exact helbow

variable {α : Type}

/-- The connection in the other direction. -/
def Connection.reversed (c : Connection α) : Connection α :=
  { c with source := c.target, target := c.source, sourceHook := c.targetHook, targetHook := c.sourceHook }

/-- Whether a connection can be attached to a node with a reference: it refers to nothing, or to a hook of the node. -/
def Node.Offers (n : Node α) (r : Reference) : Prop :=
  r.isGiven = false ∨ ∃ h ∈ n.hooks, .named h.id = r

namespace Connection

variable [Scalar α]

theorem exists_endAnchor {n : Node α} {r : Reference} (hoffers : n.Offers r) (facing : Direction) :
    ∃ p, endAnchor n r facing = .ok p := by
  cases hanchor : endAnchor n r facing with
  | ok p => exact ⟨p, rfl⟩
  | error e =>
    exfalso
    obtain ⟨hgiven, hmissing, -⟩ := endAnchor_eq_error.1 hanchor
    rcases hoffers with habsent | ⟨h, hmem, hname⟩
    · rw [habsent] at hgiven
      cases hgiven
    · exact hmissing h hmem hname

theorem route_of_endAnchors [Trigonometry α] {c : Connection α} {nodes : List (Node α)} {a b : Node α}
    {p q : Point α} (ha : nodeWithId? nodes c.source = some a) (hb : nodeWithId? nodes c.target = some b)
    (hp : endAnchor a c.sourceHook (a.facingSides b).1 = .ok p)
    (hq : endAnchor b c.targetHook (a.facingSides b).2 = .ok q) :
    c.route nodes = .ok ⟨p, q, c.waypoints, c.style, c.curvature, c.custom⟩ := by
  have hends : c.endpoints a b = .ok (p, q) := bind_eq_ok.2 ⟨p, hp, bind_eq_ok.2 ⟨q, hq, rfl⟩⟩
  exact bind_eq_ok.2 ⟨a, requireNode_eq_ok.2 ha, bind_eq_ok.2 ⟨b, requireNode_eq_ok.2 hb,
    bind_eq_ok.2 ⟨(p, q), hends, rfl⟩⟩⟩

/-- In exact coordinates, a connection between nodes with different centres that was not drawn by hand takes the same
way in both directions, and its label stays where it is. -/
theorem route_reversed [Trigonometry Rat] (hbearings : ExactBearings) (hlengths : ExactLengths)
    {c : Connection Rat} {nodes : List (Node Rat)} {a b : Node Rat} (ha : nodeWithId? nodes c.source = some a)
    (hb : nodeWithId? nodes c.target = some b) (hapart : a.center ≠ b.center) (hsource : a.Offers c.sourceHook)
    (htarget : b.Offers c.targetHook) (hwaypoints : c.waypoints = []) (hcustom : c.custom = false) :
    ∃ r r', c.route nodes = .ok r ∧ c.reversed.route nodes = .ok r' ∧ r'.start = r.finish ∧ r'.finish = r.start ∧
      r'.points = r.points.reverse ∧ r'.labelPosition? = r.labelPosition? := by
  obtain ⟨p, hp⟩ := exists_endAnchor hsource (a.facingSides b).1
  obtain ⟨q, hq⟩ := exists_endAnchor htarget (a.facingSides b).2
  have hsides : b.facingSides a = (a.facingSides b).swap := Node.facingSides_swap hbearings hapart
  have hforth := route_of_endAnchors ha hb hp hq
  have hback : c.reversed.route nodes = .ok ⟨q, p, c.waypoints, c.style, c.curvature, c.custom⟩ :=
    route_of_endAnchors (c := c.reversed) hb ha (by rw [hsides]; exact hq) (by rw [hsides]; exact hp)
  rw [hwaypoints, hcustom] at hforth hback
  have hlabel : ∀ p q, labelPosition? (buildPath p q c.style c.curvature) c.style = some (p.between q (1 / 2)) :=
    fun p q => labelPosition?_buildPath hlengths p q c.style c.curvature
  have hmiddle : q.between p (1 / 2) = p.between q (1 / 2) := by
    refine congrArg₂ Point.mk ?_ ?_ <;> ring
  refine ⟨_, _, hforth, hback, rfl, rfl, buildPath_reverse p q c.style c.curvature, ?_⟩
  exact (hlabel q p).trans ((congrArg some hmiddle).trans (hlabel p q).symm)

/-- Two nodes whose centres lie on the diagonal between two quadrants; a hook is named at one end only. -/
theorem route_reversed_diagonal :
    ∃ (a b : Node Rat) (c : Connection Rat) (r r' : Route Rat),
      a = ⟨"a", .known .process, ⟨0, 0, 200, 80⟩, "", .absent, Hook.defaults "a"⟩ ∧
      b = ⟨"b", .known .process, ⟨300, 300, 200, 80⟩, "", .absent, Hook.defaults "b"⟩ ∧
      c = { between "c" "a" "b" with sourceHook := .named "a-hook-right-0" } ∧
      @ExactBearings compass ∧ @ExactLengths compass ∧ a.center ≠ b.center ∧ a.Offers c.sourceHook ∧
      b.Offers c.targetHook ∧ @route Rat _ compass c [a, b] = .ok r ∧
      r.points = [⟨200, 40⟩, ⟨300, 40⟩, ⟨300, 300⟩, ⟨400, 300⟩] ∧
      @route Rat _ compass c.reversed [a, b] = .ok r' ∧ r'.start = r.finish ∧ r'.finish = r.start ∧
      r'.points = r.points.reverse ∧
      @Route.labelPosition? Rat _ compass r' = @Route.labelPosition? Rat _ compass r := by
  let a : Node Rat := ⟨"a", .known .process, ⟨0, 0, 200, 80⟩, "", .absent, Hook.defaults "a"⟩
  let b : Node Rat := ⟨"b", .known .process, ⟨300, 300, 200, 80⟩, "", .absent, Hook.defaults "b"⟩
  let c : Connection Rat := { between "c" "a" "b" with sourceHook := .named "a-hook-right-0" }
  have hapart : a.center ≠ b.center := by decide +kernel
  have hsource : a.Offers c.sourceHook := .inr ⟨Hook.initial "a" 0.5 .right, by decide +kernel, by decide +kernel⟩
  have htarget : b.Offers c.targetHook := .inl (by decide)
  have hpoints : (@route Rat _ compass c [a, b]).map (·.points) =
      .ok [⟨200, 40⟩, ⟨300, 40⟩, ⟨300, 300⟩, ⟨400, 300⟩] := by decide +kernel
  obtain ⟨r, hr, hpoints⟩ := exists_eq_ok_of_map hpoints
  obtain ⟨s, r', hs, hr', hends⟩ := @route_reversed compass exactBearings_compass exactLengths_compass c [a, b] a b
    (by decide +kernel) (by decide +kernel) hapart hsource htarget rfl rfl
  obtain rfl := Except.ok.inj (hr.symm.trans hs)
  exact ⟨a, b, c, r, r', rfl, rfl, rfl, exactBearings_compass, exactLengths_compass, hapart, hsource, htarget, hr,
    hpoints, hr', hends⟩

end Connection

end Flowchart
