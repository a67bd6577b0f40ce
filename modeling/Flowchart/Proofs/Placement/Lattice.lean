import Flowchart.Proofs.Numeric.Arithmetic
import Flowchart.Proofs.Placement.Failing
import Flowchart.Proofs.Sorting.Distinct

/-!
# The lattice of some nodes

The rows and the columns of a lattice are the snapped centres of its nodes, and the places that are taken are their
snapped corners, each of them once and in rising order (`isOf_of_ofNodes`). So the lattice is decided by the nodes and
the size of the grid: in which order the nodes come and along which axis they are gone through makes no difference, and
neither does any other setting of the placement (`lattice_determined`).
-/

namespace Flowchart.Placement

/-- A point both of whose coordinates are numbers. -/
def Numeric (p : Point Float) : Prop :=
  p.x.isNaN = false ∧ p.y.isNaN = false

/-- Whether a point comes before another one: by the first coordinates, or by the second ones if those are equal. -/
def before (p q : Point Float) : Bool :=
  if p.x == q.x then decide (p.y < q.y) else decide (p.x < q.x)

/-- The rank of a point: first that of its column, then that of its row. -/
def pointRank (p : Point Float) : (Int ×ₗ Int ×ₗ Int) ×ₗ (Int ×ₗ Int ×ₗ Int) :=
  toLex (Double.rank p.x.toModel.unpack, Double.rank p.y.toModel.unpack)

theorem ranksOn_doubles : Sorting.RanksOn (fun a b : Float => decide (a < b)) (· == ·) (fun a => a.isNaN = false)
    fun a => Double.rank a.toModel.unpack where
  less_iff ha hb := by
    rw [decide_eq_true_iff, Double.lt_iff]
    exact ⟨fun h => h.2.2, fun h => ⟨ha, hb, h⟩⟩
  same_iff ha hb := Double.beq_iff.trans ⟨fun h => h.2.2, fun h => ⟨ha, hb, h⟩⟩

theorem ranksOn_points : Sorting.RanksOn before Point.same Numeric pointRank where
  less_iff {p q} hp hq := by
    have hequal := ranksOn_doubles.same_iff hp.1 hq.1
    unfold pointRank before
    rw [Prod.Lex.toLex_lt_toLex]
    split
    · next hx =>
      rw [hequal] at hx
      simp only [hx, lt_irrefl, true_and, false_or]
      exact ranksOn_doubles.less_iff hp.2 hq.2
    · next hx =>
      rw [hequal] at hx
      simp only [hx, false_and, or_false]
      exact ranksOn_doubles.less_iff hp.1 hq.1
  same_iff {p q} hp hq := by
    unfold Point.same pointRank
    rw [Bool.and_eq_true, ranksOn_doubles.same_iff hp.1 hq.1, ranksOn_doubles.same_iff hp.2 hq.2, toLex_inj,
      Prod.mk.injEq]

/-- A rectangle without infinite coordinates or sides. -/
structure IsFinite (r : Rect Float) : Prop where
  x : r.x.isFinite = true
  y : r.y.isFinite = true
  width : r.width.isFinite = true
  height : r.height.isFinite = true

theorem IsFinite.numeric_center {r : Rect Float} (h : IsFinite r) : Numeric r.center := by
  have htwo : (2 : Float).isNaN = false ∧ ((2 : Float) == 0) = false := by decide +kernel
  exact ⟨Double.isNaN_add h.x (Double.isNaN_div h.width htwo.1 htwo.2),
    Double.isNaN_add h.y (Double.isNaN_div h.height htwo.1 htwo.2)⟩

theorem IsFinite.numeric_corner {r : Rect Float} (h : IsFinite r) : Numeric r.corner :=
  ⟨Double.isNaN_of_isFinite h.x, Double.isNaN_of_isFinite h.y⟩

/-- A multiple of the grid size may be infinite, but it is a number. -/
theorem isNaN_of_snap {v size r : Float} (hsize : size.isFinite = true) (hv : v.isNaN = false)
    (h : snap v size = .ok r) : r.isNaN = false := by
  unfold snap at h
  split at h
  · obtain rfl := Except.ok.inj h
    exact hv
  · obtain ⟨steps, -, h⟩ := bind_eq_ok.1 h
    obtain ⟨count, hcount, h⟩ := bind_eq_ok.1 h
    obtain rfl := Except.ok.inj h
    exact Double.isNaN_mul (Double.isFinite_of_ofInt hcount) hsize

theorem Numeric.snap {size : Float} {p q : Point Float} (hsize : size.isFinite = true) (hp : Numeric p)
    (h : p.snap size = .ok q) : Numeric q := by
  obtain ⟨x, hx, h⟩ := bind_eq_ok.1 h
  obtain ⟨y, hy, h⟩ := bind_eq_ok.1 h
  obtain rfl := Except.ok.inj h
  exact ⟨isNaN_of_snap hsize hp.1 hx, isNaN_of_snap hsize hp.2 hy⟩

/-! ### Snapped spots -/

section Snapped

variable {α : Type} [Scalar α] {size : α}

/-- A coordinate is snapped like its value. -/
theorem Coordinate.value_snap (c : Coordinate α) (size : α) :
    (c.snap size).map (·.value) = Flowchart.snap c.value size := by
  unfold Coordinate.snap
  split
  · next hsize =>
    rw [Flowchart.snap, if_pos hsize]
    rfl
  · cases Flowchart.snap c.value size <;> rfl

/-- A coordinate stays as it is, or it lies on the grid. -/
theorem Coordinate.eq_or_grid_of_snap {c c' : Coordinate α} (h : c.snap size = .ok c') : c' = c ∨ c'.guide = .grid := by
  unfold Coordinate.snap at h
  split at h
  · exact .inl (Except.ok.inj h).symm
  · obtain ⟨v, -, h⟩ := bind_eq_ok.1 h
    exact .inr (congrArg _ (Except.ok.inj h).symm)

/-- A spot is snapped like its point. -/
theorem Spot.point_snap (s : Spot α) (size : α) : (s.snap size).map (·.point) = s.point.snap size := by
  have hx : (s.x.snap size).map (·.value) = Flowchart.snap s.point.x size := s.x.value_snap size
  have hy : (s.y.snap size).map (·.value) = Flowchart.snap s.point.y size := s.y.value_snap size
  unfold Spot.snap Point.snap
  rw [← hx, ← hy]
  cases s.x.snap size with
  | error e => rfl
  | ok x => cases s.y.snap size <;> rfl

omit [Scalar α] in
theorem mem_nodes_iff {nodes : List (Node α)} {n : Node α} : n ∈ nodes ↔ ∃ p ∈ Placed.ofNodes nodes, p.node = n := by
  rw [← List.mem_map, Placed.map_node_ofNodes]

omit [Scalar α] in
/-- No two nodes have a guide in common. -/
theorem eq_of_guides {nodes : List (Node α)} {p q : Placed α} (hp : p ∈ Placed.ofNodes nodes)
    (hq : q ∈ Placed.ofNodes nodes) (h : p.guides.x = q.guides.x ∨ p.guides.y = q.guides.y) : p = q := by
  obtain ⟨⟨n, i⟩, hn, rfl⟩ := List.mem_map.1 hp
  obtain ⟨⟨m, j⟩, hm, rfl⟩ := List.mem_map.1 hq
  obtain rfl : i = j := h.elim Guide.ofNode.inj Guide.ofNode.inj
  have hget := List.mk_mem_zipIdx_iff_getElem?.1 hn
  rw [List.mk_mem_zipIdx_iff_getElem?.1 hm] at hget
  rw [Option.some.inj hget]

end Snapped

section Spots

variable {size : Float} {nodes : List (Node Float)} {s t : Spot Float}

/-- A coordinate that is a number agrees with those that are equal to it, if it is on a guide with such ones only. -/
theorem Coordinate.agrees_eq {c d : Coordinate Float} (hc : c.value.isNaN = false)
    (h : c.guide ≠ .grid → c.guide = d.guide → c = d) : c.agrees d = (c.value == d.value) := by
  unfold agrees
  by_cases hguide : c.guide ≠ .grid ∧ c.guide = d.guide
  · rw [← h hguide.1 hguide.2, Double.beq_iff.2 ⟨hc, hc, rfl⟩, Bool.or_true]
  · simp [hguide]

theorem Coordinate.agrees_of_snap {c d c' d' : Coordinate Float} (hc : c.snap size = .ok c') (hd : d.snap size = .ok d')
    (hnumber : c'.value.isNaN = false) (h : c.guide = d.guide → c = d) : c'.agrees d' = (c'.value == d'.value) := by
  refine agrees_eq hnumber fun hgrid hsame => ?_
  -- on a guide other than the grid, both of them have been left where they were
  have hc' := (eq_or_grid_of_snap hc).resolve_right hgrid
  have hd' := (eq_or_grid_of_snap hd).resolve_right (hsame ▸ hgrid)
  rw [hc', hd'] at hsame ⊢
  exact h hsame

/-- A spot on which the corner of a node lies when it is snapped. -/
def IsCorner (size : Float) (nodes : List (Node Float)) (s : Spot Float) : Prop :=
  ∃ p ∈ Placed.ofNodes nodes, p.spot.snap size = .ok s

theorem IsCorner.numeric (hsize : size.isFinite = true) (hnodes : ∀ n ∈ nodes, IsFinite n.rect)
    (h : IsCorner size nodes s) : Numeric s.point := by
  obtain ⟨p, hp, hs⟩ := h
  have hpoint := p.spot.point_snap size
  rw [hs] at hpoint
  exact (hnodes _ (mem_nodes_iff.2 ⟨p, hp, rfl⟩)).numeric_corner.snap hsize hpoint.symm

theorem IsCorner.agrees_eq (hs : IsCorner size nodes s) (ht : IsCorner size nodes t) (hnumeric : Numeric s.point) :
    s.x.agrees t.x = (s.point.x == t.point.x) ∧ s.y.agrees t.y = (s.point.y == t.point.y) := by
  obtain ⟨p, hp, hs⟩ := hs
  obtain ⟨q, hq, ht⟩ := ht
  obtain ⟨x, hx, hs⟩ := bind_eq_ok.1 hs
  obtain ⟨y, hy, hs⟩ := bind_eq_ok.1 hs
  obtain ⟨x', hx', ht⟩ := bind_eq_ok.1 ht
  obtain ⟨y', hy', ht⟩ := bind_eq_ok.1 ht
  obtain rfl := Except.ok.inj hs
  obtain rfl := Except.ok.inj ht
  constructor
  · exact Coordinate.agrees_of_snap hx hx' hnumeric.1 fun h => by rw [eq_of_guides hp hq (.inl h)]
  · exact Coordinate.agrees_of_snap hy hy' hnumeric.2 fun h => by rw [eq_of_guides hp hq (.inr h)]

theorem ranksOn_corners (hsize : size.isFinite = true) (hnodes : ∀ n ∈ nodes, IsFinite n.rect) :
    Sorting.RanksOn (fun s t => pairLess (s.x, s.y) (t.x, t.y)) Spot.agrees (IsCorner size nodes)
      fun s => pointRank s.point where
  less_iff {s t} hs ht := by
    have hnumeric := hs.numeric hsize hnodes
    rw [← ranksOn_points.less_iff hnumeric (ht.numeric hsize hnodes)]
    simp only [pairLess, (hs.agrees_eq ht hnumeric).1]
    rfl
  same_iff {s t} hs ht := by
    have hnumeric := hs.numeric hsize hnodes
    rw [← ranksOn_points.same_iff hnumeric (ht.numeric hsize hnodes)]
    unfold Spot.agrees Point.same
    rw [(hs.agrees_eq ht hnumeric).1, (hs.agrees_eq ht hnumeric).2]

end Spots

section Cells

variable {α : Type} [Scalar α] {config : Config α} {nodes : List (Node α)} {size : α}

/-- A node that has a place on the grid. -/
structure Snaps (size : α) (n : Node α) : Prop where
  row : ∃ y, snap n.center.y size = .ok y
  column : ∃ x, snap n.center.x size = .ok x
  corner : ∃ p, n.position.snap size = .ok p

theorem gridCell_eq_ok {p : Placed α} {c : GridCell α} : p.gridCell size = .ok c ↔
    snap p.node.center.y size = .ok c.row ∧ snap p.node.center.x size = .ok c.column ∧
      p.spot.snap size = .ok c.corner := by
  unfold Placed.gridCell
  simp only [bind_eq_ok]
  constructor
  · rintro ⟨row, hrow, column, hcolumn, corner, hcorner, h⟩
    obtain rfl := Except.ok.inj h
    exact ⟨hrow, hcolumn, hcorner⟩
  · rintro ⟨hrow, hcolumn, hcorner⟩
    exact ⟨_, hrow, _, hcolumn, _, hcorner, rfl⟩

theorem position_snap_of_gridCell {p : Placed α} {c : GridCell α} (h : p.gridCell size = .ok c) :
    p.node.position.snap size = .ok c.corner.point := by
  have hpoint := p.spot.point_snap size
  rw [(gridCell_eq_ok.1 h).2.2] at hpoint
  exact hpoint.symm

theorem exists_gridCell_iff {p : Placed α} : (∃ c, p.gridCell size = .ok c) ↔ Snaps size p.node := by
  constructor
  · rintro ⟨c, hc⟩
    obtain ⟨hrow, hcolumn, -⟩ := gridCell_eq_ok.1 hc
    exact ⟨⟨_, hrow⟩, ⟨_, hcolumn⟩, ⟨_, position_snap_of_gridCell hc⟩⟩
  · rintro ⟨⟨y, hy⟩, ⟨x, hx⟩, ⟨q, hq⟩⟩
    have hpoint : (p.spot.snap size).map (·.point) = .ok q := (p.spot.point_snap size).trans hq
    obtain ⟨s, hs, -⟩ := exists_eq_ok_of_map hpoint
    exact ⟨⟨y, x, s⟩, gridCell_eq_ok.2 ⟨hy, hx, hs⟩⟩

/-- A board has the lattice of the cells of its nodes, along some axis. -/
theorem Board.ofNodes_eq_ok_iff {b : Board α} : Board.ofNodes config nodes = .ok b ↔
    ∃ cells, (alongAxis (Placement.primaryAxis config nodes) (Placed.ofNodes nodes)).mapM
        (·.gridCell config.gridSize) = .ok cells ∧
      b = ⟨config, Placed.ofNodes nodes, Lattice.ofCells cells⟩ := by
  unfold Board.ofNodes Board.ofPlaced Lattice.ofPlaced
  simp only [bind_eq_ok, Placed.map_node_ofNodes]
  constructor
  · rintro ⟨lattice, ⟨cells, hcells, hlattice⟩, hb⟩
    obtain rfl := Except.ok.inj hlattice
    exact ⟨cells, hcells, (Except.ok.inj hb).symm⟩
  · rintro ⟨cells, hcells, rfl⟩
    exact ⟨_, ⟨cells, hcells, rfl⟩, rfl⟩

theorem Board.exists_ofNodes_iff :
    (∃ b, Board.ofNodes config nodes = .ok b) ↔ ∀ n ∈ nodes, Snaps config.gridSize n := by
  simp only [ofNodes_eq_ok_iff]
  constructor
  · rintro ⟨b, cells, hcells, -⟩ n hn
    obtain ⟨p, hp, rfl⟩ := mem_nodes_iff.1 hn
    obtain ⟨c, -, hc⟩ := exists_of_mapM_eq_ok hcells (mem_alongAxis.2 hp)
    exact exists_gridCell_iff.1 ⟨c, hc⟩
  · intro hsnaps
    obtain ⟨cells, hcells⟩ := exists_mapM_eq_ok fun p hp =>
      exists_gridCell_iff.2 (hsnaps _ (mem_nodes_iff.2 ⟨p, mem_alongAxis.1 hp, rfl⟩))
    exact ⟨_, cells, hcells, rfl⟩

/-- What is read off the cells is read off the nodes. -/
theorem mem_map_cells {β : Type} {axis : Term Axis} {cells : List (GridCell α)}
    (hcells : (alongAxis axis (Placed.ofNodes nodes)).mapM (·.gridCell size) = .ok cells) (f : GridCell α → β)
    (g : Node α → Except NumberFault β)
    (hfg : ∀ (p : Placed α) c, p.gridCell size = .ok c → g p.node = .ok (f c)) {v : β} :
    v ∈ cells.map f ↔ ∃ n ∈ nodes, g n = .ok v := by
  rw [List.mem_map]
  constructor
  · rintro ⟨c, hc, rfl⟩
    obtain ⟨p, hp, hcell⟩ := exists_of_mem_mapM hcells hc
    exact ⟨p.node, mem_nodes_iff.2 ⟨p, mem_alongAxis.1 hp, rfl⟩, hfg p c hcell⟩
  · rintro ⟨n, hn, hv⟩
    obtain ⟨p, hp, rfl⟩ := mem_nodes_iff.1 hn
    obtain ⟨c, hc, hcell⟩ := exists_of_mapM_eq_ok hcells (mem_alongAxis.2 hp)
    exact ⟨c, hc, Except.ok.inj ((hfg p c hcell).symm.trans hv)⟩

end Cells

/-! ### Lattices -/

/-- The numbers to which a coordinate of some nodes snaps. -/
def Snapped (size : Float) (nodes : List (Node Float)) (coordinate : Node Float → Float) (v : Float) : Prop :=
  ∃ n ∈ nodes, snap (coordinate n) size = .ok v

/-- What the lattice of some nodes consists of: the snapped centres and corners, each of them once and in rising
order. -/
structure Lattice.IsOf (size : Float) (nodes : List (Node Float)) (l : Lattice Float) : Prop where
  snaps : ∀ n ∈ nodes, Snaps size n
  rows : Sorting.Lists (fun a b => decide (a < b)) (· == ·) (Snapped size nodes (·.center.y)) l.rows
  columns : Sorting.Lists (fun a b => decide (a < b)) (· == ·) (Snapped size nodes (·.center.x)) l.columns
  occupied : Sorting.Lists before Point.same (fun p => ∃ n ∈ nodes, n.position.snap size = .ok p) l.occupied

/-- Two lattices with the same rows, columns and places, as numbers. -/
structure Lattice.Same (l l' : Lattice Float) : Prop where
  rows : List.Forall₂ (fun a b => (a == b) = true) l.rows l'.rows
  columns : List.Forall₂ (fun a b => (a == b) = true) l.columns l'.columns
  occupied : List.Forall₂ (fun p q => p.same q = true) l.occupied l'.occupied

section

variable {config : Config Float} {nodes : List (Node Float)} {b : Board Float} {size : Float} {axis : Term Axis}
  {cells : List (GridCell Float)} {coordinate : Node Float → Float}

theorem isNaN_of_snapped (hsize : size.isFinite = true) (hnumber : ∀ n ∈ nodes, (coordinate n).isNaN = false)
    {v : Float} (h : Snapped size nodes coordinate v) : v.isNaN = false := by
  obtain ⟨n, hn, hv⟩ := h
  exact isNaN_of_snap hsize (hnumber n hn) hv

/-- One coordinate of the cells, in rising order. -/
theorem lists_snapped (hsize : size.isFinite = true) (hnumber : ∀ n ∈ nodes, (coordinate n).isNaN = false)
    (hcells : (alongAxis axis (Placed.ofNodes nodes)).mapM (·.gridCell size) = .ok cells) (f : GridCell Float → Float)
    (hf : ∀ (p : Placed Float) c, p.gridCell size = .ok c → snap (coordinate p.node) size = .ok (f c)) :
    Sorting.Lists (fun a b => decide (a < b)) (· == ·) (Snapped size nodes coordinate)
      (Scalar.sorted ((cells.map f).eraseDupsBy (· == ·))) := by
  have hvalues : ∀ v, v ∈ cells.map f ↔ Snapped size nodes coordinate v := fun v =>
    mem_map_cells hcells f (fun n => snap (coordinate n) size) hf
  refine (Sorting.lists_sort_eraseDupsBy ranksOn_doubles fun v hv => ?_).congr hvalues
  exact isNaN_of_snapped hsize hnumber ((hvalues v).1 hv)

/-- The corners of the cells. The spots are compared on their guides, their points by the numbers, which comes to the
same. -/
theorem lists_corners (hsize : size.isFinite = true) (hnodes : ∀ n ∈ nodes, IsFinite n.rect)
    (hcells : (alongAxis axis (Placed.ofNodes nodes)).mapM (·.gridCell size) = .ok cells) :
    Sorting.Lists before Point.same (fun p => ∃ n ∈ nodes, n.position.snap size = .ok p)
      ((sortByPair (fun s => (s.x, s.y)) ((cells.map (·.corner)).eraseDupsBy Spot.agrees)).map (·.point)) := by
  have hpoints : ∀ p, p ∈ cells.map (·.corner.point) ↔ ∃ n ∈ nodes, n.position.snap size = .ok p := fun p =>
    mem_map_cells hcells (·.corner.point) (fun n => n.position.snap size) fun _ _ hc => position_snap_of_gridCell hc
  have hcorners : ∀ s ∈ cells.map (·.corner), IsCorner size nodes s := by
    intro s hs
    obtain ⟨c, hc, rfl⟩ := List.mem_map.1 hs
    obtain ⟨p, hp, hcell⟩ := exists_of_mem_mapM hcells hc
    exact ⟨p, mem_alongAxis.1 hp, (gridCell_eq_ok.1 hcell).2.2⟩
  have hnumeric : ∀ {s}, s ∈ cells.map (·.corner) → Numeric s.point := fun hs =>
    (hcorners _ hs).numeric hsize hnodes
  have hranks := ranksOn_corners hsize hnodes
  have hlists := Sorting.lists_sort_eraseDupsBy hranks hcorners
  refine (hlists.map (f := Spot.point) (fun hs ht h => ?_) fun hs ht h => ?_).congr fun p => ?_
  · exact (ranksOn_points.less_iff (hnumeric hs) (hnumeric ht)).2
      ((hranks.less_iff (hcorners _ hs) (hcorners _ ht)).1 h)
  · exact (ranksOn_points.same_iff (hnumeric hs) (hnumeric ht)).2
      ((hranks.same_iff (hcorners _ hs) (hcorners _ ht)).1 h)
  · rw [← hpoints, ← List.mem_map, List.map_map]
    rfl

theorem isOf_of_ofNodes (hsize : config.gridSize.isFinite = true) (hnodes : ∀ n ∈ nodes, IsFinite n.rect)
    (h : Board.ofNodes config nodes = .ok b) : b.lattice.IsOf config.gridSize nodes := by
  have hsnaps := Board.exists_ofNodes_iff.1 ⟨b, h⟩
  obtain ⟨cells, hcells, rfl⟩ := Board.ofNodes_eq_ok_iff.1 h
  exact {
    snaps := hsnaps
    rows := lists_snapped hsize (fun n hn => (hnodes n hn).numeric_center.2) hcells (·.row)
      fun _ _ hc => (gridCell_eq_ok.1 hc).1
    columns := lists_snapped hsize (fun n hn => (hnodes n hn).numeric_center.1) hcells (·.column)
      fun _ _ hc => (gridCell_eq_ok.1 hc).2.1
    occupied := lists_corners hsize hnodes hcells }

theorem Lattice.IsOf.same {l l' : Lattice Float} (hsize : size.isFinite = true) (hnodes : ∀ n ∈ nodes, IsFinite n.rect)
    (h : l.IsOf size nodes) (h' : l'.IsOf size nodes) : l.Same l' where
  rows := h.rows.forall₂_same ranksOn_doubles
    (fun _ => isNaN_of_snapped hsize fun n hn => (hnodes n hn).numeric_center.2) h'.rows
  columns := h.columns.forall₂_same ranksOn_doubles
    (fun _ => isNaN_of_snapped hsize fun n hn => (hnodes n hn).numeric_center.1) h'.columns
  occupied := by
    refine h.occupied.forall₂_same ranksOn_points ?_ h'.occupied
    rintro p ⟨n, hn, hp⟩
    exact (hnodes n hn).numeric_corner.snap hsize hp

theorem Lattice.IsOf.perm {l : Lattice Float} {nodes' : List (Node Float)} (h : l.IsOf size nodes)
    (hnodes : nodes'.Perm nodes) : l.IsOf size nodes' where
  snaps n hn := h.snaps n (hnodes.mem_iff.1 hn)
  rows := h.rows.congr fun _ => exists_congr fun _ => and_congr_left' hnodes.mem_iff.symm
  columns := h.columns.congr fun _ => exists_congr fun _ => and_congr_left' hnodes.mem_iff.symm
  occupied := h.occupied.congr fun _ => exists_congr fun _ => and_congr_left' hnodes.mem_iff.symm

/-- The lattice of nodes with finite coordinates and sizes has the snapped centres and corners in it, each once and in
rising order. With the same grid, the nodes in any other order have the same lattice, whatever else is set. -/
theorem lattice_determined (hsize : config.gridSize.isFinite = true) (hnodes : ∀ n ∈ nodes, IsFinite n.rect)
    (h : Board.ofNodes config nodes = .ok b) : b.lattice.IsOf config.gridSize nodes ∧
      ∀ (config' : Config Float) (nodes' : List (Node Float)), config'.gridSize = config.gridSize →
        nodes'.Perm nodes → ∃ b', Board.ofNodes config' nodes' = .ok b' ∧ b.lattice.Same b'.lattice := by
  have hlattice := isOf_of_ofNodes hsize hnodes h
  refine ⟨hlattice, fun config' nodes' hconfig hperm => ?_⟩
  have hsnaps : ∀ n ∈ nodes', Snaps config'.gridSize n := by
    rw [hconfig]
    exact (hlattice.perm hperm).snaps
  obtain ⟨b', hb'⟩ := Board.exists_ofNodes_iff.2 hsnaps
  have hlattice' : b'.lattice.IsOf config.gridSize nodes' := by
    rw [← hconfig] at hsize ⊢
    exact isOf_of_ofNodes hsize (fun n hn => hnodes n (hperm.mem_iff.1 hn)) hb'
  exact ⟨b', hb', hlattice.same hsize hnodes (hlattice'.perm hperm.symm)⟩

end

/-- Three nodes, two of which share a row of the grid and two a column, gone through in both directions and along either
axis. -/
theorem lattice_determined_reverse :
    ∃ (config config' : Config Float) (nodes : List (Node Float)) (b b' : Board Float),
      config = .standard ∧ config' = { config with minSpacing := 50, preferredAxis := .known .vertical } ∧
      nodes = [⟨"a", .known .process, ⟨0, 0, 200, 80⟩, "", .absent, Hook.defaults "a"⟩,
        ⟨"b", .known .decision, ⟨300, 3, 200, 80⟩, "", .absent, Hook.defaults "b"⟩,
        ⟨"c", .known .process, ⟨310, 400, 200, 80⟩, "", .absent, Hook.defaults "c"⟩] ∧
      config.gridSize.isFinite = true ∧ (∀ n ∈ nodes, IsFinite n.rect) ∧ Board.ofNodes config nodes = .ok b ∧
      b.lattice.IsOf config.gridSize nodes ∧ Board.ofNodes config' nodes.reverse = .ok b' ∧
      b.lattice.Same b'.lattice ∧ primaryAxis config nodes = .known .horizontal ∧
      primaryAxis config' nodes.reverse = .known .vertical ∧
      b.lattice = ⟨[40, 440], [100, 400], [⟨0, 0⟩, ⟨300, 0⟩, ⟨320, 400⟩]⟩ := by
  let config : Config Float := .standard
  let nodes : List (Node Float) := [⟨"a", .known .process, ⟨0, 0, 200, 80⟩, "", .absent, Hook.defaults "a"⟩,
    ⟨"b", .known .decision, ⟨300, 3, 200, 80⟩, "", .absent, Hook.defaults "b"⟩,
    ⟨"c", .known .process, ⟨310, 400, 200, 80⟩, "", .absent, Hook.defaults "c"⟩]
  have hsize : config.gridSize.isFinite = true := by decide +kernel
  have hnodes : ∀ n ∈ nodes, IsFinite n.rect := by
    have hall : ∀ n ∈ nodes, n.rect.x.isFinite = true ∧ n.rect.y.isFinite = true ∧ n.rect.width.isFinite = true ∧
        n.rect.height.isFinite = true := by decide +kernel
    exact fun n hn => ⟨(hall n hn).1, (hall n hn).2.1, (hall n hn).2.2.1, (hall n hn).2.2.2⟩
  have hboard : (Board.ofNodes config nodes).map (·.lattice) =
      .ok ⟨[40, 440], [100, 400], [⟨0, 0⟩, ⟨300, 0⟩, ⟨320, 400⟩]⟩ := by decide +kernel
  obtain ⟨b, hb, hlattice⟩ := exists_eq_ok_of_map hboard
  obtain ⟨hlists, hsame⟩ := lattice_determined hsize hnodes hb
  obtain ⟨b', hb', hsame⟩ := hsame { config with minSpacing := 50, preferredAxis := .known .vertical } nodes.reverse rfl
    nodes.reverse_perm
  exact ⟨config, _, nodes, b, b', rfl, rfl, rfl, hsize, hnodes, hb, hlists, hb', hsame, by decide +kernel,
    by decide +kernel, hlattice⟩

end Flowchart.Placement
