import FlowCanvas.Arrangement
import FlowCanvas.Proofs.Flow.Packing

/-! Separation of slots on the canvas. The boxes of two slots of a flow are apart by the spacing of
the ranks along the flow if their ranks differ, and by the spacing of the nodes across it if not.
Snapping costs at most one step of the grid. -/

namespace FlowCanvas

namespace Rect

def ofCenter (center : Point Rat) (size : Size Rat) : Rect Rat :=
  ofCorner (Plan.cornerOf center size) size

def snapped (grid : Rat) (r : Rect Rat) : Rect Rat :=
  ofCorner (Grid.snapPoint r.origin grid) ⟨r.width, r.height⟩

end Rect

namespace Direction

def Gap (dir : Direction) (gap : Rat) (r t : Rect Rat) : Prop := dir.stop r + gap ≤ dir.start t

theorem crosswise_along (dir : Direction) (size : Size Rat) :
    dir.crosswise.along size = dir.across size := by
  cases dir <;> rfl

theorem crosswise_point (dir : Direction) (a c : Rat) :
    dir.crosswise.point c a = dir.point a c := by
  cases dir <;> rfl

theorem start_ofCenter (dir : Direction) (a c : Rat) (p : Size Rat) :
    dir.start (Rect.ofCenter (dir.point a c) p) = a - dir.along p / 2 := by
  cases dir <;> rfl

theorem start_ofCenter_across (dir : Direction) (a c : Rat) (p : Size Rat) :
    dir.crosswise.start (Rect.ofCenter (dir.point a c) p) = c - dir.across p / 2 := by
  rw [← crosswise_point, start_ofCenter, crosswise_along]

theorem stop_ofCenter (dir : Direction) (a c : Rat) (p : Size Rat) :
    dir.stop (Rect.ofCenter (dir.point a c) p) = a + dir.along p / 2 := by
  rw [stop_eq, start_ofCenter]
  change a - dir.along p / 2 + dir.along p = a + dir.along p / 2
  ring

theorem stop_ofCenter_across (dir : Direction) (a c : Rat) (p : Size Rat) :
    dir.crosswise.stop (Rect.ofCenter (dir.point a c) p) = c + dir.across p / 2 := by
  rw [← crosswise_point, stop_ofCenter, crosswise_along]

theorem start_snapped (dir : Direction) (grid : Rat) (r : Rect Rat) :
    dir.start (r.snapped grid) = Grid.snap (dir.start r) grid := by
  cases dir <;> rfl

theorem Gap.snapped {dir : Direction} {grid gap : Rat} {r t : Rect Rat} (hg : 0 < grid)
    (h : dir.Gap gap r t) : dir.Gap (gap - grid) (r.snapped grid) (t.snapped grid) := by
  cases dir <;> exact Grid.snap_clear hg h

def boxAt (grid : Rat) (center : Point Rat) (size : Size Rat) : Rect Rat :=
  Rect.ofCorner (Grid.snapPoint (Plan.cornerOf center size) grid) size

end Direction

namespace Flow

variable (s : LayoutSettings Rat) (flow : Flow Rat)

def box (slot : Nat) : Rect Rat :=
  Direction.boxAt s.gridSize ((flow.centers s).getD slot Point.origin) (flow.sizeAt slot)

def loose (slot : Nat) : Rect Rat :=
  Rect.ofCenter ((flow.centers s).getD slot Point.origin) (flow.sizeAt slot)

theorem box_eq (slot : Nat) : flow.box s slot = (flow.loose s slot).snapped s.gridSize := rfl

theorem centers_getD {slot : Nat} (h : slot < flow.sizes.length) :
    (flow.centers s).getD slot Point.origin =
      s.direction.point (centerOf (flow.bands s s.margin flow.layers) slot)
        (centerOf (flow.settled s) slot + flow.toMargin s (flow.settled s)) := by
  simp [centers, slots, h]

variable {flow} {slot : Nat}

theorem loose_start (h : slot < flow.sizes.length) : s.direction.start (flow.loose s slot) =
    centerOf (flow.bands s s.margin flow.layers) slot - flow.depth s slot / 2 := by
  rw [loose, centers_getD s flow h, Direction.start_ofCenter]
  rfl

theorem loose_stop (h : slot < flow.sizes.length) : s.direction.stop (flow.loose s slot) =
    centerOf (flow.bands s s.margin flow.layers) slot + flow.depth s slot / 2 := by
  rw [loose, centers_getD s flow h, Direction.stop_ofCenter]
  rfl

theorem loose_start_across (h : slot < flow.sizes.length) :
    s.direction.crosswise.start (flow.loose s slot) =
      centerOf (flow.settled s) slot + flow.toMargin s (flow.settled s) - flow.half s slot := by
  rw [loose, centers_getD s flow h, Direction.start_ofCenter_across]
  rfl

theorem loose_stop_across (h : slot < flow.sizes.length) :
    s.direction.crosswise.stop (flow.loose s slot) =
      centerOf (flow.settled s) slot + flow.toMargin s (flow.settled s) + flow.half s slot := by
  rw [loose, centers_getD s flow h, Direction.stop_ofCenter_across]
  rfl

variable {ranks : List Nat} (hg : 0 < s.gridSize) (hp : Layers.Partition flow.layers ranks)
  (hlen : ranks.length = flow.sizes.length) {a b i j : Nat}

include hlen

theorem lt_sizes_of_rank (ha : ranks[a]? = some i) : a < flow.sizes.length :=
  hlen ▸ (List.getElem?_eq_some_iff.mp ha).1

include hp

theorem loose_gap_of_rank_lt (hspacing : 0 ≤ s.rankSpacing) (ha : ranks[a]? = some i)
    (hb : ranks[b]? = some j) (hij : i < j) :
    s.direction.Gap s.rankSpacing (flow.loose s a) (flow.loose s b) := by
  have hapart := bands_apart s flow hspacing hp.flatten_nodup s.margin hij
    ((hp.mem_iff i a).mpr ha) ((hp.mem_iff j b).mpr hb)
  rwa [Direction.Gap, loose_stop s (lt_sizes_of_rank hlen ha),
    loose_start s (lt_sizes_of_rank hlen hb)]

theorem loose_gap_of_rank_eq (hspacing : 0 ≤ s.nodeSpacing)
    (hhalf : ∀ slot, 0 ≤ flow.half s slot) (ha : ranks[a]? = some i) (hb : ranks[b]? = some i)
    (hab : a ≠ b) :
    s.direction.crosswise.Gap s.nodeSpacing (flow.loose s a) (flow.loose s b) ∨
      s.direction.crosswise.Gap s.nodeSpacing (flow.loose s b) (flow.loose s a) := by
  have hma := (hp.mem_iff i a).mpr ha
  have hmb := (hp.mem_iff i b).mpr hb
  have hlayer : flow.layers.getD i [] ∈ flow.layers := by
    by_cases hi : i < flow.layers.length
    · simp [hi]
    · simp [hi] at hma
  have hapart := settled_apart s flow hspacing hhalf hp.flatten_nodup hlayer
  have key {x y : Nat} (hx : ranks[x]? = some i) (hy : ranks[y]? = some i)
      (h : flow.Clear s (x, centerOf (flow.settled s) x) (y, centerOf (flow.settled s) y)) :
      s.direction.crosswise.Gap s.nodeSpacing (flow.loose s x) (flow.loose s y) := by
    simp only [Clear] at h
    rw [Direction.Gap, loose_stop_across s (lt_sizes_of_rank hlen hx),
      loose_start_across s (lt_sizes_of_rank hlen hy)]
    linarith
  rcases hapart.clear s flow hma hmb hab with h | h
  · exact Or.inl (key ha hb h)
  · exact Or.inr (key hb ha h)

include hg

theorem box_clear_of_rank_lt (hspacing : 0 ≤ s.rankSpacing) (ha : ranks[a]? = some i)
    (hb : ranks[b]? = some j) (hij : i < j) :
    s.direction.stop (flow.box s a) + (s.rankSpacing - s.gridSize) ≤
      s.direction.start (flow.box s b) := by
  rw [box_eq, box_eq]
  exact (loose_gap_of_rank_lt s hp hlen hspacing ha hb hij).snapped hg

theorem box_clear_of_rank_eq (hspacing : 0 ≤ s.nodeSpacing)
    (hhalf : ∀ slot, 0 ≤ flow.half s slot) (ha : ranks[a]? = some i) (hb : ranks[b]? = some i)
    (hab : a ≠ b) :
    s.direction.crosswise.stop (flow.box s a) + (s.nodeSpacing - s.gridSize) ≤
        s.direction.crosswise.start (flow.box s b) ∨
      s.direction.crosswise.stop (flow.box s b) + (s.nodeSpacing - s.gridSize) ≤
        s.direction.crosswise.start (flow.box s a) := by
  rw [box_eq, box_eq]
  rcases loose_gap_of_rank_eq s hp hlen hspacing hhalf ha hb hab with h | h
  · exact Or.inl (h.snapped hg)
  · exact Or.inr (h.snapped hg)

theorem box_precedes_of_rank_lt (hspacing : s.gridSize ≤ s.rankSpacing) (ha : ranks[a]? = some i)
    (hb : ranks[b]? = some j) (hij : i < j) :
    s.direction.Precedes (flow.box s a) (flow.box s b) := by
  have hclear := box_clear_of_rank_lt s hg hp hlen (by linarith) ha hb hij
  unfold Direction.Precedes
  linarith

theorem box_start_lt_of_rank_lt (hspacing : s.gridSize ≤ s.rankSpacing)
    (hdepth : 0 ≤ s.direction.along (flow.sizeAt a)) (ha : ranks[a]? = some i)
    (hb : ranks[b]? = some j) (hij : i < j) :
    s.direction.start (flow.box s a) < s.direction.start (flow.box s b) := by
  have hgap := loose_gap_of_rank_lt s hp hlen (by linarith) ha hb hij
  have hstop : s.direction.stop (flow.loose s a) =
      s.direction.start (flow.loose s a) + s.direction.along (flow.sizeAt a) :=
    s.direction.stop_eq _
  rw [box_eq, box_eq, Direction.start_snapped, Direction.start_snapped]
  apply Grid.snap_lt hg
  rw [Direction.Gap, hstop] at hgap
  linarith

theorem box_precedes_of_rank_eq (hspacing : s.gridSize ≤ s.nodeSpacing)
    (hhalf : ∀ slot, 0 ≤ flow.half s slot) (ha : ranks[a]? = some i) (hb : ranks[b]? = some i)
    (hab : a ≠ b) :
    s.direction.crosswise.Precedes (flow.box s a) (flow.box s b) ∨
      s.direction.crosswise.Precedes (flow.box s b) (flow.box s a) := by
  unfold Direction.Precedes
  rcases box_clear_of_rank_eq s hg hp hlen (by linarith) hhalf ha hb hab with h | h
  · exact Or.inl (by linarith)
  · exact Or.inr (by linarith)

end Flow

end FlowCanvas
