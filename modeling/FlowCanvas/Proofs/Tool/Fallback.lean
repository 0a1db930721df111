import FlowCanvas.Proofs.Tool.Clearance

/-! Tools without an anchor. They begin in the fallback area, whose corner is the first cell, and
they never leave it: cells go on to the right and down, so do the places near a first one, and what
is beyond everything is to the right of the area's corner too. Snapping keeps them in the area, as
its corner is on the grid. -/

namespace FlowCanvas.Scene

variable (scene : Scene Rat) (s : LayoutSettings Rat)

/-- Neither left of nor above the first fallback cell. -/
structure InArea (p : Point Rat) : Prop where
  left : (scene.fallbackOrigin s).x ≤ p.x
  top : (scene.fallbackOrigin s).y ≤ p.y

def Covered : Prop := ∃ r ∈ scene.groups ++ scene.steps, scene.fallbackBounds.right ≤ r.right

variable {scene s} {p : Point Rat}

theorem InArea.shift (h : scene.InArea s p) {dx dy : Rat} (hx : 0 ≤ dx) (hy : 0 ≤ dy) :
    scene.InArea s ⟨p.x + dx, p.y + dy⟩ :=
  ⟨le_add_of_le_of_nonneg h.left hx, le_add_of_le_of_nonneg h.top hy⟩

section Grid

variable (hgrid : 0 < s.gridSize)

include hgrid

theorem fallbackOrigin_onGrid (scene : Scene Rat) :
    (scene.fallbackOrigin s).OnGrid s.gridSize :=
  ⟨Grid.snapUp_onGrid hgrid _, Grid.snap_onGrid hgrid _⟩

theorem le_snap_of_onGrid {x y : Rat} (hx : Grid.OnGrid s.gridSize x) (h : x ≤ y) :
    x ≤ Grid.snap y s.gridSize := by
  have hmono := Grid.snap_mono s.gridSize h
  simp only [Grid.snap_of_onGrid hgrid hx] at hmono
  exact hmono

theorem InArea.snapPoint (h : scene.InArea s p) :
    scene.InArea s (Grid.snapPoint p s.gridSize) := by
  obtain ⟨hx, hy⟩ := fallbackOrigin_onGrid hgrid scene
  exact ⟨le_snap_of_onGrid hgrid hx h.left, le_snap_of_onGrid hgrid hy h.top⟩

theorem beyond_inArea (hcovered : scene.Covered) (placed : List (Rect Rat)) {y : Rat}
    (hy : (scene.fallbackOrigin s).y ≤ y) : scene.InArea s (scene.beyond s placed y) := by
  obtain ⟨r, hr, hright⟩ := hcovered
  have hclear := beyond_clear scene s placed y (Or.inl hr)
  constructor
  · -- The area starts at the least multiple that the gap allows, and this is another one.
    refine (Grid.snapUp_isLeast hgrid _).2 ⟨(beyond_onGrid scene s hgrid placed y).1, ?_⟩
    linarith
  · exact le_snap_of_onGrid hgrid (fallbackOrigin_onGrid hgrid scene).2 hy

variable (hwidth : 0 ≤ s.toolWidth + s.tools.separation)
  (hheight : 0 ≤ s.toolHeight + s.tools.separation)

include hwidth hheight

theorem cell_inArea (k : Nat) : scene.InArea s (scene.cell s k) := by
  have hcorner : scene.InArea s (scene.fallbackOrigin s) := ⟨le_rfl, le_rfl⟩
  exact (hcorner.shift (mul_nonneg (Nat.cast_nonneg _) hwidth)
    (mul_nonneg (Nat.cast_nonneg _) hheight)).snapPoint hgrid

theorem nudges_inArea (h : scene.InArea s p) : ∀ q ∈ nudges s p, scene.InArea s q := by
  intro q hq
  obtain ⟨r, hr, rfl⟩ := List.mem_map.mp hq
  refine InArea.snapPoint hgrid ?_
  rcases List.mem_append.mp hr with hnear | hfurther
  · simp only [List.mem_cons, List.not_mem_nil, or_false] at hnear
    rcases hnear with rfl | rfl | rfl
    · simpa using h.shift hwidth le_rfl
    · simpa using h.shift le_rfl hheight
    · exact h.shift hwidth hheight
  · obtain ⟨k, -, rfl⟩ := List.mem_map.mp hfurther
    simpa using h.shift le_rfl (mul_nonneg hheight (Nat.cast_nonneg k))

variable (hcovered : scene.Covered) {f : Frames Rat} {edges : List Edge}

include hcovered

theorem seat_inArea (placed : List (Rect Rat)) (k : Nat) {tool : String}
    (hfree : scene.anchored? s f edges tool = none) :
    scene.InArea s (scene.seat s f edges placed k tool).1.position := by
  rw [seat, hfree]
  dsimp only
  split
  · rename_i p next hp
    obtain ⟨j, rfl, -⟩ :=
      scene.freeCell?_spec s placed s.tools.fallbackAttempts k (p := p) (by rw [hp])
    exact cell_inArea hgrid hwidth hheight j
  · exact beyond_inArea hgrid hcovered placed le_rfl

theorem seats_inArea (tools : List String) (placed : List (Rect Rat)) (k : Nat) :
    ∀ t ∈ scene.seats s f edges placed k tools,
      scene.anchored? s f edges t.id = none → scene.InArea s t.position := by
  induction tools generalizing placed k with
  | nil => exact List.forall_mem_nil _
  | cons tool rest ih =>
    intro t ht hfree
    rcases List.mem_cons.mp ht with (hhead : t = (scene.seat s f edges placed k tool).1) | ht
    · rw [hhead, seat_id] at hfree
      rw [hhead]
      exact seat_inArea hgrid hwidth hheight hcovered placed k hfree
    · exact ih _ _ t ht hfree

theorem settle_inArea (placed : List (Rect Rat)) {t : ToolPlace Rat}
    (h : scene.InArea s t.position) : scene.InArea s (scene.settle s placed t).position := by
  rcases scene.settle_cases s placed t with ⟨-, hstay⟩ | ⟨p, hp, -, -, hnudge⟩ | hbeyond
  · rw [hstay]
    exact h
  · rw [hnudge]
    exact nudges_inArea hgrid hwidth hheight h p hp
  · rw [hbeyond]
    exact beyond_inArea hgrid hcovered placed h.top

theorem placeTools_inArea {t : ToolPlace Rat} (ht : t ∈ scene.placeTools s f edges)
    (hfree : scene.anchored? s f edges t.id = none) : scene.InArea s t.position := by
  obtain ⟨before, first, hfirst, rfl⟩ := mem_settleAll scene s ht
  rw [settle_id] at hfree
  exact settle_inArea hgrid hwidth hheight hcovered before
    (seats_inArea hgrid hwidth hheight hcovered _ [] 0 first hfirst hfree)

end Grid

end FlowCanvas.Scene
