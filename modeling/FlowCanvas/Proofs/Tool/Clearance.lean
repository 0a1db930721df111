import FlowCanvas.Proofs.Exact.Rect
import FlowCanvas.Proofs.Tool.Seat

/-! Clearance of tools. A tool that settles stands over no group and crowds none of the tools that
are placed before it: it stays or is nudged only where that is so, and beyond everything there is
nothing left to touch. By induction over the tools no two of them crowd each other. -/

namespace FlowCanvas

def ToolPlace.rect (s : LayoutSettings Rat) (t : ToolPlace Rat) : Rect Rat :=
  Rect.ofCorner t.position s.toolSize

namespace Scene

variable (scene : Scene Rat) (s : LayoutSettings Rat)

theorem right_le_bounds {b r : Rect Rat} (hb : scene.bounds? = some b)
    (hr : r ∈ scene.groups ++ scene.steps) : r.right ≤ b.right :=
  (Rect.contains_iff.mp (Rect.enclosing?_contains hb r hr)).2.2.1

theorem beyond_clear (placed : List (Rect Rat)) (y : Rat) {r : Rect Rat}
    (hr : r ∈ scene.groups ++ scene.steps ∨ r ∈ placed) :
    r.right + s.tools.gap ≤ (scene.beyond s placed y).x := by
  have hmax : ∃ z ∈ (scene.bounds?.toList ++ placed).map Rect.right, r.right ≤ z := by
    rcases hr with hr | hr
    · cases hb : scene.bounds? with
      | none =>
        rw [(Rect.enclosing?_eq_none _).mp hb] at hr
        cases hr
      | some b => exact ⟨b.right, by simp, right_le_bounds scene hb hr⟩
    · exact ⟨r.right, List.mem_map_of_mem (List.mem_append_right _ hr), le_rfl⟩
  obtain ⟨z, hz, hrz⟩ := hmax
  unfold beyond
  cases hx : Scalar.greatest? ((scene.bounds?.toList ++ placed).map Rect.right) with
  | none =>
    rw [Scalar.greatest?_eq_none.mp hx] at hz
    cases hz
  | some right =>
    have hzr := (Scalar.greatest?_spec hx).2 z hz
    have hup := Grid.le_snapUp (right + s.tools.gap) s.gridSize
    simp only [Scalar.isFinite_rat, if_true]
    linarith

theorem settle_spec (placed : List (Rect Rat)) (t : ToolPlace Rat) :
    let place := scene.settle s placed t
    (scene.clear s placed (place.rect s) = true ∧
        (place.position = t.position ∨ place.position ∈ nudges s t.position)) ∨
      place.position = scene.beyond s placed t.position.y := by
  dsimp only
  rcases scene.settle_cases s placed t with ⟨hclear, hstay⟩ | ⟨p, hp, hclear, -, hnudge⟩ | hbeyond
  · rw [hstay]
    exact Or.inl ⟨hclear, Or.inl rfl⟩
  · rw [hnudge]
    exact Or.inl ⟨hclear, Or.inr hp⟩
  · rw [hbeyond]
    exact Or.inr rfl

theorem settle_off_groups (hgap : 0 ≤ s.tools.gap) (placed : List (Rect Rat)) (t : ToolPlace Rat) :
    ∀ g ∈ scene.groups, ((scene.settle s placed t).rect s).intersects g = false := by
  intro g hg
  rcases settle_spec scene s placed t with ⟨hclear, -⟩ | hbeyond
  · exact ((clear_iff scene s).mp hclear).1 g hg
  · have hx := beyond_clear scene s placed t.position.y
      (Or.inl (List.mem_append_left scene.steps hg))
    have hleft : ((scene.settle s placed t).rect s).x = (scene.beyond s placed t.position.y).x := by
      rw [ToolPlace.rect, hbeyond, Rect.ofCorner]
    have hapart : Direction.leftRight.Precedes g ((scene.settle s placed t).rect s) := by
      simp only [Direction.Precedes, Direction.stop, Direction.start, hleft]
      linarith
    exact hapart.not_intersects'

theorem settle_clear (hgap : 0 ≤ s.tools.gap) (hsep : s.tools.separation ≤ s.tools.gap)
    (placed : List (Rect Rat)) (t : ToolPlace Rat) :
    scene.clear s placed ((scene.settle s placed t).rect s) = true := by
  rcases settle_spec scene s placed t with ⟨hclear, -⟩ | hbeyond
  · exact hclear
  · refine (clear_iff scene s).mpr ⟨settle_off_groups scene s hgap placed t, fun u hu => ?_⟩
    have hx := beyond_clear scene s placed t.position.y (Or.inr hu)
    have hleft : ((scene.settle s placed t).rect s).x = (scene.beyond s placed t.position.y).x := by
      rw [ToolPlace.rect, hbeyond, Rect.ofCorner]
    rw [Bool.eq_false_iff, ne_eq, Rect.crowds_iff, hleft]
    intro h
    linarith [h.1]

theorem mem_settleAll {ts : List (ToolPlace Rat)} {placed : List (Rect Rat)} {u : ToolPlace Rat}
    (hu : u ∈ scene.settleAll s placed ts) :
    ∃ before, ∃ t ∈ ts, u = scene.settle s before t := by
  obtain ⟨before, after, hsplit⟩ := List.append_of_mem hu
  obtain ⟨t, ht, hsettle⟩ := settleAll_split scene s hsplit
  exact ⟨_, t, ht, hsettle⟩

theorem settleAll_off_groups (hgap : 0 ≤ s.tools.gap) {ts : List (ToolPlace Rat)}
    {placed : List (Rect Rat)} {u : ToolPlace Rat} (hu : u ∈ scene.settleAll s placed ts) :
    ∀ g ∈ scene.groups, (u.rect s).intersects g = false := by
  obtain ⟨before, t, -, rfl⟩ := mem_settleAll scene s hu
  exact settle_off_groups scene s hgap before t

theorem settleAll_clear (hgap : 0 ≤ s.tools.gap) (hsep : s.tools.separation ≤ s.tools.gap)
    (ts : List (ToolPlace Rat)) (placed : List (Rect Rat)) :
    let places := scene.settleAll s placed ts
    (∀ t ∈ places, scene.clear s placed (t.rect s) = true) ∧
      places.Pairwise fun t u => (t.rect s).crowds (u.rect s) s.tools.separation = false := by
  induction ts generalizing placed with
  | nil => simp [settleAll]
  | cons t ts ih =>
    have ht := settle_clear scene s hgap hsep placed t
    obtain ⟨hclear, hpair⟩ := ih (placed ++ [(scene.settle s placed t).rect s])
    dsimp only [settleAll]
    constructor
    · intro u hu
      rcases List.mem_cons.mp hu with rfl | hu
      · exact ht
      · have h := (clear_iff scene s).mp (hclear u hu)
        exact (clear_iff scene s).mpr ⟨h.1, fun r hr => h.2 r (List.mem_append_left _ hr)⟩
    · refine List.Pairwise.cons ?_ hpair
      intro u hu
      have h := (clear_iff scene s).mp (hclear u hu)
      rw [Rect.crowds_comm]
      exact h.2 _ (List.mem_append_right _ (List.mem_singleton_self _))

theorem beyond_onGrid (hg : 0 < s.gridSize) (placed : List (Rect Rat)) (y : Rat) :
    (scene.beyond s placed y).OnGrid s.gridSize := by
  unfold beyond
  refine ⟨?_, Grid.snap_onGrid hg y⟩
  dsimp only
  split
  · exact Grid.snapUp_onGrid hg _
  · exact Grid.OnGrid.zero

theorem freeCell?_onGrid (hg : 0 < s.gridSize) (placed : List (Rect Rat)) (attempts k : Nat)
    {p : Point Rat} (hp : (scene.freeCell? s placed attempts k).1 = some p) :
    p.OnGrid s.gridSize := by
  obtain ⟨j, rfl, -⟩ := scene.freeCell?_spec s placed attempts k hp
  exact Grid.snapPoint_onGrid hg _

theorem seat_onGrid (hg : 0 < s.gridSize) (f : Frames Rat) (edges : List Edge)
    (placed : List (Rect Rat)) (k : Nat) (tool : String) :
    (scene.seat s f edges placed k tool).1.position.OnGrid s.gridSize := by
  unfold seat
  split
  · rename_i p hp
    obtain ⟨anchor, -, hfind⟩ := Option.bind_eq_some_iff.mp hp
    obtain ⟨q, -, rfl⟩ := List.mem_map.mp (List.mem_of_find?_eq_some hfind)
    exact Grid.snapPoint_onGrid hg q
  · split
    · rename_i p k' hp
      exact freeCell?_onGrid scene s hg placed s.tools.fallbackAttempts k (by rw [hp])
    · exact beyond_onGrid scene s hg placed _

theorem seats_onGrid (hg : 0 < s.gridSize) (f : Frames Rat) (edges : List Edge)
    (tools : List String) (placed : List (Rect Rat)) (k : Nat) :
    ∀ t ∈ scene.seats s f edges placed k tools, t.position.OnGrid s.gridSize := by
  induction tools generalizing placed k with
  | nil => simp [seats]
  | cons tool rest ih =>
    intro t ht
    rcases List.mem_cons.mp ht with rfl | ht
    · exact seat_onGrid scene s hg f edges placed k tool
    · exact ih _ _ t ht

theorem settle_onGrid (hg : 0 < s.gridSize) (placed : List (Rect Rat)) {t : ToolPlace Rat}
    (ht : t.position.OnGrid s.gridSize) :
    (scene.settle s placed t).position.OnGrid s.gridSize := by
  rcases settle_spec scene s placed t with ⟨-, hstay | hnudge⟩ | hbeyond
  · rw [hstay]
    exact ht
  · obtain ⟨q, -, hq⟩ := List.mem_map.mp hnudge
    rw [← hq]
    exact Grid.snapPoint_onGrid hg q
  · rw [hbeyond]
    exact beyond_onGrid scene s hg placed _

theorem placeTools_onGrid (hg : 0 < s.gridSize) (f : Frames Rat) (edges : List Edge) :
    ∀ t ∈ scene.placeTools s f edges, t.position.OnGrid s.gridSize := by
  intro u hu
  obtain ⟨before, t, ht, rfl⟩ := mem_settleAll scene s hu
  exact settle_onGrid scene s hg before (seats_onGrid scene s hg f edges _ [] 0 t ht)

end Scene

end FlowCanvas
