import FlowCanvas.Grid
import FlowCanvas.Proofs.Exact.Scalar

/-! The grid in exact arithmetic. Snapping gives a multiple of the grid that is at most half a step
away; snapping up and down give the nearest multiple on that side. Snapping changes no order, and
two things that are a whole step apart stay apart when both are snapped. -/

namespace FlowCanvas

def Grid.OnGrid (grid x : Rat) : Prop := ∃ k : Int, x = k * grid

def Point.OnGrid (grid : Rat) (p : Point Rat) : Prop := Grid.OnGrid grid p.x ∧ Grid.OnGrid grid p.y

namespace Grid

variable {grid x y : Rat}

theorem OnGrid.zero : OnGrid grid 0 := ⟨0, by simp⟩

theorem OnGrid.add (hx : OnGrid grid x) (hy : OnGrid grid y) : OnGrid grid (x + y) := by
  obtain ⟨k, rfl⟩ := hx
  obtain ⟨m, rfl⟩ := hy
  exact ⟨k + m, by push_cast; ring⟩

theorem OnGrid.sub (hx : OnGrid grid x) (hy : OnGrid grid y) : OnGrid grid (x - y) := by
  obtain ⟨k, rfl⟩ := hx
  obtain ⟨m, rfl⟩ := hy
  exact ⟨k - m, by push_cast; ring⟩

theorem unsigned_rat (x : Rat) : unsigned x = x := by
  unfold unsigned
  split
  · rename_i h
    exact (eq_of_beq h).symm
  · rfl

theorem toMultiple_of_pos (hg : 0 < grid) (whole : Rat → Rat) (x : Rat) :
    toMultiple whole x grid = whole (x / grid) * grid := by
  have h : ¬ grid ≤ Scalar.zero := not_le.mpr hg
  rw [toMultiple, if_neg h, unsigned_rat]

theorem toMultiple_of_not_pos (hg : ¬ 0 < grid) (whole : Rat → Rat) (x : Rat) :
    toMultiple whole x grid = x := by
  have h : grid ≤ Scalar.zero := not_lt.mp hg
  rw [toMultiple, if_pos h]

theorem snap_eq (hg : 0 < grid) (x : Rat) : snap x grid = Scalar.round (x / grid) * grid :=
  toMultiple_of_pos hg _ x

theorem snapUp_eq (hg : 0 < grid) (x : Rat) : snapUp x grid = (x / grid).ceil * grid :=
  toMultiple_of_pos hg _ x

theorem snapDown_eq (hg : 0 < grid) (x : Rat) : snapDown x grid = (x / grid).floor * grid :=
  toMultiple_of_pos hg _ x

theorem snap_onGrid (hg : 0 < grid) (x : Rat) : OnGrid grid (snap x grid) := by
  obtain ⟨k, hk, -⟩ := Scalar.round_rat (x / grid)
  exact ⟨k, by rw [snap_eq hg, hk]⟩

theorem snapUp_onGrid (hg : 0 < grid) (x : Rat) : OnGrid grid (snapUp x grid) :=
  ⟨_, snapUp_eq hg x⟩

theorem snapDown_onGrid (hg : 0 < grid) (x : Rat) : OnGrid grid (snapDown x grid) :=
  ⟨_, snapDown_eq hg x⟩

theorem snap_of_onGrid (hg : 0 < grid) (hx : OnGrid grid x) : snap x grid = x := by
  obtain ⟨k, rfl⟩ := hx
  rw [snap_eq hg, mul_div_cancel_right₀ _ hg.ne', Scalar.round_intCast]

theorem snapPoint_onGrid (hg : 0 < grid) (p : Point Rat) : (snapPoint p grid).OnGrid grid :=
  ⟨snap_onGrid hg _, snap_onGrid hg _⟩

theorem snapPoint_of_onGrid (hg : 0 < grid) {p : Point Rat} (hp : p.OnGrid grid) :
    snapPoint p grid = p := by
  rw [snapPoint, snap_of_onGrid hg hp.1, snap_of_onGrid hg hp.2]

theorem abs_snap_sub_le (hg : 0 < grid) (x : Rat) : |snap x grid - x| ≤ grid / 2 := by
  obtain ⟨k, hk, hd⟩ := Scalar.round_rat (x / grid)
  have hx : snap x grid - x = (k - x / grid) * grid := by
    rw [snap_eq hg, hk, sub_mul, div_mul_cancel₀ _ hg.ne']
  rw [hx, abs_mul, abs_of_pos hg]
  calc |(k : Rat) - x / grid| * grid ≤ 1 / 2 * grid := by
        exact mul_le_mul_of_nonneg_right hd hg.le
    _ = grid / 2 := by ring

theorem snap_clear (hg : 0 < grid) {width gap : Rat} (h : x + width + gap ≤ y) :
    snap x grid + width + (gap - grid) ≤ snap y grid := by
  have hx := abs_le.mp (abs_snap_sub_le hg x)
  have hy := abs_le.mp (abs_snap_sub_le hg y)
  linarith

theorem snap_lt (hg : 0 < grid) (h : x + grid ≤ y) : snap x grid < snap y grid := by
  have hsteps : x / grid + 1 ≤ y / grid := by
    rw [div_add_one hg.ne']
    exact div_le_div_of_nonneg_right h hg.le
  rw [snap_eq hg, snap_eq hg]
  exact mul_lt_mul_of_pos_right (Scalar.round_lt hsteps) hg

theorem snap_mono (grid : Rat) : Monotone fun x => snap x grid := by
  intro x y hxy
  by_cases hg : 0 < grid
  · have hsteps : x / grid ≤ y / grid := div_le_div_of_nonneg_right hxy hg.le
    simp only [snap_eq hg]
    exact mul_le_mul_of_nonneg_right (Scalar.round_mono hsteps) hg.le
  · simpa only [snap, toMultiple_of_not_pos hg] using hxy

theorem le_snapUp (x grid : Rat) : x ≤ snapUp x grid := by
  by_cases hg : 0 < grid
  · rw [snapUp_eq hg, ← div_le_iff₀ hg]
    exact Rat.le_ceil
  · exact (toMultiple_of_not_pos hg _ x).ge

theorem snapDown_le (x grid : Rat) : snapDown x grid ≤ x := by
  by_cases hg : 0 < grid
  · rw [snapDown_eq hg, ← le_div_iff₀ hg]
    exact Rat.floor_le _
  · exact (toMultiple_of_not_pos hg _ x).le

theorem snapUp_isLeast (hg : 0 < grid) (x : Rat) :
    IsLeast {y | OnGrid grid y ∧ x ≤ y} (snapUp x grid) := by
  refine ⟨⟨snapUp_onGrid hg x, le_snapUp x grid⟩, ?_⟩
  rintro y ⟨⟨k, rfl⟩, hle⟩
  have hk : (x / grid).ceil ≤ k := Rat.ceil_le_iff.mpr ((div_le_iff₀ hg).mpr hle)
  rw [snapUp_eq hg]
  exact mul_le_mul_of_nonneg_right (by exact_mod_cast hk) hg.le

theorem sub_lt_snapDown (hg : 0 < grid) (x : Rat) : x - grid < snapDown x grid := by
  have hlt := Rat.lt_floor_add_one (x / grid)
  have hx := (div_lt_iff₀ hg).mp hlt
  rw [snapDown_eq hg]
  push_cast at hx
  linarith

theorem snapDown_sub_of_onGrid (hg : 0 < grid) (x : Rat) (hy : OnGrid grid y) :
    snapDown (x - y) grid = snapDown x grid - y := by
  obtain ⟨k, rfl⟩ := hy
  have hq : (x - k * grid) / grid = x / grid - k := by
    rw [sub_div, mul_div_cancel_right₀ _ hg.ne']
  have hf : (x / grid - k).floor = (x / grid).floor - k := by
    have h := Rat.floor_add_intCast (x := x / grid) (y := -k)
    push_cast at h
    rw [sub_eq_add_neg, h, sub_eq_add_neg]
  rw [snapDown_eq hg, snapDown_eq hg, hq, hf]
  push_cast
  ring

theorem isOn_of_onGrid (hg : 0 < grid) (hx : OnGrid grid x) : isOn x grid = true := by
  obtain ⟨k, rfl⟩ := hx
  have hs : (k : Rat) * grid / grid = k := mul_div_cancel_right₀ _ hg.ne'
  have hz : Scalar.abs ((k : Rat) - Scalar.round (k : Rat)) = 0 := by
    rw [Scalar.round_intCast, sub_self]
    rfl
  have hlt : Scalar.abs ((k : Rat) * grid / grid - Scalar.round ((k : Rat) * grid / grid)) <
      (Scalar.ofNat 1 / Scalar.ofNat 1000 : Rat) := by
    rw [hs, hz]
    norm_num
  simp only [isOn, Bool.or_eq_true, decide_eq_true_eq]
  exact Or.inr hlt

end Grid

end FlowCanvas
