import FlowCanvas.Proofs.Exact.Rect
import FlowCanvas.Proofs.Fit.Fixpoint

/-! Fits in exact arithmetic. The box of a group holds its children, starts on the grid and is not
less than the least size. If all children move by what the corner of the box moved, the box is the
same and its corner stays. -/

namespace FlowCanvas.Fits

variable (s : LayoutSettings Rat) {rs : List (Rect Rat)} {r b : Rect Rat} {o : Point Rat}

def pad : Rat := Scalar.larger s.groupPadding Scalar.zero

theorem pad_nonneg : 0 ≤ pad s := by
  rw [pad, Scalar.larger_eq_max]
  exact le_max_right _ _

def boxStart (b : Rect Rat) : Point Rat :=
  ⟨Grid.snapDown (b.x - pad s) s.gridSize, Grid.snapDown (b.y - pad s) s.gridSize⟩

def boxSize (b : Rect Rat) : Size Rat :=
  ⟨Grid.snapUp (max (b.right + pad s - (boxStart s b).x) (leastSize s).width) s.gridSize,
    Grid.snapUp (max (b.bottom + pad s - (boxStart s b).y) (leastSize s).height) s.gridSize⟩

theorem around_some (h : Rect.enclosing? rs = some b) :
    around s rs = ⟨some (boxStart s b), boxSize s b⟩ := by
  simp only [around, h, boxSize, ← Scalar.larger_eq_max]
  rfl

theorem around_none (h : Rect.enclosing? rs = none) :
    around s rs = ⟨none, ⟨Grid.snapUp (leastSize s).width s.gridSize,
      Grid.snapUp (leastSize s).height s.gridSize⟩⟩ := by
  simp only [around, h]

theorem around_offset (h : (around s rs).offset = some o) :
    ∃ b, Rect.enclosing? rs = some b ∧ o = boxStart s b := by
  cases hb : Rect.enclosing? rs with
  | none =>
    rw [around_none s hb] at h
    cases h
  | some b =>
    rw [around_some s hb] at h
    cases h
    exact ⟨b, rfl, rfl⟩

theorem around_offset_of_mem (hr : r ∈ rs) : ∃ o, (around s rs).offset = some o := by
  cases hb : Rect.enclosing? rs with
  | none =>
    rw [(Rect.enclosing?_eq_none _).mp hb] at hr
    cases hr
  | some b => exact ⟨boxStart s b, by rw [around_some s hb]⟩

theorem around_offset_eq_none : (around s rs).offset = none ↔ rs = [] := by
  cases rs with
  | nil => simp [around, Rect.enclosing?]
  | cons r rs =>
    obtain ⟨o, ho⟩ := around_offset_of_mem s (List.mem_cons_self (a := r) (l := rs))
    simp [ho]

theorem around_contains (h : (around s rs).offset = some o) (hr : r ∈ rs) :
    (Rect.ofCorner o (around s rs).size).contains r = true := by
  obtain ⟨b, hb, rfl⟩ := around_offset s h
  have hpad := pad_nonneg s
  have hx := Grid.snapDown_le (b.x - pad s) s.gridSize
  have hy := Grid.snapDown_le (b.y - pad s) s.gridSize
  have hw := Grid.le_snapUp (max (b.right + pad s - (boxStart s b).x) (leastSize s).width)
    s.gridSize
  have hh := Grid.le_snapUp (max (b.bottom + pad s - (boxStart s b).y) (leastSize s).height)
    s.gridSize
  have hw' := (le_max_left _ _).trans hw
  have hh' := (le_max_left _ _).trans hh
  have hbr : (Rect.ofCorner (boxStart s b) (boxSize s b)).contains b = true := by
    rw [Rect.contains_iff]
    refine ⟨?_, ?_, ?_, ?_⟩
    · simp only [Rect.ofCorner, boxStart]
      linarith
    · simp only [Rect.ofCorner, boxStart]
      linarith
    · rw [Rect.right_rat (Rect.ofCorner _ _)]
      simp only [Rect.ofCorner, boxSize]
      linarith
    · rw [Rect.bottom_rat (Rect.ofCorner _ _)]
      simp only [Rect.ofCorner, boxSize]
      linarith
  rw [around_some s hb]
  exact Rect.contains_trans hbr (Rect.enclosing?_contains hb r hr)

theorem leastSize_le_around :
    (leastSize s).width ≤ (around s rs).size.width ∧
      (leastSize s).height ≤ (around s rs).size.height := by
  cases hb : Rect.enclosing? rs with
  | none =>
    rw [around_none s hb]
    exact ⟨Grid.le_snapUp _ _, Grid.le_snapUp _ _⟩
  | some b =>
    rw [around_some s hb]
    exact ⟨(le_max_right _ _).trans (Grid.le_snapUp _ _),
      (le_max_right _ _).trans (Grid.le_snapUp _ _)⟩

theorem min_le_leastSize :
    s.minGroupWidth ≤ (leastSize s).width ∧ s.minGroupHeight ≤ (leastSize s).height := by
  simp [leastSize, Scalar.larger_eq_max]

theorem grid_le_leastSize :
    s.gridSize ≤ (leastSize s).width ∧ s.gridSize ≤ (leastSize s).height := by
  simp [leastSize, Scalar.larger_eq_max]

theorem around_offset_onGrid (hg : 0 < s.gridSize) (h : (around s rs).offset = some o) :
    o.OnGrid s.gridSize := by
  obtain ⟨b, -, rfl⟩ := around_offset s h
  exact ⟨Grid.snapDown_onGrid hg _, Grid.snapDown_onGrid hg _⟩

theorem around_translate (hg : 0 < s.gridSize) (h : (around s rs).offset = some o) :
    around s (rs.map fun r => r.translate (-o.x) (-o.y)) =
      ⟨some Point.origin, (around s rs).size⟩ := by
  have ho := around_offset_onGrid s hg h
  obtain ⟨b, hb, rfl⟩ := around_offset s h
  generalize hc : b.translate (-(boxStart s b).x) (-(boxStart s b).y) = c
  have hmoved : Rect.enclosing?
      (rs.map fun r => r.translate (-(boxStart s b).x) (-(boxStart s b).y)) = some c := by
    rw [Rect.enclosing?_translate, hb, Option.map_some, hc]
  have hstart : boxStart s c = Point.origin := by
    have hx : c.x - pad s = b.x - pad s - (boxStart s b).x := by
      rw [← hc]
      simp only [Rect.translate]
      ring
    have hy : c.y - pad s = b.y - pad s - (boxStart s b).y := by
      rw [← hc]
      simp only [Rect.translate]
      ring
    rw [boxStart, hx, hy, Grid.snapDown_sub_of_onGrid hg _ ho.1,
      Grid.snapDown_sub_of_onGrid hg _ ho.2]
    simp [boxStart, Point.origin]
  have hright : c.right + pad s - (boxStart s c).x = b.right + pad s - (boxStart s b).x := by
    rw [hstart, ← hc]
    simp only [Rect.translate, Rect.right_rat, Point.origin, Scalar.zero_rat]
    ring
  have hbottom : c.bottom + pad s - (boxStart s c).y = b.bottom + pad s - (boxStart s b).y := by
    rw [hstart, ← hc]
    simp only [Rect.translate, Rect.bottom_rat, Point.origin, Scalar.zero_rat]
    ring
  rw [around_some s hmoved, around_some s hb, boxSize, boxSize, hright, hbottom, hstart]

end FlowCanvas.Fits
