import FlowCanvas.Picture
import FlowCanvas.Proofs.Exact.Rect

/-! Points in rectangles, in exact arithmetic. With two points a rectangle has all that lies between
them, and a clipped point lies between the point that it was and the centre. -/

namespace FlowCanvas

structure Point.In (p : Point Rat) (r : Rect Rat) : Prop where
  left : r.x ≤ p.x
  right : p.x ≤ r.right
  top : r.y ≤ p.y
  bottom : p.y ≤ r.bottom

namespace Point

def toward (q p : Point Rat) (t : Rat) : Point Rat := ⟨q.x + (p.x - q.x) * t, q.y + (p.y - q.y) * t⟩

variable {p q : Point Rat} {r b : Rect Rat} {t : Rat}

theorem In.mono (h : p.In r) (hr : b.contains r = true) : p.In b := by
  obtain ⟨hleft, htop, hright, hbottom⟩ := Rect.contains_iff.mp hr
  exact ⟨hleft.trans h.left, h.right.trans hright, htop.trans h.top, h.bottom.trans hbottom⟩

theorem between_mem {x y low high : Rat} (ht : 0 ≤ t) (ht' : t ≤ 1) (hx : low ≤ x ∧ x ≤ high)
    (hy : low ≤ y ∧ y ≤ high) : low ≤ x + (y - x) * t ∧ x + (y - x) * t ≤ high := by
  have hrest : 0 ≤ 1 - t := sub_nonneg.mpr ht'
  have hmix : x + (y - x) * t = x * (1 - t) + y * t := by ring
  rw [hmix]
  constructor
  · calc low = low * (1 - t) + low * t := by ring
      _ ≤ x * (1 - t) + y * t :=
        add_le_add (mul_le_mul_of_nonneg_right hx.1 hrest) (mul_le_mul_of_nonneg_right hy.1 ht)
  · calc x * (1 - t) + y * t ≤ high * (1 - t) + high * t :=
        add_le_add (mul_le_mul_of_nonneg_right hx.2 hrest) (mul_le_mul_of_nonneg_right hy.2 ht)
      _ = high := by ring

theorem In.toward (hq : q.In r) (hp : p.In r) (ht : 0 ≤ t) (ht' : t ≤ 1) : (q.toward p t).In r := by
  have hx := between_mem ht ht' ⟨hq.left, hq.right⟩ ⟨hp.left, hp.right⟩
  have hy := between_mem ht ht' ⟨hq.top, hq.bottom⟩ ⟨hp.top, hp.bottom⟩
  exact ⟨hx.1, hx.2, hy.1, hy.2⟩

end Point

namespace Rect

variable {r : Rect Rat}

theorem center_in (hw : 0 ≤ r.width) (hh : 0 ≤ r.height) : r.center.In r := by
  have htwo : (Scalar.two : Rat) = 2 := rfl
  constructor <;> simp only [center, right_rat, bottom_rat, htwo] <;> linarith

theorem reach?_eq_none {extent d : Rat} (h : reach? extent d = none) : d = 0 := by
  unfold reach? at h
  split at h
  · rename_i hd
    exact eq_of_beq hd
  · cases h

theorem reach?_eq_some {extent d t : Rat} (h : reach? extent d = some t) :
    d ≠ 0 ∧ |d| * t = extent / 2 := by
  unfold reach? at h
  split at h
  · cases h
  · rename_i hd
    cases h
    have hne : d ≠ 0 := fun he => hd (beq_iff_eq.mpr he)
    rw [Scalar.abs_eq_abs, Scalar.two_rat]
    exact ⟨hne, mul_div_cancel₀ _ (abs_ne_zero.mpr hne)⟩

theorem mul_le_of_reach? {extent d t : Rat} (hextent : 0 ≤ extent)
    (h : ∀ u, reach? extent d = some u → t ≤ u) : |d| * t ≤ extent / 2 := by
  cases hreach : reach? extent d with
  | none =>
    rw [reach?_eq_none hreach, abs_zero, zero_mul]
    exact div_nonneg hextent zero_le_two
  | some u =>
    rw [← (reach?_eq_some hreach).2]
    exact mul_le_mul_of_nonneg_left (h u hreach) (abs_nonneg d)

theorem reach?_nonneg {extent d t : Rat} (hextent : 0 ≤ extent) (h : reach? extent d = some t) :
    0 ≤ t := by
  obtain ⟨hd, ht⟩ := reach?_eq_some h
  have hhalf : 0 ≤ |d| * t := ht ▸ div_nonneg hextent zero_le_two
  exact nonneg_of_mul_nonneg_right hhalf (abs_pos.mpr hd)

/-- A part of the way from the centre of a rectangle to a point that crosses no border, and that
ends on one if it is not all of the way. -/
structure Reaches (r : Rect Rat) (p : Point Rat) (t : Rat) : Prop where
  nonneg : 0 ≤ t
  le_one : t ≤ 1
  width : |p.x - r.center.x| * t ≤ r.width / 2
  height : |p.y - r.center.y| * t ≤ r.height / 2
  stops : t = 1 ∨ (p.x - r.center.x ≠ 0 ∧ |p.x - r.center.x| * t = r.width / 2) ∨
    (p.y - r.center.y ≠ 0 ∧ |p.y - r.center.y| * t = r.height / 2)

theorem clip_reaches (hw : 0 ≤ r.width) (hh : 0 ≤ r.height) (p : Point Rat) :
    ∃ t, r.Reaches p t ∧ r.clip p = r.center.toward p t := by
  unfold clip
  dsimp only
  split
  · rename_i hnone
    -- Without a distance on either axis the point is the centre, and it stays there.
    rw [Scalar.least?_eq_none, List.append_eq_nil_iff, Option.toList_eq_nil_iff,
      Option.toList_eq_nil_iff] at hnone
    have hx : p.x - r.center.x = 0 := reach?_eq_none hnone.1
    have hy : p.y - r.center.y = 0 := reach?_eq_none hnone.2
    refine ⟨1, ⟨zero_le_one, le_rfl, ?_, ?_, .inl rfl⟩, ?_⟩
    · rw [hx, abs_zero, zero_mul]
      exact div_nonneg hw zero_le_two
    · rw [hy, abs_zero, zero_mul]
      exact div_nonneg hh zero_le_two
    · rw [Point.toward, hx, hy, zero_mul, add_zero, add_zero]
  · rename_i u hu
    obtain ⟨hmem, hleast⟩ := Scalar.least?_spec hu
    simp only [List.mem_append, Option.mem_toList] at hmem hleast
    have hnonneg : 0 ≤ u := hmem.elim (reach?_nonneg hw) (reach?_nonneg hh)
    have hle : min u 1 ≤ u := min_le_left u 1
    have hscale : Scalar.smaller u (Scalar.ofNat 1) = min u 1 := by
      rw [Scalar.smaller_eq_min, Scalar.ofNat_rat, Nat.cast_one]
    rw [hscale]
    refine ⟨min u 1, ⟨le_min hnonneg zero_le_one, min_le_right u 1, ?_, ?_, ?_⟩, rfl⟩
    · exact mul_le_of_reach? hw fun v hv => hle.trans (hleast v (.inl hv))
    · exact mul_le_of_reach? hh fun v hv => hle.trans (hleast v (.inr hv))
    · rcases le_total 1 u with hone | hone
      · exact .inl (min_eq_right hone)
      · rw [min_eq_left hone]
        exact .inr (hmem.imp reach?_eq_some reach?_eq_some)

theorem clip_toward (hw : 0 ≤ r.width) (hh : 0 ≤ r.height) (p : Point Rat) :
    ∃ t, 0 ≤ t ∧ t ≤ 1 ∧ r.clip p = r.center.toward p t := by
  obtain ⟨t, ht, hclip⟩ := clip_reaches hw hh p
  exact ⟨t, ht.nonneg, ht.le_one, hclip⟩

end Rect

end FlowCanvas
