import FlowCanvas.Proofs.Picture.Clip

/-! The tips of arrows. What is clipped to a rectangle stays where it is inside the rectangle, and
comes to lie on the border from anywhere else. A distance from the centre says on which side of the
border a point is, so a part of the way to it can be told from the distances alone. -/

namespace FlowCanvas

structure Point.OnBorder (p : Point Rat) (r : Rect Rat) : Prop extends p.In r where
  side : p.x = r.x ∨ p.x = r.right ∨ p.y = r.y ∨ p.y = r.bottom

namespace Rect

variable {r : Rect Rat} {p : Point Rat} {t : Rat}

theorem in_iff_abs : p.In r ↔
    |p.x - r.center.x| ≤ r.width / 2 ∧ |p.y - r.center.y| ≤ r.height / 2 := by
  simp only [abs_le, center, Scalar.two_rat]
  constructor
  · rintro ⟨hleft, hright, htop, hbottom⟩
    rw [right_rat] at hright
    rw [bottom_rat] at hbottom
    refine ⟨⟨?_, ?_⟩, ?_, ?_⟩ <;> linarith
  · rintro ⟨⟨hleft, hright⟩, htop, hbottom⟩
    refine ⟨?_, ?_, ?_, ?_⟩
    · linarith
    · rw [right_rat]
      linarith
    · linarith
    · rw [bottom_rat]
      linarith

theorem side_of_abs (h : |p.x - r.center.x| = r.width / 2 ∨ |p.y - r.center.y| = r.height / 2) :
    p.x = r.x ∨ p.x = r.right ∨ p.y = r.y ∨ p.y = r.bottom := by
  simp only [center, Scalar.two_rat, right_rat, bottom_rat] at h ⊢
  rcases h with h | h
  · rcases eq_or_eq_neg_of_abs_eq h with h | h
    · exact .inr (.inl (by linarith))
    · exact .inl (by linarith)
  · rcases eq_or_eq_neg_of_abs_eq h with h | h
    · exact .inr (.inr (.inr (by linarith)))
    · exact .inr (.inr (.inl (by linarith)))

theorem abs_toward (ht : 0 ≤ t) :
    |(r.center.toward p t).x - r.center.x| = |p.x - r.center.x| * t ∧
      |(r.center.toward p t).y - r.center.y| = |p.y - r.center.y| * t := by
  simp only [Point.toward, add_sub_cancel_left, abs_mul, abs_of_nonneg ht, and_self]

theorem Reaches.toward_in (h : r.Reaches p t) : (r.center.toward p t).In r := by
  obtain ⟨hx, hy⟩ := abs_toward (r := r) (p := p) h.nonneg
  rw [in_iff_abs, hx, hy]
  exact ⟨h.width, h.height⟩

theorem toward_one : r.center.toward p 1 = p := by
  simp only [Point.toward, mul_one, add_sub_cancel]

theorem Reaches.eq_one (h : r.Reaches p t) (hp : p.In r) : t = 1 := by
  obtain ⟨hx, hy⟩ := in_iff_abs.mp hp
  have hall {d half : Rat} (hd : d ≠ 0) (hle : |d| ≤ half) (hstop : |d| * t = half) : t = 1 := by
    have hone : |d| * 1 ≤ |d| * t := by rwa [mul_one, hstop]
    exact le_antisymm h.le_one (le_of_mul_le_mul_left hone (abs_pos.mpr hd))
  rcases h.stops with hone | ⟨hd, hstop⟩ | ⟨hd, hstop⟩
  · exact hone
  · exact hall hd hx hstop
  · exact hall hd hy hstop

theorem Reaches.onBorder (h : r.Reaches p t) (hp : ¬ p.In r) :
    (r.center.toward p t).OnBorder r := by
  obtain ⟨hx, hy⟩ := abs_toward (r := r) (p := p) h.nonneg
  refine ⟨h.toward_in, side_of_abs ?_⟩
  rw [hx, hy]
  rcases h.stops with hone | ⟨-, hstop⟩ | ⟨-, hstop⟩
  · have hin := h.toward_in
    rw [hone, toward_one] at hin
    exact absurd hin hp
  · exact .inl hstop
  · exact .inr hstop

/-- A clipped point is on the way from the centre to where it was, and in the rectangle. A point in
the rectangle stays, and any other one, like one on the border, ends on the border. -/
theorem clip_at_border (r : Rect Rat) (hw : 0 ≤ r.width) (hh : 0 ≤ r.height) (p : Point Rat) :
    (∃ t, 0 ≤ t ∧ t ≤ 1 ∧ r.clip p = r.center.toward p t) ∧ (r.clip p).In r ∧
      (p.In r → r.clip p = p) ∧ (¬ p.In r ∨ p.OnBorder r → (r.clip p).OnBorder r) := by
  obtain ⟨t, ht, hclip⟩ := clip_reaches hw hh p
  have hstays (hp : p.In r) : r.clip p = p := by rw [hclip, ht.eq_one hp, toward_one]
  refine ⟨⟨t, ht.nonneg, ht.le_one, hclip⟩, ?_, hstays, ?_⟩
  · rw [hclip]
    exact ht.toward_in
  · rintro (hp | hp)
    · rw [hclip]
      exact ht.onBorder hp
    · rw [hstays hp.toIn]
      exact hp

theorem clip_at_border_corner :
    let r : Rect Rat := ⟨0, 0, 100, 100⟩
    (0 ≤ r.width ∧ 0 ≤ r.height) ∧ ¬ Point.In ⟨250, -150⟩ r ∧
      (r.clip ⟨250, -150⟩).OnBorder r ∧ Point.In ⟨10, 20⟩ r ∧ r.clip ⟨10, 20⟩ = ⟨10, 20⟩ := by
  intro r
  have hw : 0 ≤ r.width := by decide
  have hh : 0 ≤ r.height := by decide
  have hout : ¬ Point.In ⟨250, -150⟩ r := fun h => absurd h.top (by decide)
  have hin : Point.In ⟨10, 20⟩ r := ⟨by decide, by decide +kernel, by decide, by decide +kernel⟩
  exact ⟨⟨hw, hh⟩, hout, (clip_at_border r hw hh _).2.2.2 (.inl hout), hin,
    (clip_at_border r hw hh _).2.2.1 hin⟩

end Rect

end FlowCanvas
