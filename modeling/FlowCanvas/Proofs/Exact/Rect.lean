import FlowCanvas.Flow
import FlowCanvas.Proofs.Exact.Grid

/-! Rectangles in exact arithmetic. The bounds of some rectangles hold each of them and move along
when all of them are moved. A rectangle that ends before another one starts, on either axis, does
not intersect it. -/

namespace FlowCanvas

namespace Rect

variable {r s b : Rect Rat}

theorem right_rat (r : Rect Rat) : r.right = r.x + r.width := rfl

theorem bottom_rat (r : Rect Rat) : r.bottom = r.y + r.height := rfl

theorem intersects_iff : r.intersects s = true ↔
    r.x < s.right ∧ s.x < r.right ∧ r.y < s.bottom ∧ s.y < r.bottom := by
  simp only [intersects, Bool.and_eq_true, decide_eq_true_eq, and_assoc]

theorem crowds_iff {margin : Rat} : r.crowds s margin = true ↔
    r.x < s.right + margin ∧ s.x < r.right + margin ∧
      r.y < s.bottom + margin ∧ s.y < r.bottom + margin := by
  simp only [crowds, Bool.and_eq_true, decide_eq_true_eq, and_assoc]

theorem contains_iff : r.contains s = true ↔
    r.x ≤ s.x ∧ r.y ≤ s.y ∧ s.right ≤ r.right ∧ s.bottom ≤ r.bottom := by
  simp only [contains, Bool.and_eq_true, decide_eq_true_eq, and_assoc]

theorem contains_refl (r : Rect Rat) : r.contains r = true :=
  contains_iff.mpr ⟨le_rfl, le_rfl, le_rfl, le_rfl⟩

theorem contains_trans (hb : b.contains r = true) (hr : r.contains s = true) :
    b.contains s = true := by
  rw [contains_iff] at hb hr ⊢
  exact ⟨hb.1.trans hr.1, hb.2.1.trans hr.2.1, hr.2.2.1.trans hb.2.2.1, hr.2.2.2.trans hb.2.2.2⟩

theorem union_right (r s : Rect Rat) : (r.union s).right = max r.right s.right := by
  simp only [right_rat, union, Scalar.larger_eq_max]
  ring

theorem union_bottom (r s : Rect Rat) : (r.union s).bottom = max r.bottom s.bottom := by
  simp only [bottom_rat, union, Scalar.larger_eq_max]
  ring

theorem union_contains_left (r s : Rect Rat) : (r.union s).contains r = true := by
  rw [contains_iff, union_right, union_bottom]
  simp [union, Scalar.smaller_eq_min]

theorem union_contains_right (r s : Rect Rat) : (r.union s).contains s = true := by
  rw [contains_iff, union_right, union_bottom]
  simp [union, Scalar.smaller_eq_min]

theorem foldl_union_contains (rs : List (Rect Rat)) (r : Rect Rat) :
    ∀ s ∈ r :: rs, (rs.foldl (fun bounds s => s.union bounds) r).contains s = true := by
  induction rs generalizing r with
  | nil =>
    intro s hs
    rw [List.mem_singleton.mp hs]
    exact contains_refl r
  | cons a rs ih =>
    intro s hs
    have hau := ih (a.union r) _ List.mem_cons_self
    rcases List.mem_cons.mp hs with rfl | hs
    · exact contains_trans hau (union_contains_right _ _)
    · rcases List.mem_cons.mp hs with rfl | hs
      · exact contains_trans hau (union_contains_left _ _)
      · exact ih (a.union r) s (List.mem_cons_of_mem _ hs)

theorem enclosing?_contains {rs : List (Rect Rat)} (h : enclosing? rs = some b) :
    ∀ r ∈ rs, b.contains r = true := by
  cases rs with
  | nil => cases h
  | cons a rs =>
    cases h
    exact foldl_union_contains rs a

theorem enclosing?_edge {edge : Rect Rat → Rat}
    (hedge : ∀ r s : Rect Rat, edge (r.union s) = edge r ∨ edge (r.union s) = edge s)
    {rs : List (Rect Rat)} (h : enclosing? rs = some b) : ∃ r ∈ rs, edge r = edge b := by
  cases rs with
  | nil => cases h
  | cons a rs =>
    cases h
    induction rs generalizing a with
    | nil => exact ⟨a, List.mem_cons_self, rfl⟩
    | cons r rs ih =>
      obtain ⟨t, ht, he⟩ := ih (r.union a)
      rcases List.mem_cons.mp ht with rfl | ht
      · rcases hedge r a with hr | ha
        · exact ⟨r, by simp, hr.symm.trans he⟩
        · exact ⟨a, by simp, ha.symm.trans he⟩
      · exact ⟨t, by simp [ht], he⟩

theorem enclosing?_start {rs : List (Rect Rat)} (h : enclosing? rs = some b) :
    IsLeast {x | ∃ r ∈ rs, r.x = x} b.x ∧ IsLeast {y | ∃ r ∈ rs, r.y = y} b.y := by
  have hin := enclosing?_contains h
  have hx (r s : Rect Rat) : (r.union s).x = r.x ∨ (r.union s).x = s.x := by
    rw [union, Scalar.smaller_eq_min]
    exact min_choice _ _
  have hy (r s : Rect Rat) : (r.union s).y = r.y ∨ (r.union s).y = s.y := by
    rw [union, Scalar.smaller_eq_min _ s.y]
    exact min_choice _ _
  refine ⟨⟨enclosing?_edge hx h, ?_⟩, ⟨enclosing?_edge hy h, ?_⟩⟩
  · rintro _ ⟨r, hr, rfl⟩
    exact (contains_iff.mp (hin r hr)).1
  · rintro _ ⟨r, hr, rfl⟩
    exact (contains_iff.mp (hin r hr)).2.1

theorem enclosing?_stop {rs : List (Rect Rat)} (h : enclosing? rs = some b) :
    IsGreatest {x | ∃ r ∈ rs, r.right = x} b.right ∧
      IsGreatest {y | ∃ r ∈ rs, r.bottom = y} b.bottom := by
  have hin := enclosing?_contains h
  have hx (r s : Rect Rat) : (r.union s).right = r.right ∨ (r.union s).right = s.right := by
    rw [union_right]
    exact max_choice _ _
  have hy (r s : Rect Rat) : (r.union s).bottom = r.bottom ∨ (r.union s).bottom = s.bottom := by
    rw [union_bottom]
    exact max_choice _ _
  refine ⟨⟨enclosing?_edge hx h, ?_⟩, ⟨enclosing?_edge hy h, ?_⟩⟩
  · rintro _ ⟨r, hr, rfl⟩
    exact (contains_iff.mp (hin r hr)).2.2.1
  · rintro _ ⟨r, hr, rfl⟩
    exact (contains_iff.mp (hin r hr)).2.2.2

theorem enclosing?_congr {rs ts : List (Rect Rat)} (h : ∀ r, r ∈ rs ↔ r ∈ ts) :
    enclosing? rs = enclosing? ts := by
  cases hb : enclosing? rs with
  | none =>
    rw [(enclosing?_eq_none rs).mp hb] at h
    rw [eq_comm, enclosing?_eq_none, List.eq_nil_iff_forall_not_mem]
    exact fun r hr => List.not_mem_nil ((h r).mpr hr)
  | some b =>
    obtain ⟨c, hc⟩ : ∃ c, enclosing? ts = some c := by
      obtain ⟨-, ⟨⟨r, hr, -⟩, -⟩⟩ := enclosing?_start hb
      refine Option.ne_none_iff_exists'.mp fun hnone => ?_
      rw [enclosing?_eq_none] at hnone
      exact List.not_mem_nil (hnone ▸ (h r).mp hr)
    have hedge (edge : Rect Rat → Rat) :
        {x | ∃ r ∈ rs, edge r = x} = {x | ∃ r ∈ ts, edge r = x} := by
      simp only [h]
    obtain ⟨hleft, htop⟩ := enclosing?_start hb
    obtain ⟨hright, hbottom⟩ := enclosing?_stop hb
    obtain ⟨hleft', htop'⟩ := enclosing?_start hc
    obtain ⟨hright', hbottom'⟩ := enclosing?_stop hc
    rw [hedge] at hleft htop hright hbottom
    have hx := hleft.unique hleft'
    have hy := htop.unique htop'
    have hw := hright.unique hright'
    have hv := hbottom.unique hbottom'
    rw [right_rat, right_rat, hx, add_right_inj] at hw
    rw [bottom_rat, bottom_rat, hy, add_right_inj] at hv
    rw [hc]
    cases b
    cases c
    simp_all

theorem union_translate (r s : Rect Rat) (dx dy : Rat) :
    (r.translate dx dy).union (s.translate dx dy) = (r.union s).translate dx dy := by
  have hr (t : Rect Rat) : (t.translate dx dy).right = t.right + dx := by
    simp only [translate, right_rat]
    ring
  have hb (t : Rect Rat) : (t.translate dx dy).bottom = t.bottom + dy := by
    simp only [translate, bottom_rat]
    ring
  simp only [union, hr, hb, Scalar.smaller_eq_min, Scalar.larger_eq_max]
  simp only [translate, min_add_add_right, max_add_add_right, add_sub_add_right_eq_sub]

theorem enclosing?_translate (rs : List (Rect Rat)) (dx dy : Rat) :
    enclosing? (rs.map fun r => r.translate dx dy) =
      (enclosing? rs).map fun r => r.translate dx dy := by
  cases rs with
  | nil => rfl
  | cons a rs =>
    simp only [enclosing?, List.map_cons, Option.map_some]
    congr 1
    induction rs generalizing a with
    | nil => rfl
    | cons r rs ih => rw [List.map_cons, List.foldl_cons, List.foldl_cons, union_translate, ih]

end Rect

namespace Direction

def start : Direction → Rect Rat → Rat
  | .topDown, r => r.y
  | .leftRight, r => r.x

def stop : Direction → Rect Rat → Rat
  | .topDown, r => r.bottom
  | .leftRight, r => r.right

def crosswise : Direction → Direction
  | .topDown => .leftRight
  | .leftRight => .topDown

def Precedes (dir : Direction) (r s : Rect Rat) : Prop := dir.stop r ≤ dir.start s

variable {dir : Direction} {r s : Rect Rat}

theorem stop_eq (dir : Direction) (r : Rect Rat) :
    dir.stop r = dir.start r + dir.along ⟨r.width, r.height⟩ := by
  cases dir <;> rfl

theorem Precedes.not_intersects (h : dir.Precedes r s) : r.intersects s = false := by
  rw [Bool.eq_false_iff, ne_eq, Rect.intersects_iff]
  rintro ⟨-, hx, -, hy⟩
  cases dir with
  | topDown => exact absurd hy (not_lt.mpr h)
  | leftRight => exact absurd hx (not_lt.mpr h)

theorem Precedes.not_intersects' (h : dir.Precedes r s) : s.intersects r = false := by
  rw [Rect.intersects_comm, h.not_intersects]

end Direction

end FlowCanvas
