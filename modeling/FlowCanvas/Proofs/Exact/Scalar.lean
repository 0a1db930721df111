import Mathlib.Data.Rat.Floor
import Mathlib.Tactic.Linarith
import FlowCanvas.Scalar

/-! Exact scalars. Over the rationals the lesser and the greater of two scalars are the minimum and
the maximum, no scalar is without a value, and the least and the greatest of a list belong to it. -/

namespace FlowCanvas.Scalar

@[simp] theorem zero_rat : (zero : Rat) = 0 := rfl

@[simp] theorem two_rat : (two : Rat) = 2 := rfl

@[simp] theorem ofNat_rat (n : Nat) : (ofNat n : Rat) = n := rfl

@[simp] theorem isFinite_rat (x : Rat) : isFinite x = true := rfl

theorem smaller_eq_min (x y : Rat) : smaller x y = min x y := by
  rw [smaller_rat, min_def_lt]

theorem larger_eq_max (x y : Rat) : larger x y = max x y := by
  rw [larger_rat, max_comm, max_def_lt]

theorem abs_eq_abs (x : Rat) : Scalar.abs x = |x| := by
  by_cases h : x < 0
  · exact (if_pos h).trans (abs_of_neg h).symm
  · exact (if_neg h).trans (abs_of_nonneg (not_lt.mp h)).symm

theorem foldl_larger (xs : List Rat) (x : Rat) :
    xs.foldl larger x ∈ x :: xs ∧ ∀ y ∈ x :: xs, y ≤ xs.foldl larger x := by
  induction xs generalizing x with
  | nil => simp
  | cons a xs ih =>
    obtain ⟨hmem, hle⟩ := ih (larger x a)
    rw [List.foldl_cons]
    have hx : max x a ≤ xs.foldl larger (larger x a) := by
      rw [← larger_eq_max]
      exact hle _ List.mem_cons_self
    constructor
    · rcases List.mem_cons.mp hmem with h | h
      · rw [h, larger_eq_max]
        rcases max_choice x a with h | h <;> simp [h]
      · exact List.mem_cons_of_mem _ (List.mem_cons_of_mem _ h)
    · intro y hy
      rcases List.mem_cons.mp hy with rfl | hy
      · exact (le_max_left _ _).trans hx
      · rcases List.mem_cons.mp hy with rfl | hy
        · exact (le_max_right _ _).trans hx
        · exact hle y (List.mem_cons_of_mem _ hy)

theorem greatest?_spec {xs : List Rat} {x : Rat} (h : greatest? xs = some x) :
    x ∈ xs ∧ ∀ y ∈ xs, y ≤ x := by
  cases xs with
  | nil => cases h
  | cons a xs =>
    cases h
    exact foldl_larger xs a

theorem greatest?_eq_none {xs : List Rat} : greatest? xs = none ↔ xs = [] := by
  cases xs <;> simp [greatest?]

theorem least?_eq_min? (xs : List Rat) : least? xs = xs.min? := by
  have hmin : (smaller : Rat → Rat → Rat) = min := funext₂ smaller_eq_min
  cases xs with
  | nil => rfl
  | cons a xs => rw [least?, List.min?_cons', hmin]

theorem least?_eq_none {xs : List Rat} : least? xs = none ↔ xs = [] := by
  rw [least?_eq_min?, List.min?_eq_none_iff]

theorem least?_spec {xs : List Rat} {x : Rat} (h : least? xs = some x) :
    x ∈ xs ∧ ∀ y ∈ xs, x ≤ y := by
  rw [least?_eq_min?] at h
  exact List.min?_eq_some_iff.mp h

theorem round_of_neg {x : Rat} (h : x < 0) : Scalar.round x = ((x - 1 / 2).ceil : Rat) := if_pos h

theorem round_of_not_neg {x : Rat} (h : ¬ x < 0) :
    Scalar.round x = ((x + 1 / 2).floor : Rat) := if_neg h

theorem round_rat (x : Rat) :
    ∃ k : Int, Scalar.round x = k ∧ |(k : Rat) - x| ≤ 1 / 2 := by
  by_cases h : x < 0
  · refine ⟨(x - 1 / 2).ceil, round_of_neg h, ?_⟩
    have hl : x - 1 / 2 ≤ (x - 1 / 2).ceil := Rat.le_ceil
    have hu : ((x - 1 / 2).ceil : Rat) < x - 1 / 2 + 1 := Rat.ceil_lt
    rw [abs_le]
    constructor <;> linarith
  · refine ⟨(x + 1 / 2).floor, round_of_not_neg h, ?_⟩
    have hl : ((x + 1 / 2).floor : Rat) ≤ x + 1 / 2 := Rat.floor_le _
    have hu := Rat.lt_floor_add_one (x + 1 / 2)
    push_cast at hu
    rw [abs_le]
    constructor <;> linarith

theorem round_lt {x y : Rat} (h : x + 1 ≤ y) : Scalar.round x < Scalar.round y := by
  have hceil : ((x - 1 / 2).ceil : Rat) < x + 1 / 2 := by
    have h := Rat.ceil_lt (x := x - 1 / 2)
    linarith
  have hfloor : y - 1 / 2 < ((y + 1 / 2).floor : Rat) := by
    have h := Rat.lt_floor_add_one (y + 1 / 2)
    push_cast at h
    linarith
  by_cases hy : y < 0
  · rw [round_of_neg (x := x) (by linarith), round_of_neg hy]
    have hle : y - 1 / 2 ≤ ((y - 1 / 2).ceil : Rat) := Rat.le_ceil
    linarith
  · rw [round_of_not_neg hy]
    by_cases hx : x < 0
    · rw [round_of_neg hx]
      linarith
    · rw [round_of_not_neg hx]
      have hle : ((x + 1 / 2).floor : Rat) ≤ x + 1 / 2 := Rat.floor_le _
      linarith

theorem round_mono : Monotone (Scalar.round : Rat → Rat) := by
  intro x y hxy
  by_cases hx : x < 0
  · have hceil : (x - 1 / 2).ceil ≤ (y - 1 / 2).ceil :=
      Rat.ceil_le_iff.mpr (le_trans (by linarith) Rat.le_ceil)
    rw [round_of_neg hx]
    by_cases hy : y < 0
    · rw [round_of_neg hy]
      exact_mod_cast hceil
    -- The one is rounded to zero or below, the other to zero or above.
    · have hzero : (x - 1 / 2).ceil ≤ 0 := Rat.ceil_le_iff.mpr (by push_cast; linarith)
      have hfloor : 0 ≤ (y + 1 / 2).floor := Rat.le_floor_iff.mpr (by push_cast; linarith)
      rw [round_of_not_neg hy]
      exact_mod_cast hzero.trans hfloor
  · have hfloor : (x + 1 / 2).floor ≤ (y + 1 / 2).floor := Rat.floor_monotone (by linarith)
    rw [round_of_not_neg hx, round_of_not_neg (x := y) (by linarith)]
    exact_mod_cast hfloor

theorem round_intCast (k : Int) : Scalar.round (k : Rat) = k := by
  obtain ⟨m, hm, hd⟩ := round_rat k
  have hlt : |((m - k : Int) : Rat)| < 1 := by
    push_cast
    linarith
  have hz : m - k = 0 := by
    rw [← Int.cast_abs] at hlt
    exact Int.abs_lt_one_iff.mp (by exact_mod_cast hlt)
  rw [hm]
  exact_mod_cast (by omega : m = k)

end FlowCanvas.Scalar
