import Mathlib.Data.List.Permutation
import Mathlib.Logic.Function.Iterate
import FlowCanvas.Proofs.Checked.Order

/-! The best of the sweeps. Every sweep starts where the last one ended, whether that was an
improvement or not, and the first order with the fewest crossings so far is remembered. At the end
it is the first best of all orders that as many sweeps can come to, the given one among them; to
stop early where nothing crosses any more makes no difference to it. -/

namespace FlowCanvas

structure FirstLeast (cost : Nat → Nat) (last i : Nat) : Prop where
  le_last : i ≤ last
  least : ∀ j ≤ last, cost i ≤ cost j
  first : ∀ j < i, cost i < cost j

namespace FirstLeast

variable {cost : Nat → Nat} {last more i : Nat}

theorem zero (cost : Nat → Nat) : FirstLeast cost 0 0 where
  le_last := Nat.le_refl 0
  least := by
    intro j hj
    obtain rfl := Nat.le_zero.mp hj
    exact Nat.le_refl _
  first := fun _ hj => absurd hj (Nat.not_lt_zero _)

theorem replace (h : FirstLeast cost last i) (hlt : cost (last + 1) < cost i) :
    FirstLeast cost (last + 1) (last + 1) where
  le_last := Nat.le_refl _
  least := by
    intro j hj
    rcases Nat.le_succ_iff.mp hj with hj | rfl
    · exact Nat.le_trans (Nat.le_of_lt hlt) (h.least j hj)
    · exact Nat.le_refl _
  first := fun j hj => Nat.lt_of_lt_of_le hlt (h.least j (Nat.lt_succ_iff.mp hj))

theorem keep (h : FirstLeast cost last i) (hle : cost i ≤ cost (last + 1)) :
    FirstLeast cost (last + 1) i where
  le_last := Nat.le_succ_of_le h.le_last
  least := by
    intro j hj
    rcases Nat.le_succ_iff.mp hj with hj | rfl
    · exact h.least j hj
    · exact hle
  first := h.first

theorem extend (h : FirstLeast cost last i) (hzero : cost i = 0) (hle : last ≤ more) :
    FirstLeast cost more i where
  le_last := Nat.le_trans h.le_last hle
  least := fun j _ => hzero ▸ Nat.zero_le (cost j)
  first := h.first

end FirstLeast

namespace Layers

variable {g : LayerGraph} {layers : Layers} {k i : Nat}

def swept (g : LayerGraph) (layers : Layers) (k : Nat) : Layers := (sweep g)^[k] layers

theorem swept_succ (g : LayerGraph) (layers : Layers) (k : Nat) :
    swept g layers (k + 1) = sweep g (swept g layers k) :=
  Function.iterate_succ_apply' _ _ _

theorem improve_firstLeast (passes : Nat)
    (h : FirstLeast (fun k => crossings g (swept g layers k)) k i) :
    ∃ j, FirstLeast (fun k => crossings g (swept g layers k)) (k + passes) j ∧
      improve g passes (swept g layers k) (swept g layers i) (crossings g (swept g layers i)) =
        swept g layers j := by
  -- By the passes that are left, from any order `k` with the first best one `i` up to it.
  induction passes generalizing k i with
  | zero => exact ⟨i, h, rfl⟩
  | succ passes ih =>
    rw [improve, ← swept_succ, Nat.add_comm passes 1, ← Nat.add_assoc]
    split
    · rename_i hnone
      exact ⟨i, h.extend hnone (by omega), rfl⟩
    · dsimp only
      split
      · rename_i hfewer
        exact ih (h.replace hfewer)
      · rename_i hmore
        exact ih (h.keep (Nat.not_lt.mp hmore))

theorem ordered_firstLeast (g : LayerGraph) (passes : Nat) (layers : Layers) :
    ∃ i, FirstLeast (fun k => crossings g (swept g layers k)) (max passes 1) i ∧
      ordered g passes layers = swept g layers i := by
  have hstart := FirstLeast.zero fun k => crossings g (swept g layers k)
  unfold ordered
  split
  · rename_i hshort
    have hnone : crossings g layers = 0 := by
      match layers, hshort with
      | [], _ => rfl
      | [_], _ => rfl
    exact ⟨0, hstart.extend hnone (Nat.zero_le _), rfl⟩
  · obtain ⟨i, hi, hbest⟩ := improve_firstLeast (max passes 1) hstart
    rw [Nat.zero_add] at hi
    exact ⟨i, hi, hbest⟩

theorem Stands.swept {count : Nat} (h : Stands g count layers) (k : Nat) :
    Stands g count (Layers.swept g layers k) := by
  induction k with
  | zero => exact h
  | succ k ih =>
    rw [swept_succ]
    rcases Nat.eq_zero_or_pos count with rfl | hpos
    · have hnone := List.length_eq_zero_iff.mp ih.length
      have hsame : Layers.sweep g [] = [] := rfl
      rw [hnone] at ih ⊢
      rwa [hsame]
    · exact (ih.sweep hpos).2

theorem swept_reordered (g : LayerGraph) (layers : Layers) (k : Nat) :
    Reordered layers (swept g layers k) := by
  induction k with
  | zero => exact .refl layers
  | succ k ih =>
    rw [swept_succ]
    exact ih.trans (sweep_reordered g _)

/-- Layers in which no slot is twice come out in the first best of the orders that the sweeps come
to, so none of them loses a slot, and there are no more crossings than before or with fewer sweeps.
What is said of orders, sweeps and crossings is what a run on arrays computes. -/
theorem ordered_best (hnodup : layers.flatten.Nodup) (hslots : ∀ s ∈ layers.flatten, s < g.size)
    (passes : Nat) :
    let best := ordered g passes layers
    (∀ k, g.adjacency.crossings? (swept g layers k) = some (crossings g (swept g layers k)) ∧
        (layers ≠ [] → g.adjacency.sweep? (swept g layers k) = some (swept g layers (k + 1)))) ∧
      g.adjacency.ordered? passes layers = some best ∧
      (∃ i, FirstLeast (fun k => crossings g (swept g layers k)) (max passes 1) i ∧
        best = swept g layers i) ∧
      List.Forall₂ List.Perm best layers ∧ crossings g best ≤ crossings g layers ∧
      ∀ more ≥ passes, crossings g (ordered g more layers) ≤ crossings g best := by
  intro best
  have hstands : Stands g layers.length layers := ⟨hnodup, hslots, rfl⟩
  obtain ⟨i, hi, hbest⟩ := ordered_firstLeast g passes layers
  refine ⟨fun k => ⟨(hstands.swept k).crossings, fun hne => ?_⟩, hstands.ordered passes,
    ⟨i, hi, hbest⟩, ?_, ?_, ?_⟩
  · rw [swept_succ]
    exact ((hstands.swept k).sweep (List.length_pos_iff.mpr hne)).1
  · rw [show best = swept g layers i from hbest]
    exact (swept_reordered g layers i).forall₂ (hstands.swept i).length
  · rw [show best = swept g layers i from hbest]
    exact hi.least 0 (Nat.zero_le _)
  · intro more hmore
    obtain ⟨j, hj, hlater⟩ := ordered_firstLeast g more layers
    rw [hlater, show best = swept g layers i from hbest]
    exact hj.least i (by have := hi.le_last; omega)

theorem ordered_best_crossed :
    let g := LayerGraph.ofEdges 5 [(0, 3), (1, 2), (2, 4), (0, 4)]
    let layers : Layers := [[0, 1], [2, 3], [4]]
    layers.flatten.Nodup ∧ (∀ s ∈ layers.flatten, s < g.size) ∧ crossings g layers = 1 ∧
      g.adjacency.ordered? 0 layers = some [[0, 1], [3, 2], [4]] ∧
      ∀ more, crossings g (ordered g more layers) = 0 := by
  intro g layers
  have hnodup : layers.flatten.Nodup := by decide
  have hslots : ∀ s ∈ layers.flatten, s < g.size := by decide
  obtain ⟨-, hrun, -, -, -, hmore⟩ := ordered_best hnodup hslots 0
  have hbest : ordered g 0 layers = [[0, 1], [3, 2], [4]] := by cbv
  rw [hbest] at hrun hmore
  refine ⟨hnodup, hslots, by decide, hrun, fun more => ?_⟩
  exact Nat.le_zero.mp (hmore more (Nat.zero_le more))

end Layers

end FlowCanvas
