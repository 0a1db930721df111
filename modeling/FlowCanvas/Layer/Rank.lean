import FlowCanvas.Layer.Graph

/-!
Ranks by longest paths. A slot is ready when all its predecessors are ranked; the least ready slot
is ranked next, pushes its successors below itself and releases them. A layer holds the slots of one
rank in ascending order.
-/

namespace FlowCanvas

/-- The ranks so far, the number of predecessors that each slot still waits for, and the slots that
wait for none. -/
structure Ranking where
  ranks : List Nat
  pending : List Nat
  ready : List Nat

namespace Ranking

def release (rank : Nat) (r : Ranking) (next : Nat) : Ranking :=
  let ranks := r.ranks.modify next (max · (rank + 1))
  match r.pending[next]? with
  | some 1 => ⟨ranks, r.pending.set next 0, next :: r.ready⟩
  | some (k + 2) => ⟨ranks, r.pending.set next (k + 1), r.ready⟩
  | _ => ⟨ranks, r.pending, r.ready⟩

def start (g : LayerGraph) : Ranking :=
  let pending := (List.range g.size).map fun s => (g.predecessors s).length
  ⟨List.replicate g.size 0, pending,
    (List.range g.size).filter fun s => (g.predecessors s).isEmpty⟩

def total : List Nat → Nat
  | [] => 0
  | n :: ns => n + total ns

def measure (r : Ranking) : Nat := total r.pending + r.ready.length

theorem total_set {xs : List Nat} {i x y : Nat} (h : xs[i]? = some x) :
    total (xs.set i y) + x = total xs + y := by
  induction xs generalizing i with
  | nil => simp at h
  | cons a xs ih =>
    cases i with
    | zero =>
      obtain rfl : a = x := Option.some.inj h
      simp only [List.set_cons_zero, total]
      omega
    | succ i =>
      have := ih h
      simp only [List.set_cons_succ, total]
      omega

theorem release_measure (rank : Nat) (r : Ranking) (next : Nat) :
    (release rank r next).measure ≤ r.measure := by
  unfold release measure
  split
  · rename_i h
    have := total_set (y := 0) h
    simp only [List.length_cons]; omega
  · rename_i k h
    have := total_set (y := k + 1) h
    dsimp only; omega
  · exact Nat.le_refl _

theorem foldl_release_measure (rank : Nat) (ts : List Nat) (r : Ranking) :
    (ts.foldl (release rank) r).measure ≤ r.measure := by
  induction ts generalizing r with
  | nil => exact Nat.le_refl _
  | cons t ts ih => exact Nat.le_trans (ih _) (release_measure rank r t)

def run (g : LayerGraph) (r : Ranking) : List Nat :=
  match _h : r.ready.min? with
  | none => r.ranks
  | some slot =>
    run g ((g.successors slot).foldl (release (r.ranks.getD slot 0))
      { r with ready := r.ready.erase slot })
termination_by r.measure
decreasing_by
  have hm := List.min?_mem _h
  have hl := List.length_erase_of_mem hm
  have hp := List.length_pos_of_mem hm
  have hf := foldl_release_measure (r.ranks.getD slot 0) (g.successors slot)
    { r with ready := r.ready.erase slot }
  simp only [measure] at hf ⊢
  omega

end Ranking

namespace LayerGraph

def ranks (g : LayerGraph) : List Nat := Ranking.run g (Ranking.start g)

end LayerGraph

def layersOfRanks (ranks : List Nat) : List (List Nat) :=
  (List.range ((ranks.max?.map (· + 1)).getD 0)).map fun rank =>
    (List.range ranks.length).filter fun slot => ranks[slot]? == some rank

end FlowCanvas
