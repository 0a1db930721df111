import FlowCanvas.Proofs.Checked.Adjacency
import FlowCanvas.Proofs.Layer.LongestPath

/-! Ranks on checked arrays, of any graph. Every slot counts down the predecessors that it waits
for. An edge is released once, while its end still waits for it, so no count falls below zero; and
every slot is taken at most once, so there are no more turns than slots. Every rank is that of a
layer. -/

namespace FlowCanvas

namespace Checked.Adjacency

def waiting (a : Adjacency) : Ranking :=
  let pending := a.predecessors.map (·.length)
  ⟨List.replicate a.size 0, pending, (pending.zipIdx.filter fun x => x.1 == 0).map (·.2)⟩

def release? (slot : Nat) (r : Ranking) (next : Nat) : Option Ranking := do
  let rank ← r.ranks[slot]?
  let ranks ← modify? r.ranks next (max · (rank + 1))
  let count ← r.pending[next]?
  let count ← minus? count 1
  let pending ← write? r.pending next count
  some ⟨ranks, pending, if count = 0 then next :: r.ready else r.ready⟩

def rankAll? (a : Adjacency) : Nat → Ranking → Option (List Nat)
  | 0, r => if r.ready.isEmpty then some r.ranks else none
  | turns + 1, r =>
    match r.ready.min? with
    | none => some r.ranks
    | some slot => do
      let nexts ← a.successors[slot]?
      let r ← nexts.foldlM (release? slot) { r with ready := r.ready.erase slot }
      rankAll? a turns r

def ranks? (a : Adjacency) : Option (List Nat) := a.rankAll? a.size a.waiting

end Checked.Adjacency

open Checked

def Checked.layersOfRanks? (ranks : List Nat) : Option (List (List Nat)) :=
  distribute? (List.replicate ((ranks.max?.map (· + 1)).getD 0) []) ranks.zipIdx

namespace Ranking

variable {g : LayerGraph} {r : Ranking} {popped : List Nat} {released : List (Nat × Nat)}
  {k u v : Nat}

theorem waiting_eq (g : LayerGraph) : g.adjacency.waiting = Ranking.start g := by
  have hpending : g.adjacency.predecessors.map (·.length) =
      (List.range g.size).map fun s => (g.predecessors s).length := by
    simp [LayerGraph.adjacency, table]
  rw [Adjacency.waiting, start, hpending, zipIdx_filter fun count _ => count == 0,
    LayerGraph.adjacency_size]
  simp only [List.length_map, List.length_range, Ranking.mk.injEq, true_and]
  refine List.filter_congr fun s hs => ?_
  cases hs' : g.predecessors s <;> simp [List.mem_range.mp hs, hs']

namespace State

variable (h : State g popped released r)

include h

theorem release?_eq (hlt : u < g.size) (he : (u, v) ∈ g.edges)
    (hnew : (u, v) ∉ released) :
    Adjacency.release? u r v = some (Ranking.release (r.rank u) r v) := by
  have hv : v < g.size := (g.valid _ he).2.1
  have hrank : r.ranks[u]? = some (r.rank u) := by
    have hlen : u < r.ranks.length := h.ranks_length ▸ hlt
    simp [Ranking.rank, hlen]
  have hcount : r.pending[v]? = some (r.waits v) := by
    have hlen : v < r.pending.length := h.pending_length ▸ hv
    simp [waits, hlen]
  have hpos := h.waits_pos he hnew
  have hranks := release_ranks (r.rank u) r v
  have hafter := release_pending (k := r.rank u) (h.pending_length ▸ hv) hpos
  have hread : v < r.ranks.length := h.ranks_length ▸ hv
  have hwrite : write? r.pending v (r.waits v - 1) = some (r.pending.set v (r.waits v - 1)) :=
    if_pos (h.pending_length ▸ hv)
  -- The count falls to zero if it is one.
  have hlast : r.waits v - 1 = 0 ↔ r.waits v = 1 := by omega
  simp only [Adjacency.release?, hrank, modify?_eq hread, hcount,
    minus?_eq (Nat.pos_of_ne_zero hpos), hwrite, Option.bind_eq_bind, Option.bind_some, hlast]
  rw [← hranks, ← hafter.1, ← hafter.2]

theorem releaseAll?_eq (hu : u ∈ popped) (hlt : u < g.size) (vs : List Nat)
    (hvs : ∀ v ∈ vs, (u, v) ∈ g.edges ∧ (u, v) ∉ released) (hnodup : vs.Nodup) :
    vs.foldlM (Adjacency.release? u) r = some (vs.foldl (Ranking.release (r.rank u)) r) := by
  induction vs generalizing r released with
  | nil => rfl
  | cons v vs ih =>
    obtain ⟨he, hnew⟩ := hvs v List.mem_cons_self
    obtain ⟨hv, hnodup⟩ := List.nodup_cons.mp hnodup
    have hrest : ∀ w ∈ vs, (u, w) ∈ g.edges ∧ (u, w) ∉ (u, v) :: released := by
      intro w hw
      obtain ⟨hew, hn⟩ := hvs w (List.mem_cons_of_mem _ hw)
      refine ⟨hew, fun hm => ?_⟩
      rcases List.mem_cons.mp hm with hm | hm
      · cases hm
        exact hv hw
      · exact hn hm
    have hrank := h.release_rank_of_popped he hnew hu
    have hfold := ih (h.release hu he hnew) hrest hnodup
    rw [hrank] at hfold
    rw [List.foldlM_cons, h.release?_eq hlt he hnew, Option.bind_eq_bind, Option.bind_some,
      hfold, List.foldl_cons]

theorem rankAll?_eq {turns : Nat} (hnodup : popped.Nodup) (hlt : ∀ v ∈ popped, v < g.size)
    (hturns : g.size ≤ popped.length + turns) :
    g.adjacency.rankAll? turns r = some (Ranking.run g r) := by
  have hlength {slots : List Nat} (hn : slots.Nodup) (hs : ∀ v ∈ slots, v < g.size) :
      slots.length ≤ g.size := by
    have hsub := (hn.subperm fun v hv => List.mem_range.mpr (hs v hv)).length_le
    rwa [List.length_range] at hsub
  induction turns generalizing r popped released with
  | zero =>
    cases hmin : r.ready.min? with
    | none =>
      rw [Ranking.run, Adjacency.rankAll?, List.min?_eq_none_iff.mp hmin]
      simp
    | some slot =>
      -- Every slot is taken by now, and a ready one is not.
      obtain ⟨hslot, hnew, -⟩ := (h.mem_ready slot).mp (List.min?_mem hmin)
      have hle := hlength (List.nodup_cons.mpr ⟨hnew, hnodup⟩)
        (List.forall_mem_cons.mpr ⟨hslot, hlt⟩)
      rw [List.length_cons] at hle
      omega
  | succ turns ih =>
    rw [Ranking.run, Adjacency.rankAll?]
    cases hmin : r.ready.min? with
    | none => rfl
    | some slot =>
      have hready := List.min?_mem hmin
      obtain ⟨hslot, hnew, -⟩ := (h.mem_ready slot).mp hready
      have hedges (v : Nat) (hv : v ∈ g.successors slot) :
          (slot, v) ∈ g.edges ∧ (slot, v) ∉ released :=
        ⟨LayerGraph.mem_successors.mp hv, fun hm => hnew (h.source _ _ hm).2⟩
      obtain ⟨more, hmore, -⟩ := (h.take hready).releaseAll List.mem_cons_self
        (g.successors slot) (k := r.rank slot) hedges (g.successors_nodup slot) rfl
      have hfold := (h.take hready).releaseAll?_eq List.mem_cons_self hslot (g.successors slot)
        hedges (g.successors_nodup slot)
      have hrest := ih hmore (List.nodup_cons.mpr ⟨hnew, hnodup⟩)
        (List.forall_mem_cons.mpr ⟨hslot, hlt⟩) (by rw [List.length_cons]; omega)
      simp only [LayerGraph.successors_read hslot, Option.bind_eq_bind, Option.bind_some, hfold]
      exact hrest

end State

end Ranking

theorem LayerGraph.ranks?_eq (g : LayerGraph) : g.adjacency.ranks? = some g.ranks := by
  rw [Adjacency.ranks?, Ranking.waiting_eq, adjacency_size]
  exact (Ranking.State.start g).rankAll?_eq List.nodup_nil (by simp) (by simp)

example : (Adjacency.mk [[1], []] [[], []]).ranks? = none := by decide

theorem layersOfRanks?_eq (ranks : List Nat) :
    layersOfRanks? ranks = some (layersOfRanks ranks) := by
  have hlt (x : Nat × Nat) (hx : x ∈ ranks.zipIdx) :
      x.1 < (ranks.max?.map (· + 1)).getD 0 := by
    have hmem := List.mem_of_getElem? (List.mem_zipIdx_iff_getElem?.mp hx)
    cases hmax : ranks.max? with
    | none =>
      rw [List.max?_eq_none_iff.mp hmax] at hmem
      cases hmem
    | some m => exact Nat.lt_succ_of_le ((List.max?_eq_some_iff.mp hmax).2 _ hmem)
  rw [layersOfRanks?, table_const, table_distribute hlt, layersOfRanks, table]
  congr 1
  refine List.map_congr_left fun rank _ => ?_
  rw [List.nil_append, zipIdx_filter fun r _ => r == rank]
  refine List.filter_congr fun slot _ => ?_
  cases ranks[slot]? <;> rfl

end FlowCanvas
