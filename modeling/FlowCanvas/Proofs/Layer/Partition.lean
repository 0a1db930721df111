import Mathlib.Data.List.Forall2
import Mathlib.Data.List.GetD
import Mathlib.Data.List.Nodup
import Mathlib.Data.List.Pairwise
import FlowCanvas.Layer.Order
import FlowCanvas.Layer.Rank

/-! Layers partition the slots by rank. The layers of some ranks hold every slot once, in the layer
of its rank; sorting and sweeping change the order inside layers only, so the best order is still
such a partition. -/

namespace FlowCanvas

namespace Layers

variable {layers more : Layers} {ranks : List Nat} {g : LayerGraph}

structure Partition (layers : Layers) (ranks : List Nat) : Prop where
  nodup : ∀ i, (layers.getD i []).Nodup
  mem_iff : ∀ i slot, slot ∈ layers.getD i [] ↔ ranks[slot]? = some i

theorem disjoint_of_flatten (hn : layers.flatten.Nodup) {a b : List Nat} (ha : a ∈ layers)
    (hb : b ∈ layers) (hne : a ≠ b) : a.Disjoint b := by
  have hsymm : Std.Symm (List.Disjoint (α := Nat)) := ⟨fun _ _ h _ ha hb => h hb ha⟩
  exact (List.nodup_flatten.mp hn).2.forall ha hb hne

theorem mem_getD_of_mem {layer : List Nat} (h : layer ∈ layers) :
    ∃ i, i < layers.length ∧ layers.getD i [] = layer := by
  obtain ⟨i, hi, rfl⟩ := List.getElem_of_mem h
  exact ⟨i, hi, by simp [hi]⟩

theorem Partition.flatten_nodup (h : Partition layers ranks) : layers.flatten.Nodup := by
  rw [List.nodup_flatten]
  constructor
  · intro layer hl
    obtain ⟨i, -, rfl⟩ := mem_getD_of_mem hl
    exact h.nodup i
  · rw [List.pairwise_iff_getElem]
    intro i j hi hj hij slot hsi hsj
    have hi' := (h.mem_iff i slot).mp (by simpa [hi] using hsi)
    have hj' := (h.mem_iff j slot).mp (by simpa [hj] using hsj)
    have := Option.some.inj (hi'.symm.trans hj')
    omega

theorem layersOfRanks_partition (ranks : List Nat) : Partition (layersOfRanks ranks) ranks := by
  have hget (i : Nat) : (layersOfRanks ranks).getD i [] =
      (List.range ranks.length).filter fun slot => ranks[slot]? == some i := by
    rw [layersOfRanks, List.getD_eq_getElem?_getD, List.getElem?_map]
    by_cases hi : i < (ranks.max?.map (· + 1)).getD 0
    · rw [List.getElem?_range hi]
      rfl
    · rw [List.getElem?_eq_none (by simpa using hi), Option.map_none, Option.getD_none, eq_comm,
        List.filter_eq_nil_iff]
      -- A slot of this rank would make the greatest rank at least `i`.
      intro slot _ hslot
      have hmem := List.mem_of_getElem? (beq_iff_eq.mp hslot)
      cases hmax : ranks.max? with
      | none =>
        rw [List.max?_eq_none_iff.mp hmax] at hmem
        cases hmem
      | some m =>
        have hle := (List.max?_eq_some_iff.mp hmax).2 i hmem
        simp [hmax] at hi
        omega
  constructor
  · intro i
    rw [hget]
    exact List.nodup_range.filter _
  · intro i slot
    rw [hget, List.mem_filter, List.mem_range, beq_iff_eq]
    constructor
    · exact fun h => h.2
    · intro h
      exact ⟨(List.getElem?_eq_some_iff.mp h).1, h⟩

def Reordered (layers more : Layers) : Prop := ∀ i, (more.getD i []).Perm (layers.getD i [])

theorem Reordered.refl (layers : Layers) : Reordered layers layers := fun _ => .refl _

theorem Reordered.trans {last : Layers} (h : Reordered layers more) (h' : Reordered more last) :
    Reordered layers last := fun i => (h' i).trans (h i)

theorem Reordered.forall₂ (h : Reordered layers more) (hlength : more.length = layers.length) :
    List.Forall₂ List.Perm more layers := by
  refine List.forall₂_iff_get.mpr ⟨hlength, fun i hmore hlayers => ?_⟩
  have hi := h i
  rwa [List.getD_eq_getElem more [] hmore, List.getD_eq_getElem layers [] hlayers] at hi

theorem Partition.reordered (h : Partition layers ranks) (hr : Reordered layers more) :
    Partition more ranks where
  nodup := fun i => (hr i).nodup_iff.mpr (h.nodup i)
  mem_iff := fun i slot => (hr i).mem_iff.trans (h.mem_iff i slot)

theorem sortAt_reordered (neighbors : Nat → List Nat) (layers : Layers) (rank : Nat) :
    Reordered layers (sortAt neighbors layers rank) := by
  intro i
  simp only [sortAt, List.getD_eq_getElem?_getD, List.getElem?_modify]
  cases layers[i]? with
  | none => exact .refl _
  | some layer =>
    simp only [Option.map_eq_map, Option.map_some, Option.getD_some]
    split
    · exact sortLayer_perm layers neighbors layer
    · exact .refl _

theorem foldl_sortAt_reordered (neighbors : Nat → List Nat) (is : List Nat) (layers : Layers) :
    Reordered layers (is.foldl (sortAt neighbors) layers) := by
  induction is generalizing layers with
  | nil => exact .refl _
  | cons i is ih => exact (sortAt_reordered neighbors layers i).trans (ih _)

theorem sweep_reordered (g : LayerGraph) (layers : Layers) : Reordered layers (sweep g layers) :=
  (foldl_sortAt_reordered _ _ _).trans (foldl_sortAt_reordered _ _ _)

theorem improve_reordered (g : LayerGraph) (passes fewest : Nat) {layers current best : Layers}
    (hc : Reordered layers current) (hb : Reordered layers best) :
    Reordered layers (improve g passes current best fewest) := by
  induction passes generalizing current best fewest with
  | zero => exact hb
  | succ passes ih =>
    have hnext := hc.trans (sweep_reordered g current)
    simp only [improve]
    split
    · exact hb
    · split
      · exact ih _ hnext hnext
      · exact ih _ hnext hb

theorem ordered_reordered (g : LayerGraph) (passes : Nat) (layers : Layers) :
    Reordered layers (ordered g passes layers) := by
  unfold ordered
  split
  · exact .refl _
  · exact improve_reordered g _ _ (.refl _) (.refl _)

theorem ordered_partition (g : LayerGraph) (passes : Nat) (ranks : List Nat) :
    Partition (ordered g passes (layersOfRanks ranks)) ranks :=
  (layersOfRanks_partition ranks).reordered (ordered_reordered g passes _)

end Layers

end FlowCanvas
