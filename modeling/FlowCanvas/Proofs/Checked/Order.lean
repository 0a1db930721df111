import Mathlib.Data.List.Perm.Basic
import FlowCanvas.Proofs.Checked.Adjacency
import FlowCanvas.Proofs.Layer.Partition

/-! The order inside layers on checked arrays. Layers in which no slot is twice put each of them at
one place at most, so an array has room for all places and every neighbour is found there. Sorting
keeps the number of layers, which is why the best order fits where the layers were. -/

namespace FlowCanvas

namespace Checked

open Layers

def positions? (layers : Layers) (slots : Nat) : Option (List (Option Nat)) :=
  layers.foldlM (fun positions layer =>
    writeAll? positions (layer.zipIdx.map fun x => (x.1, some x.2))) (List.replicate slots none)

def median? (positions : List (Option Nat)) (neighbors : List Nat) : Option (Option Nat) := do
  let places ← neighbors.mapM (positions[·]?)
  let sorted := (places.filterMap id).mergeSort
  if sorted.isEmpty then some none
  else if sorted.length % 2 = 1 then do
    let value ← sorted[sorted.length / 2]?
    some (some (2 * value))
  else do
    let left ← minus? (sorted.length / 2) 1
    let lower ← sorted[left]?
    let upper ← sorted[sorted.length / 2]?
    some (some (lower + upper))

def sortLayer? (positions : List (Option Nat)) (neighbors : List (List Nat)) (layer : List Nat) :
    Option (List Nat) :=
  if layer.length ≤ 1 then some layer
  else do
    let keyed ← layer.zipIdx.mapM fun (slot, i) => do
      let around ← neighbors[slot]?
      let key ← median? positions around
      some (key.getD (2 * i), slot)
    some ((keyed.mergeSort fun a b => a.1 ≤ b.1).map (·.2))

def sortAt? (slots : Nat) (neighbors : List (List Nat)) (layers : Layers) (rank : Nat) :
    Option Layers := do
  let positions ← positions? layers slots
  let layer ← layers[rank]?
  let sorted ← sortLayer? positions neighbors layer
  write? layers rank sorted

namespace Adjacency

variable (a : Adjacency)

def sweep? (layers : Layers) : Option Layers := do
  let down ← (List.range' 1 (layers.length - 1)).foldlM (sortAt? a.size a.predecessors) layers
  let last ← minus? layers.length 1
  (List.range last).reverse.foldlM (sortAt? a.size a.successors) down

def segment? (positions : List (Option Nat)) (slot next : Nat) : Option (Option (Nat × Nat)) := do
  let i ← positions[slot]?
  let j ← positions[next]?
  some (i.bind fun i => j.map fun j => (i, j))

def segmentsOf? (positions : List (Option Nat)) (lower : List Nat) (slot : Nat) :
    Option (List (Nat × Nat)) := do
  let nexts ← a.successors[slot]?
  let ends ← (nexts.filter lower.contains).mapM (segment? positions slot)
  some (ends.filterMap id)

def segments? (positions : List (Option Nat)) (upper lower : List Nat) :
    Option (List (Nat × Nat)) := do
  let parts ← upper.mapM (a.segmentsOf? positions lower)
  some parts.flatten

def crossingsFrom? (positions : List (Option Nat)) : Layers → Option Nat
  | upper :: lower :: rest => do
    let segments ← a.segments? positions upper lower
    let more ← crossingsFrom? positions (lower :: rest)
    some (crossingPairs segments + more)
  | _ => some 0

def crossings? (layers : Layers) : Option Nat := do
  let positions ← positions? layers a.size
  a.crossingsFrom? positions layers

def improve? : Nat → Layers → Layers → Nat → Option (Layers × Layers)
  | 0, current, best, _ => some (current, best)
  | passes + 1, current, best, fewest =>
    if fewest = 0 then some (current, best)
    else do
      let next ← a.sweep? current
      let count ← a.crossings? next
      if count < fewest then improve? passes next next count
      else improve? passes next best fewest

def ordered? (passes : Nat) (layers : Layers) : Option Layers :=
  if layers.length ≤ 1 then some layers
  else do
    let fewest ← a.crossings? layers
    let (current, best) ← a.improve? (max passes 1) layers layers fewest
    if current.length = best.length then some best else none

end Adjacency

end Checked

open Checked

namespace Layers

variable {layers : Layers} {ranks : List Nat} {g : LayerGraph} {n : Nat}

theorem lookup_zipIdx (layer : List Nat) (slot k : Nat) :
    ((layer.zipIdx k).map fun x => (x.1, some x.2)).lookup slot =
      (layer.idxOf? slot).map fun i => some (i + k) := by
  induction layer generalizing k with
  | nil => rfl
  | cons s layer ih =>
    rw [List.zipIdx_cons, List.map_cons, List.lookup_cons, List.idxOf?_cons]
    by_cases hs : slot = s
    · simp [hs]
    · have hne : (slot == s) = false := by simpa using hs
      have hne' : (s == slot) = false := by simpa using Ne.symm hs
      rw [hne, hne', ih]
      cases layer.idxOf? slot <;> simp [Nat.add_assoc, Nat.add_comm 1]

theorem place?_eq_none {slot : Nat} (h : slot ∉ layers.flatten) : layers.place? slot = none := by
  rw [place?, List.findSome?_eq_none_iff]
  intro layer hlayer
  rw [List.idxOf?_eq_none_iff]
  exact fun hs => h (List.mem_flatten.mpr ⟨layer, hlayer, hs⟩)

theorem place?_append (done : Layers) (layer : List Nat) (slot : Nat) :
    place? (done ++ [layer]) slot = (place? done slot).or (layer.idxOf? slot) := by
  simp [place?, List.findSome?_append]

theorem positions?_eq (hnodup : layers.flatten.Nodup) (hlt : ∀ s ∈ layers.flatten, s < n) :
    positions? layers n = some (table n layers.place?) := by
  obtain ⟨positions, hrun, rfl⟩ := foldlM_run
    (fun positions layer => writeAll? positions (layer.zipIdx.map fun x => (x.1, some x.2)))
    (fun done positions => positions = table n (place? done)) layers (List.replicate n none)
    (table_const n none) (by
      rintro done layer rest positions hlayers rfl
      have hmem (s : Nat) (hs : s ∈ layer) : s ∈ layers.flatten :=
        List.mem_flatten.mpr ⟨layer, by simp [hlayers], hs⟩
      have hkeys : (layer.zipIdx.map fun x => (x.1, some x.2)).map (·.1) = layer := by
        rw [List.map_map]
        exact List.zipIdx_map_fst 0 layer
      -- No slot of this layer was put at a place of a layer before it.
      have hfresh (s : Nat) (hs : s ∈ layer) : s ∉ done.flatten := by
        rw [hlayers, List.flatten_append, List.nodup_append] at hnodup
        exact fun hd => hnodup.2.2 s hd s (by simp [hs]) rfl
      have hlayer : layer.Nodup := (List.nodup_flatten.mp hnodup).1 layer (by simp [hlayers])
      refine ⟨_, table_writeAll (hkeys.symm ▸ hlayer) ?_, table_congr fun s _ => ?_⟩
      · intro w hw
        exact hlt w.1 (hmem w.1 (hkeys ▸ List.mem_map_of_mem hw))
      · rw [lookup_zipIdx, place?_append]
        cases hi : layer.idxOf? s with
        | none => simp
        | some i =>
          rw [place?_eq_none (hfresh s (List.isSome_idxOf?.mp (by simp [hi])))]
          rfl)
  exact hrun

theorem Partition.slot_lt (h : Partition layers ranks) {s : Nat} (hs : s ∈ layers.flatten) :
    s < ranks.length := by
  obtain ⟨layer, hlayer, hs⟩ := List.mem_flatten.mp hs
  obtain ⟨i, -, rfl⟩ := mem_getD_of_mem hlayer
  exact (List.getElem?_eq_some_iff.mp ((h.mem_iff i s).mp hs)).1

theorem median?_eq {place : Nat → Option Nat} {neighbors : List Nat}
    (hlt : ∀ s ∈ neighbors, s < n) : median? (table n place) neighbors =
      some (twiceMedian? (neighbors.filterMap place)) := by
  have hread : neighbors.mapM ((table n place)[·]?) = some (neighbors.map place) :=
    mapM_some fun s hs => table_read (hlt s hs)
  have hplaced : (neighbors.map place).filterMap id = neighbors.filterMap place := by
    rw [List.filterMap_map]
    rfl
  rw [median?, hread]
  simp only [Option.bind_eq_bind, Option.bind_some, hplaced, twiceMedian?]
  generalize (neighbors.filterMap place).mergeSort = sorted
  cases hsorted : sorted with
  | nil => rfl
  | cons x xs =>
    rw [← hsorted]
    have hpos : 0 < sorted.length := by simp [hsorted]
    have hmid : sorted.length / 2 < sorted.length := by omega
    have hempty : ¬ sorted.isEmpty = true := by simp [hsorted]
    rw [if_neg hempty]
    by_cases hodd : sorted.length % 2 = 1
    · simp [hodd, hmid]
    · have hleft : 1 ≤ sorted.length / 2 := by omega
      have hlower : sorted.length / 2 - 1 < sorted.length := by omega
      simp [hodd, hmid, hlower, minus?_eq hleft]

theorem sortLayer?_eq {neighbors : Nat → List Nat}
    (hneighbors : ∀ s < n, ∀ t ∈ neighbors s, t < n) {layer : List Nat}
    (hlayer : ∀ s ∈ layer, s < n) :
    sortLayer? (table n layers.place?) (table n neighbors) layer =
      some (sortLayer layers neighbors layer) := by
  unfold sortLayer?
  split
  · -- A layer of one slot is sorted.
    rename_i hshort
    match layer, hshort with
    | [], _ => simp [sortLayer]
    | [s], _ => simp [sortLayer]
  · have hkeyed : (layer.zipIdx.mapM fun (slot, i) => do
        let around ← (table n neighbors)[slot]?
        let key ← median? (table n layers.place?) around
        some (key.getD (2 * i), slot)) = some (layer.zipIdx.map fun (s, i) =>
          ((twiceMedian? ((neighbors s).filterMap layers.place?)).getD (2 * i), s)) := by
      refine mapM_some fun x hx => ?_
      have hs : x.1 < n := hlayer x.1 (List.fst_mem_of_mem_zipIdx hx)
      simp only [table_read hs, Option.bind_eq_bind, Option.bind_some,
        median?_eq (hneighbors x.1 hs)]
    rw [hkeyed]
    rfl

theorem sortAt?_eq {neighbors : Nat → List Nat}
    (hneighbors : ∀ s < n, ∀ t ∈ neighbors s, t < n) (hnodup : layers.flatten.Nodup)
    (hlt : ∀ s ∈ layers.flatten, s < n) {rank : Nat} (hrank : rank < layers.length) :
    sortAt? n (table n neighbors) layers rank = some (sortAt neighbors layers rank) := by
  have hlayer (s : Nat) (hs : s ∈ layers[rank]) : s < n :=
    hlt s (List.mem_flatten.mpr ⟨_, List.getElem_mem hrank, hs⟩)
  simp only [sortAt?, positions?_eq hnodup hlt, List.getElem?_eq_getElem hrank,
    Option.bind_eq_bind, Option.bind_some, sortLayer?_eq hneighbors hlayer]
  rw [write?, if_pos hrank, sortAt, List.modify_eq_set_getElem?, List.getElem?_eq_getElem hrank]
  rfl

theorem sortAt_length (neighbors : Nat → List Nat) (layers : Layers) (rank : Nat) :
    (sortAt neighbors layers rank).length = layers.length := List.length_modify _ _ _

theorem sortAt_flatten (neighbors : Nat → List Nat) (layers : Layers) (rank : Nat) :
    (sortAt neighbors layers rank).flatten.Perm layers.flatten :=
  List.Perm.flatten_congr
    ((sortAt_reordered neighbors layers rank).forall₂ (sortAt_length neighbors layers rank))

structure Stands (g : LayerGraph) (count : Nat) (layers : Layers) : Prop where
  nodup : layers.flatten.Nodup
  lt : ∀ s ∈ layers.flatten, s < g.size
  length : layers.length = count

namespace Stands

variable {count : Nat} (h : Stands g count layers)

theorem sortAt {neighbors : Nat → List Nat} (h : Stands g count layers) (rank : Nat) :
    Stands g count (Layers.sortAt neighbors layers rank) :=
  ⟨(sortAt_flatten neighbors layers rank).nodup_iff.mpr h.nodup,
    fun s hs => h.lt s ((sortAt_flatten neighbors layers rank).mem_iff.mp hs),
    (sortAt_length neighbors layers rank).trans h.length⟩

theorem sortAll (neighbors : Nat → List Nat) (order : List Nat) (h : Stands g count layers)
    (hneighbors : ∀ s < g.size, ∀ t ∈ neighbors s, t < g.size)
    (horder : ∀ rank ∈ order, rank < count) :
    order.foldlM (sortAt? g.size (table g.size neighbors)) layers =
        some (order.foldl (Layers.sortAt neighbors) layers) ∧
      Stands g count (order.foldl (Layers.sortAt neighbors) layers) :=
  foldlM_follows _ (Layers.sortAt neighbors) id (Stands g count) order layers h
    fun _ rank hrank hs => ⟨sortAt?_eq hneighbors hs.nodup hs.lt
      (hs.length.symm ▸ horder rank hrank), hs.sortAt rank⟩

include h

theorem sweep (hcount : 1 ≤ count) : g.adjacency.sweep? layers = some (Layers.sweep g layers) ∧
    Stands g count (Layers.sweep g layers) := by
  have hdown := h.sortAll g.predecessors (List.range' 1 (layers.length - 1))
    (fun _ _ _ ht => LayerGraph.predecessor_lt ht) (by
      intro rank hrank
      have hlt := (List.mem_range'_1.mp hrank).2
      have hlen := h.length
      omega)
  have hup := hdown.2.sortAll g.successors (List.range (layers.length - 1)).reverse
    (fun _ _ _ ht => LayerGraph.successor_lt ht) (by
      intro rank hrank
      have hlt := List.mem_range.mp (List.mem_reverse.mp hrank)
      have hlen := h.length
      omega)
  have hlast : 1 ≤ layers.length := h.length ▸ hcount
  refine ⟨?_, hup.2⟩
  simp only [Adjacency.sweep?, LayerGraph.adjacency_size, minus?_eq hlast]
  rw [LayerGraph.adjacency]
  simp only [hdown.1, Option.bind_eq_bind, Option.bind_some, hup.1]
  rfl

theorem positions : positions? layers g.size = some (table g.size layers.place?) :=
  positions?_eq h.nodup h.lt

end Stands

theorem place?_of_mem (hnodup : layers.flatten.Nodup) {layer : List Nat} (hlayer : layer ∈ layers)
    {slot : Nat} (hs : slot ∈ layer) : layers.place? slot = layer.idxOf? slot := by
  obtain ⟨before, after, rfl⟩ := List.append_of_mem hlayer
  rw [List.flatten_append, List.flatten_cons, List.nodup_append] at hnodup
  have hfresh : slot ∉ before.flatten := fun hb => hnodup.2.2 slot hb slot (by simp [hs]) rfl
  obtain ⟨i, hi⟩ := Option.isSome_iff_exists.mp (List.isSome_idxOf?.mpr hs)
  have hnone : before.findSome? (fun layer => layer.idxOf? slot) = none := place?_eq_none hfresh
  rw [place?, List.findSome?_append, hnone, Option.none_or, List.findSome?_cons, hi]

section Segments

variable {upper lower : List Nat} (h : Stands g n layers) (hupper : upper ∈ layers)
  (hlower : lower ∈ layers)

include h

theorem Stands.slot_lt {layer : List Nat} (hlayer : layer ∈ layers) {s : Nat} (hs : s ∈ layer) :
    s < g.size :=
  h.lt s (List.mem_flatten.mpr ⟨layer, hlayer, hs⟩)

include hupper hlower

theorem segmentsOf?_eq {s : Nat} (hs : s ∈ upper) :
    g.adjacency.segmentsOf? (table g.size layers.place?) lower s =
      some ((g.successors s).filterMap fun t =>
        (upper.idxOf? s).bind fun i => (lower.idxOf? t).map fun j => (i, j)) := by
  have hnodup := h.nodup
  have hends : ((g.successors s).filter lower.contains).mapM
      (Adjacency.segment? (table g.size layers.place?) s) =
      some (((g.successors s).filter lower.contains).map fun t =>
        (upper.idxOf? s).bind fun i => (lower.idxOf? t).map fun j => (i, j)) := by
    refine mapM_some fun t ht => ?_
    have ht : t ∈ lower := by simpa using (List.mem_filter.mp ht).2
    simp only [Adjacency.segment?, table_read (h.slot_lt hupper hs),
      table_read (h.slot_lt hlower ht), Option.bind_eq_bind, Option.bind_some,
      place?_of_mem hnodup hupper hs, place?_of_mem hnodup hlower ht]
  simp only [Adjacency.segmentsOf?, LayerGraph.successors_read (h.slot_lt hupper hs), hends,
    Option.bind_eq_bind, Option.bind_some, List.filterMap_map, List.filterMap_filter]
  congr 1
  refine List.filterMap_congr fun t _ => ?_
  by_cases ht : t ∈ lower
  · simp [ht]
  · have hnone := List.idxOf?_eq_none_iff.mpr ht
    cases upper.idxOf? s <;> simp [ht, hnone]

theorem segments?_eq : g.adjacency.segments? (table g.size layers.place?) upper lower =
    some (segments g upper lower) := by
  rw [Adjacency.segments?, mapM_some fun s hs => segmentsOf?_eq h hupper hlower hs,
    Option.bind_eq_bind, Option.bind_some, segments, List.flatMap_def]
  congr 2
  have hnodup := (List.nodup_flatten.mp h.nodup).1 upper hupper
  conv_lhs =>
    rw [← List.zipIdx_map_fst 0 upper, List.map_map]
  refine List.map_congr_left fun x hx => ?_
  have hidx : upper.idxOf? x.1 = some x.2 :=
    (idxOf?_eq_some_iff_of_nodup hnodup).mpr (List.mem_zipIdx_iff_getElem?.mp hx)
  simp only [Function.comp_apply, List.zipIdx_map_fst, hidx, Option.bind_some]

end Segments

theorem crossingsFrom?_eq (h : Stands g n layers) (rest : Layers)
    (hrest : ∀ layer ∈ rest, layer ∈ layers) :
    g.adjacency.crossingsFrom? (table g.size layers.place?) rest = some (crossings g rest) := by
  fun_induction crossings g rest with
  | case1 upper lower rest ih =>
    have hsegments := segments?_eq h (hrest upper (by simp)) (hrest lower (by simp))
    have hmore := ih fun layer hl => hrest layer (List.mem_cons_of_mem _ hl)
    simp only [Adjacency.crossingsFrom?, hsegments, hmore, Option.bind_eq_bind, Option.bind_some]
  | case2 rest hshort =>
    unfold Adjacency.crossingsFrom?
    split
    · rename_i upper lower more
      exact (hshort upper lower more rfl).elim
    · rfl

theorem Stands.crossings (h : Stands g n layers) :
    g.adjacency.crossings? layers = some (Layers.crossings g layers) := by
  rw [Adjacency.crossings?, LayerGraph.adjacency_size, h.positions, Option.bind_eq_bind,
    Option.bind_some, crossingsFrom?_eq h layers fun _ hl => hl]

theorem improve?_eq {current best : Layers} (hn : 1 ≤ n) (passes fewest : Nat)
    (hcurrent : Stands g n current) (hbest : Stands g n best) :
    ∃ last, g.adjacency.improve? passes current best fewest =
        some (last, improve g passes current best fewest) ∧ Stands g n last ∧
      Stands g n (improve g passes current best fewest) := by
  induction passes generalizing current best fewest with
  | zero => exact ⟨current, rfl, hcurrent, hbest⟩
  | succ passes ih =>
    unfold improve Adjacency.improve?
    by_cases hnone : fewest = 0
    · rw [if_pos hnone, if_pos hnone]
      exact ⟨current, rfl, hcurrent, hbest⟩
    · obtain ⟨hsweep, hnext⟩ := hcurrent.sweep hn
      rw [if_neg hnone, if_neg hnone]
      simp only [hsweep, hnext.crossings, Option.bind_eq_bind, Option.bind_some]
      split
      · exact ih _ hnext hnext
      · exact ih _ hnext hbest

theorem Stands.ordered (h : Stands g layers.length layers) (passes : Nat) :
    g.adjacency.ordered? passes layers = some (Layers.ordered g passes layers) := by
  unfold Adjacency.ordered? Layers.ordered
  split
  · rfl
  · rename_i hshort
    obtain ⟨last, hrun, hlast, hbest⟩ :=
      improve?_eq (by omega) (max passes 1) (Layers.crossings g layers) h h
    simp only [h.crossings, hrun, Option.bind_eq_bind, Option.bind_some]
    rw [if_pos (hlast.length.trans hbest.length.symm)]

theorem ordered?_eq {g : LayerGraph} {ranks : List Nat} (hranks : ranks.length = g.size)
    (passes : Nat) : g.adjacency.ordered? passes (layersOfRanks ranks) =
      some (ordered g passes (layersOfRanks ranks)) := by
  have hpartition := layersOfRanks_partition ranks
  exact Stands.ordered ⟨hpartition.flatten_nodup, fun _ hs => hranks ▸ hpartition.slot_lt hs, rfl⟩
    passes

end Layers

end FlowCanvas
