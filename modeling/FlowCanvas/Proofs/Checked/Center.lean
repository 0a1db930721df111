import FlowCanvas.Flow
import FlowCanvas.Proofs.Checked.Order
import FlowCanvas.Proofs.Checked.Rank
import FlowCanvas.Proofs.Checked.Search

/-! Centres on checked arrays. Along the flow and across it there is a cell for every slot. Layers
hold slots only, so every read and write hits a cell, and a packed layer looks back at the slot
before, which has its centre already. -/

namespace FlowCanvas

variable {α : Type} [Scalar α]

namespace Checked

abbrev Extents (α : Type) := Nat → Option (α × α)

section Centers

variable (s : LayoutSettings α) (extent? : Extents α)

def bands? (main : List α) (cursor : α) : Layers → Option (List α)
  | [] => some main
  | layer :: rest => do
    let extents ← layer.mapM extent?
    let depth := (extents.map (·.1)).foldl Scalar.larger Scalar.zero
    let main ← writeAll? main (layer.map fun slot => (slot, cursor + depth / Scalar.two))
    bands? main (cursor + (depth + s.rankSpacing)) rest

def desired? (neighbors : List (List Nat)) (cross : List (Option α)) (slot : Nat) : Option α := do
  let around ← neighbors[slot]?
  let placed ← around.mapM (cross[·]?)
  match placed.filterMap id with
  | [] => do
    let own ← cross[slot]?
    some (own.getD Scalar.zero)
  | centers => some (Scalar.mean centers)

def packNext? (layer : List Nat) (wishes packed : List α) (slot i : Nat) : Option α :=
  match minus? i 1 with
  | none => wishes[i]?
  | some prev => do
    let before ← packed[prev]?
    let last ← layer[prev]?
    let (_, lastHalf) ← extent? last
    let (_, half) ← extent? slot
    let wish ← wishes[i]?
    some (Scalar.larger wish (before + lastHalf + half + s.nodeSpacing))

def packStep? (layer : List Nat) (wishes packed : List α) (x : Nat × Nat) : Option (List α) := do
  let center ← packNext? s extent? layer wishes packed x.1 x.2
  some (packed ++ [center])

def pack? (layer : List Nat) (wishes : List α) : Option (List α) :=
  layer.zipIdx.foldlM (packStep? s extent? layer wishes) []

def placeLayer? (cross : List (Option α)) (visit : List (List Nat) × List Nat) :
    Option (List (Option α)) :=
  if visit.2.isEmpty then some cross
  else do
    let wishes ← visit.2.mapM (desired? visit.1 cross)
    let packed ← pack? s extent? visit.2 wishes
    let shift := Scalar.mean wishes - Scalar.mean packed
    writeAll? cross ((visit.2.zip (packed.map (· + shift))).map fun x => (x.1, some x.2))

def rounds (a : Adjacency) (layers : Layers) : List (List (List Nat) × List Nat) :=
  layers.map (fun layer => (a.predecessors, layer)) ++
    layers.reverse.map (fun layer => (a.successors, layer))

def settled? (a : Adjacency) (layers : Layers) : Option (List (Option α)) :=
  (rounds a layers ++ rounds a layers).foldlM (placeLayer? s extent?) (List.replicate a.size none)

def marginShift (starts : List α) : α :=
  match Scalar.least? starts with
  | some x => if Scalar.isFinite x then s.margin - x else Scalar.zero
  | none => Scalar.zero

def start? (cross : List (Option α)) (slot : Nat) : Option α := do
  let center ← cross[slot]?
  let (_, half) ← extent? slot
  some (center.getD Scalar.zero - half)

def center? (main : List α) (cross : List (Option α)) (shift : α) (slot : Nat) :
    Option (Point α) := do
  let across ← cross[slot]?
  let along ← main[slot]?
  some (s.direction.point along (across.getD Scalar.zero + shift))

def centers? (a : Adjacency) (layers : Layers) : Option (List (Point α)) := do
  let main ← bands? s extent? (List.replicate a.size Scalar.zero) s.margin layers
  let cross ← settled? s extent? a layers
  let starts ← (List.range a.size).mapM (start? extent? cross)
  (List.range a.size).mapM (center? s main cross (marginShift s starts))

def flow? (slots : Nat) (edges : List (Nat × Nat)) : Option (List (Point α)) := do
  let drawn ← Adjacency.ofEdges? slots edges
  let graph ← drawn.withoutBackEdges?
  let ranks ← graph.ranks?
  let layers ← layersOfRanks? ranks
  let layers ← graph.ordered? s.orderPasses layers
  centers? s extent? graph layers

end Centers

end Checked

open Checked

namespace Flow

structure Measured (s : LayoutSettings α) (flow : Flow α) (extent? : Extents α) : Prop where
  nodup : flow.layers.flatten.Nodup
  slot_lt : ∀ slot ∈ flow.layers.flatten, slot < flow.graph.size
  size : flow.graph.size = flow.sizes.length
  extent : ∀ slot < flow.graph.size, extent? slot = some (flow.depth s slot, flow.half s slot)

variable {s : LayoutSettings α} {flow : Flow α} {extent? : Extents α}

theorem bands?_writes {main : List α} {layers : Layers} (start : α)
    (h : ∀ slot ∈ layers.flatten, extent? slot = some (flow.depth s slot, flow.half s slot)) :
    bands? s extent? main start layers = writeAll? main (flow.bands s start layers) := by
  induction layers generalizing main start with
  | nil => rfl
  | cons layer rest ih =>
    have hlayer : layer.mapM extent? =
        some (layer.map fun slot => (flow.depth s slot, flow.half s slot)) :=
      mapM_some fun slot hslot => h slot (by simp [hslot])
    have hdepth : ((layer.map fun slot => (flow.depth s slot, flow.half s slot)).map
        (·.1)).foldl Scalar.larger Scalar.zero = flow.layerDepth s layer := by
      rw [List.map_map]
      rfl
    simp only [bands?, hlayer, Option.bind_eq_bind, Option.bind_some, hdepth, bands,
      writeAll?_append]
    exact bind_congr fun main => ih _ fun slot hslot => h slot (by simp [hslot])

theorem bands_keys (start : α) (layers : Layers) :
    (flow.bands s start layers).map (·.1) = layers.flatten := by
  induction layers generalizing start with
  | nil => rfl
  | cons layer rest ih => simp [bands, ih, Function.comp_def]

namespace Measured

variable (h : Measured s flow extent?)

include h

theorem bands (start : α) : bands? s extent? (table flow.graph.size fun _ => Scalar.zero) start
    flow.layers = some (table flow.graph.size (centerOf (flow.bands s start flow.layers))) := by
  rw [bands?_writes start fun slot hslot => h.extent slot (h.slot_lt slot hslot)]
  have hkeys : (flow.bands s start flow.layers).map (·.1) = flow.layers.flatten :=
    bands_keys start flow.layers
  refine table_writeAll ?_ fun w hw => ?_
  · rw [hkeys]
    exact h.nodup
  · exact h.slot_lt w.1 (hkeys ▸ List.mem_map_of_mem hw)

omit h in
theorem desired?_eq {n slot : Nat} {neighbors : Nat → List Nat} (hslot : slot < n)
    (hneighbors : ∀ t ∈ neighbors slot, t < n) (placed : List (Nat × α)) :
    desired? (table n neighbors) (table n (placed.lookup ·)) slot =
      some (desired neighbors placed slot) := by
  have hread : (neighbors slot).mapM ((table n (placed.lookup ·))[·]?) =
      some ((neighbors slot).map (placed.lookup ·)) :=
    mapM_some fun t ht => table_read (hneighbors t ht)
  have hplaced : ((neighbors slot).map (placed.lookup ·)).filterMap id =
      (neighbors slot).filterMap (placed.lookup ·) := by
    rw [List.filterMap_map]
    rfl
  simp only [desired?, table_read hslot, hread, Option.bind_eq_bind, Option.bind_some, hplaced,
    desired]
  cases (neighbors slot).filterMap (placed.lookup ·) <;> rfl

theorem packRest {layer : List Nat} {wishes : List α}
    (hlayer : ∀ slot ∈ layer, slot < flow.graph.size) (hlen : wishes.length = layer.length)
    (done rest : List Nat) (last : Nat) (before : List α) (center : α)
    (hsplit : layer = done ++ last :: rest) (hbefore : before.length = done.length) :
    (rest.zipIdx (done.length + 1)).foldlM (packStep? s extent? layer wishes)
        (before ++ [center]) =
      some (before ++ center :: flow.packAfter s last center
        (rest.zip (wishes.drop (done.length + 1)))) := by
  -- As many slots are done as there are centres before, so the one before is read from both.
  induction rest generalizing done last before center with
  | nil => rfl
  | cons slot rest ih =>
    have hi : done.length + 1 < wishes.length := by
      rw [hlen, hsplit, List.length_append, List.length_cons, List.length_cons]
      omega
    have hlast : layer[done.length]? = some last := by simp [hsplit]
    have hpacked : (before ++ [center])[done.length]? = some center := by simp [← hbefore]
    have hnext : packStep? s extent? layer wishes (before ++ [center]) (slot, done.length + 1) =
        some (before ++ [center] ++ [Scalar.larger wishes[done.length + 1]
          (center + flow.half s last + flow.half s slot + s.nodeSpacing)]) := by
      simp only [packStep?, packNext?, minus?_eq (Nat.le_add_left 1 done.length),
        Nat.add_sub_cancel, hpacked, hlast, h.extent last (hlayer last (by simp [hsplit])),
        h.extent slot (hlayer slot (by simp [hsplit])), List.getElem?_eq_getElem hi,
        Option.bind_eq_bind, Option.bind_some]
    have hrest := ih (done ++ [last]) slot (before ++ [center])
      (Scalar.larger wishes[done.length + 1]
        (center + flow.half s last + flow.half s slot + s.nodeSpacing))
      (by simp [hsplit]) (by simp [hbefore])
    simp only [List.length_append, List.length_singleton] at hrest
    rw [List.zipIdx_cons, List.foldlM_cons, hnext, Option.bind_eq_bind, Option.bind_some, hrest,
      List.drop_eq_getElem_cons hi, List.zip_cons_cons, packAfter, List.append_assoc,
      List.singleton_append]

theorem pack {layer : List Nat} {wishes : List α} (hlayer : ∀ slot ∈ layer, slot < flow.graph.size)
    (hlen : wishes.length = layer.length) :
    pack? s extent? layer wishes = some (flow.pack s (layer.zip wishes)) := by
  match layer, wishes, hlen with
  | [], _, _ => simp [pack?, Flow.pack]
  | slot :: rest, wish :: wishes, hlen =>
    have hfirst : packStep? s extent? (slot :: rest) (wish :: wishes) [] (slot, 0) =
        some ([] ++ [wish]) := rfl
    have hrest := h.packRest hlayer hlen [] rest slot [] wish rfl rfl
    rw [pack?, List.zipIdx_cons, List.foldlM_cons, hfirst, Option.bind_eq_bind, Option.bind_some]
    exact hrest

theorem placeLayer {neighbors : Nat → List Nat} {layer : List Nat}
    (hneighbors : ∀ slot < flow.graph.size, ∀ t ∈ neighbors slot, t < flow.graph.size)
    (hlayer : layer ∈ flow.layers) (placed : List (Nat × α)) :
    placeLayer? s extent? (table flow.graph.size (placed.lookup ·))
        (table flow.graph.size neighbors, layer) =
      some (table flow.graph.size ((flow.placeLayer s placed (neighbors, layer)).lookup ·)) := by
  have hin (slot : Nat) (hslot : slot ∈ layer) : slot < flow.graph.size :=
    h.slot_lt slot (List.mem_flatten.mpr ⟨layer, hlayer, hslot⟩)
  have hwishes : layer.mapM (desired? (table flow.graph.size neighbors)
      (table flow.graph.size (placed.lookup ·))) = some (layer.map (desired neighbors placed)) :=
    mapM_some fun slot hslot =>
      desired?_eq (hin slot hslot) (hneighbors slot (hin slot hslot)) placed
  unfold placeLayer?
  split
  · rename_i hempty
    obtain rfl : layer = [] := List.isEmpty_iff.mp hempty
    rfl
  · have hpack : pack? s extent? layer (layer.map (desired neighbors placed)) =
        some (flow.pack s (layer.zip (layer.map (desired neighbors placed)))) :=
      h.pack hin (by simp)
    simp only [hwishes, Option.bind_eq_bind, Option.bind_some, hpack, Flow.placeLayer]
    generalize hcenters : (flow.pack s (layer.zip (layer.map (desired neighbors placed)))).map _ =
      centers
    have hlen : layer.length = centers.length := by
      simp [← hcenters, pack_length]
    have hkeys : (layer.zip centers).map (·.1) = layer := List.map_fst_zip hlen.le
    rw [table_writeAll_lookup]
    · rw [hkeys]
      exact (List.nodup_flatten.mp h.nodup).1 layer hlayer
    · exact fun w hw => hin w.1 (hkeys ▸ List.mem_map_of_mem hw)

omit [Scalar α] h in
theorem rounds_adjacency : rounds flow.graph.adjacency flow.layers =
    flow.visits.map fun visit => (table flow.graph.size visit.1, visit.2) := by
  simp [rounds, Flow.visits, LayerGraph.adjacency, Function.comp_def]

omit [Scalar α] h in
theorem visit_lt {visit : (Nat → List Nat) × List Nat} (hvisit : visit ∈ flow.visits) :
    ∀ slot < flow.graph.size, ∀ t ∈ visit.1 slot, t < flow.graph.size := by
  intro slot _ t ht
  rcases List.mem_append.mp hvisit with hv | hv
  · obtain ⟨layer, -, rfl⟩ := List.mem_map.mp hv
    exact LayerGraph.predecessor_lt ht
  · obtain ⟨layer, -, rfl⟩ := List.mem_map.mp hv
    exact LayerGraph.successor_lt ht

theorem settled : settled? s extent? flow.graph.adjacency flow.layers =
    some (table flow.graph.size ((flow.settled s).lookup ·)) := by
  have hrun := foldlM_follows
    (fun cross (visit : (Nat → List Nat) × List Nat) =>
      placeLayer? s extent? cross (table flow.graph.size visit.1, visit.2))
    (flow.placeLayer s) (fun placed => table flow.graph.size (placed.lookup ·)) (fun _ => True)
    (flow.visits ++ flow.visits) [] trivial (by
      intro placed visit hvisit _
      have hvisit : visit ∈ flow.visits := by simpa using hvisit
      exact ⟨h.placeLayer (visit_lt hvisit) (flow.mem_visits_layer hvisit) placed, trivial⟩)
  rw [settled?, LayerGraph.adjacency_size, rounds_adjacency, ← List.map_append, List.foldlM_map,
    table_const]
  exact hrun.1

theorem centers : centers? s extent? flow.graph.adjacency flow.layers =
    some (flow.centers s) := by
  have hstarts : (List.range flow.graph.size).mapM (start? extent?
      (table flow.graph.size ((flow.settled s).lookup ·))) =
      some (flow.slots.map fun slot => centerOf (flow.settled s) slot - flow.half s slot) := by
    rw [slots, ← h.size]
    refine mapM_some fun slot hslot => ?_
    have hlt := List.mem_range.mp hslot
    simp only [start?, table_read hlt, h.extent slot hlt, Option.bind_eq_bind, Option.bind_some,
      centerOf]
  have hcenters : (List.range flow.graph.size).mapM (center? s
      (table flow.graph.size (centerOf (flow.bands s s.margin flow.layers)))
      (table flow.graph.size ((flow.settled s).lookup ·))
      (flow.toMargin s (flow.settled s))) = some (flow.centers s) := by
    rw [Flow.centers, slots, ← h.size]
    refine mapM_some fun slot hslot => ?_
    have hlt := List.mem_range.mp hslot
    simp only [center?, table_read hlt, Option.bind_eq_bind, Option.bind_some, centerOf]
  simp only [centers?, LayerGraph.adjacency_size, table_const, h.bands, h.settled, hstarts,
    Option.bind_eq_bind, Option.bind_some]
  exact hcenters

end Measured

variable {passes : Nat} {sizes : List (Size α)} {edges : List (Nat × Nat)}

omit [Scalar α] in
theorem ofEdges_partition : Layers.Partition (ofEdges passes sizes edges).layers
    (ofEdges passes sizes edges).graph.ranks :=
  Layers.ordered_partition _ _ _

omit [Scalar α] in
theorem ofEdges_ranks_length : (ofEdges passes sizes edges).graph.ranks.length =
    (ofEdges passes sizes edges).graph.size :=
  (LayerGraph.ranks_ranked (LayerGraph.withoutBackEdges_acyclic _)).length

theorem ofEdges_measured (hextent : ∀ slot < sizes.length, extent? slot =
      some ((ofEdges passes sizes edges).depth s slot, (ofEdges passes sizes edges).half s slot)) :
    Measured s (ofEdges passes sizes edges) extent? where
  nodup := ofEdges_partition.flatten_nodup
  slot_lt := by
    intro slot hslot
    rw [← ofEdges_ranks_length]
    exact ofEdges_partition.slot_lt hslot
  size := by rw [ofEdges, LayerGraph.withoutBackEdges_size, LayerGraph.ofEdges_size]
  extent := by
    intro slot hslot
    rw [ofEdges, LayerGraph.withoutBackEdges_size, LayerGraph.ofEdges_size] at hslot
    exact hextent slot hslot

theorem flow?_eq (hextent : ∀ slot < sizes.length, extent? slot =
      some ((ofEdges s.orderPasses sizes edges).depth s slot,
        (ofEdges s.orderPasses sizes edges).half s slot)) :
    flow? s extent? sizes.length edges =
      some ((ofEdges s.orderPasses sizes edges).centers s) := by
  have hranks : (ofEdges s.orderPasses sizes edges).graph.ranks.length =
      (ofEdges s.orderPasses sizes edges).graph.size := ofEdges_ranks_length
  have hordered : (LayerGraph.ofEdges sizes.length edges).withoutBackEdges.adjacency.ordered?
      s.orderPasses (layersOfRanks (LayerGraph.ofEdges sizes.length edges).withoutBackEdges.ranks) =
        some (ofEdges s.orderPasses sizes edges).layers := Layers.ordered?_eq hranks s.orderPasses
  simp only [flow?, LayerGraph.ofEdges?_adjacency, LayerGraph.withoutBackEdges?_eq,
    LayerGraph.ranks?_eq, layersOfRanks?_eq, hordered, Option.bind_eq_bind, Option.bind_some]
  exact (ofEdges_measured hextent).centers

end Flow

end FlowCanvas
