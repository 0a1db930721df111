import Mathlib.Order.Bounds.Basic
import FlowCanvas.Proofs.Flow.Separation

/-! The start of a flow. Along the flow the deepest slot of the first layer starts at the margin and
no slot starts before it. Across the flow all slots are moved by what brings the first of them to
the margin. Snapping keeps the order of coordinates, so on the grid the first boxes start where the
margin snaps to. -/

namespace FlowCanvas

theorem Direction.eq_or_crosswise (dir other : Direction) : dir = other ∨ dir = other.crosswise := by
  cases dir <;> cases other <;> simp [crosswise]

namespace Flow

variable (s : LayoutSettings Rat) (flow : Flow Rat)

theorem bandStart_first (start : Rat) (layers : Layers) :
    flow.bandStart s start layers 0 = start := by
  cases layers <;> rfl

theorem exists_deepest {layer : List Nat} (hlayer : layer ≠ [])
    (hdepth : ∀ slot, 0 ≤ flow.depth s slot) :
    ∃ slot ∈ layer, flow.depth s slot = flow.layerDepth s layer := by
  have hmem := (Scalar.foldl_larger (layer.map (flow.depth s)) Scalar.zero).1
  rcases List.mem_cons.mp hmem with hzero | hmem
  -- A layer without depth has no slot with any.
  · obtain ⟨slot, hslot⟩ := List.exists_mem_of_ne_nil layer hlayer
    have hle := (layerDepth_bounds s flow layer).2 slot hslot
    rw [layerDepth, hzero] at hle
    exact ⟨slot, hslot, (le_antisymm hle (hdepth slot)).trans hzero.symm⟩
  · exact List.mem_map.mp hmem

def looseStarts (dir : Direction) : Set Rat :=
  {x | ∃ slot < flow.sizes.length, dir.start (flow.loose s slot) = x}

def boxStarts (dir : Direction) : Set Rat :=
  {x | ∃ slot < flow.sizes.length, dir.start (flow.box s slot) = x}

variable {flow}

theorem boxStarts_isLeast {dir : Direction} {x : Rat} (h : IsLeast (flow.looseStarts s dir) x) :
    IsLeast (flow.boxStarts s dir) (Grid.snap x s.gridSize) := by
  have hstart (slot : Nat) : dir.start (flow.box s slot) =
      Grid.snap (dir.start (flow.loose s slot)) s.gridSize := by
    rw [box_eq, Direction.start_snapped]
  constructor
  · obtain ⟨slot, hlt, rfl⟩ := h.1
    exact ⟨slot, hlt, hstart slot⟩
  · rintro _ ⟨slot, hlt, rfl⟩
    rw [hstart]
    exact Grid.snap_mono s.gridSize (h.2 ⟨slot, hlt, rfl⟩)

theorem looseStarts_across (hslots : 0 < flow.sizes.length) :
    IsLeast (flow.looseStarts s s.direction.crosswise) s.margin := by
  have hstart {slot : Nat} (h : slot < flow.sizes.length) :
      s.direction.crosswise.start (flow.loose s slot) =
        centerOf (flow.settled s) slot - flow.half s slot +
          flow.toMargin s (flow.settled s) := by
    rw [loose_start_across s h]
    ring
  cases hleast : Scalar.least?
      (flow.slots.map fun slot => centerOf (flow.settled s) slot - flow.half s slot) with
  | none =>
    rw [Scalar.least?_eq_min?, List.min?_eq_none_iff, List.map_eq_nil_iff, slots,
      List.range_eq_nil] at hleast
    omega
  | some x =>
    have hmove : flow.toMargin s (flow.settled s) = s.margin - x := by
      simp only [toMargin, hleast, Scalar.isFinite_rat, if_true]
    obtain ⟨hmem, hle⟩ := Scalar.least?_spec hleast
    constructor
    · obtain ⟨slot, hslot, rfl⟩ := List.mem_map.mp hmem
      have hlt : slot < flow.sizes.length := List.mem_range.mp hslot
      refine ⟨slot, hlt, ?_⟩
      rw [hstart hlt, hmove]
      ring
    · rintro _ ⟨slot, hlt, rfl⟩
      have hx := hle _ (List.mem_map_of_mem (List.mem_range.mpr hlt))
      rw [hstart hlt, hmove]
      linarith

section Bands

variable {ranks : List Nat} (hp : Layers.Partition flow.layers ranks)
  (hlen : ranks.length = flow.sizes.length)

include hp hlen

theorem loose_start_of_rank {slot i : Nat} (h : ranks[slot]? = some i) :
    s.direction.start (flow.loose s slot) = flow.bandStart s s.margin flow.layers i +
      (flow.layerDepth s (flow.layers.getD i []) - flow.depth s slot) / 2 := by
  rw [loose_start s (lt_sizes_of_rank hlen h), centerOf,
    bands_lookup s flow hp.flatten_nodup s.margin ((hp.mem_iff i slot).mpr h), Option.getD_some]
  ring

theorem looseStarts_along (hspacing : 0 ≤ s.rankSpacing) (hdepth : ∀ slot, 0 ≤ flow.depth s slot)
    {first : Nat} (hfirst : ranks[first]? = some 0) :
    IsLeast (flow.looseStarts s s.direction) s.margin := by
  constructor
  · have hmem := (hp.mem_iff 0 first).mpr hfirst
    obtain ⟨slot, hslot, hdeep⟩ := exists_deepest s flow (List.ne_nil_of_mem hmem) hdepth
    have hrank := (hp.mem_iff 0 slot).mp hslot
    refine ⟨slot, lt_sizes_of_rank hlen hrank, ?_⟩
    rw [loose_start_of_rank s hp hlen hrank, bandStart_first, hdeep]
    ring
  · rintro _ ⟨slot, hlt, rfl⟩
    rw [← hlen] at hlt
    have hrank := List.getElem?_eq_getElem hlt
    have hin := (hp.mem_iff _ slot).mpr hrank
    have hdeep := (layerDepth_bounds s flow _).2 slot hin
    have hband := le_bandStart s flow hspacing s.margin flow.layers ranks[slot]
    rw [loose_start_of_rank s hp hlen hrank]
    linarith

theorem boxStarts_margin (hspacing : 0 ≤ s.rankSpacing) (hdepth : ∀ slot, 0 ≤ flow.depth s slot)
    {first : Nat} (hfirst : ranks[first]? = some 0) (dir : Direction) :
    IsLeast (flow.boxStarts s dir) (Grid.snap s.margin s.gridSize) := by
  apply boxStarts_isLeast
  rcases dir.eq_or_crosswise s.direction with rfl | rfl
  · exact looseStarts_along s hp hlen hspacing hdepth hfirst
  · have hlt := lt_sizes_of_rank hlen hfirst
    exact looseStarts_across s (Nat.zero_lt_of_lt hlt)

end Bands

end Flow

end FlowCanvas
