import FlowCanvas.Proofs.Association
import FlowCanvas.Proofs.Exact.Rect
import FlowCanvas.Proofs.Layer.Partition

/-! Bands along the flow. Every layer has a band as deep as its deepest slot, in whose middle its
slots have their centres, and the bands follow each other with the spacing of the ranks between
them. So slots of different layers are apart along the flow by that spacing. -/

namespace FlowCanvas

namespace Flow

variable (s : LayoutSettings Rat) (flow : Flow Rat)

theorem layerDepth_bounds (layer : List Nat) :
    0 ≤ flow.layerDepth s layer ∧ ∀ slot ∈ layer, flow.depth s slot ≤ flow.layerDepth s layer := by
  have h := (Scalar.foldl_larger (layer.map (flow.depth s)) Scalar.zero).2
  constructor
  · exact h _ List.mem_cons_self
  · intro slot hslot
    exact h _ (List.mem_cons_of_mem _ (List.mem_map_of_mem hslot))

def bandStart (start : Rat) : Layers → Nat → Rat
  | layer :: rest, i + 1 => bandStart (start + (flow.layerDepth s layer + s.rankSpacing)) rest i
  | _, _ => start

theorem bands_lookup {layers : Layers} (hn : layers.flatten.Nodup) (start : Rat) {i slot : Nat}
    (h : slot ∈ layers.getD i []) :
    (flow.bands s start layers).lookup slot =
      some (flow.bandStart s start layers i + flow.layerDepth s (layers.getD i []) / 2) := by
  induction layers generalizing start i with
  | nil => simp at h
  | cons layer rest ih =>
    have hkeys (c : Rat) : (layer.map fun slot => (slot, c)).map (·.1) = layer := by
      simp [Function.comp_def]
    rw [List.flatten_cons, List.nodup_append] at hn
    cases i with
    | zero =>
      refine lookup_append_of_mem ?_ (List.mem_map.mpr ⟨slot, h, rfl⟩)
      rw [hkeys]
      exact hn.1
    | succ i =>
      have hrest : slot ∈ rest.getD i [] := h
      have hmem : slot ∈ rest.flatten := by
        by_cases hi : i < rest.length
        · exact List.mem_flatten.mpr ⟨rest.getD i [], by simp [hi], hrest⟩
        · simp [hi] at hrest
      have hnot : slot ∉ layer := fun hl => hn.2.2 slot hl slot hmem rfl
      rw [bands, lookup_append_of_not_mem (by rwa [hkeys])]
      exact ih hn.2.1 _ hrest

variable (hspacing : 0 ≤ s.rankSpacing)

include hspacing

theorem le_bandStart (start : Rat) (layers : Layers) (i : Nat) :
    start ≤ flow.bandStart s start layers i := by
  induction layers generalizing start i with
  | nil => exact le_rfl
  | cons layer rest ih =>
    cases i with
    | zero => exact le_rfl
    | succ i =>
      have hdepth := (layerDepth_bounds s flow layer).1
      have hrest := ih (start + (flow.layerDepth s layer + s.rankSpacing)) i
      simp only [bandStart]
      linarith

theorem bandStart_spacing (start : Rat) {layers : Layers} {i j : Nat} (hij : i < j)
    (hj : j < layers.length) :
    flow.bandStart s start layers i + flow.layerDepth s (layers.getD i []) + s.rankSpacing ≤
      flow.bandStart s start layers j := by
  induction layers generalizing start i j with
  | nil => simp at hj
  | cons layer rest ih =>
    cases j with
    | zero => omega
    | succ j =>
      cases i with
      | zero =>
        have hstart := le_bandStart s flow hspacing
          (start + (flow.layerDepth s layer + s.rankSpacing)) rest j
        simp only [bandStart, List.getD_cons_zero]
        linarith
      | succ i =>
        exact ih _ (by omega) (by simpa using hj)

theorem bands_apart (hn : flow.layers.flatten.Nodup) (start : Rat) {i j a b : Nat} (hij : i < j)
    (ha : a ∈ flow.layers.getD i []) (hb : b ∈ flow.layers.getD j []) :
    centerOf (flow.bands s start flow.layers) a + flow.depth s a / 2 + s.rankSpacing ≤
      centerOf (flow.bands s start flow.layers) b - flow.depth s b / 2 := by
  have hj : j < flow.layers.length := by
    by_contra hj
    simp [hj] at hb
  have hda := (layerDepth_bounds s flow _).2 a ha
  have hdb := (layerDepth_bounds s flow _).2 b hb
  have hspace := bandStart_spacing s flow hspacing start hij hj
  rw [centerOf, centerOf, bands_lookup s flow hn start ha, bands_lookup s flow hn start hb,
    Option.getD_some, Option.getD_some]
  linarith

end Flow

end FlowCanvas
