import Mathlib.Data.Finset.Card
import Mathlib.Data.List.GetD
import Mathlib.Order.Bounds.Basic
import FlowCanvas.Proofs.Layer.BackEdge
import FlowCanvas.Proofs.Layer.LongestPath
import FlowCanvas.Proofs.Layer.Partition

/-! Ranks as heights. The rank of a slot is the number of edges of the longest path that ends in it,
because every rank but zero is reached over an edge from the rank below it. So no rank is skipped up
to the highest one, and a path to that has a slot in every layer: whoever puts the ends of edges
below their starts needs at least as many layers. -/

namespace FlowCanvas

/-- A path that ends in a slot: from each of its slots an edge leads to the next one, and it comes
to none of them twice. -/
structure PathTo (edges : List (Nat × Nat)) (v : Nat) (path : List Nat) : Prop where
  chain : path.IsChain fun a b => (a, b) ∈ edges
  nodup : path.Nodup
  last : path.getLast? = some v

variable {edges : List (Nat × Nat)} {path : List Nat} {f : Nat → Nat} {v : Nat}

theorem rises_of_chain (hf : ∀ a b, (a, b) ∈ edges → f a < f b)
    (h : path.IsChain fun a b => (a, b) ∈ edges) : (path.map f).Pairwise (· < ·) :=
  List.isChain_iff_pairwise.mp ((List.isChain_map f).mpr (h.imp fun a b hab => hf a b hab))

theorem nodup_map_of_chain (hf : ∀ a b, (a, b) ∈ edges → f a < f b)
    (h : path.IsChain fun a b => (a, b) ∈ edges) : (path.map f).Nodup :=
  (rises_of_chain hf h).imp Nat.ne_of_lt

theorem length_le_of_chain (hf : ∀ a b, (a, b) ∈ edges → f a < f b)
    (h : path.IsChain fun a b => (a, b) ∈ edges) (hlast : path.getLast? = some v) :
    path.length ≤ f v + 1 := by
  -- The values along the chain are different numbers, none of them above the last.
  have hle : ∀ n ∈ path.map f, n ∈ List.range (f v + 1) := by
    obtain ⟨front, rfl⟩ := List.getLast?_eq_some_iff.mp hlast
    have hrises := rises_of_chain hf h
    intro n hn
    rw [List.map_append, List.pairwise_append] at hrises
    rw [List.map_append, List.mem_append] at hn
    rw [List.mem_range, Nat.lt_succ_iff]
    rcases hn with hn | hn
    · exact Nat.le_of_lt (hrises.2.2 n hn (f v) List.mem_cons_self)
    · exact Nat.le_of_eq (List.mem_singleton.mp hn)
  have hlength := ((nodup_map_of_chain hf h).subperm hle).length_le
  rwa [List.length_map, List.length_range] at hlength

namespace Ranking.Ranked

variable {g : LayerGraph} {ranks : List Nat}

theorem exists_path (h : Ranked g ranks) (v : Nat) :
    ∃ path, PathTo g.edges v path ∧ path.length = ranks.getD v 0 + 1 := by
  -- The rank of a slot comes from an edge, over which the path to the rank below is prolonged.
  have hchain : ∃ path : List Nat, (path.IsChain fun a b => (a, b) ∈ g.edges) ∧
      path.getLast? = some v ∧ path.length = ranks.getD v 0 + 1 := by
    induction hn : ranks.getD v 0 generalizing v with
    | zero => exact ⟨[v], List.isChain_singleton v, rfl, rfl⟩
    | succ n ih =>
      rcases h.from_edge v with hzero | ⟨u, hu, hrank⟩
      · omega
      · obtain ⟨path, hpath, hlast, hlength⟩ := ih u (by omega)
        refine ⟨path ++ [v], ?_, List.getLast?_concat, by simp [hlength]⟩
        refine List.isChain_append.mpr ⟨hpath, List.isChain_singleton v, ?_⟩
        rintro a ha b hb
        rw [hlast] at ha
        cases ha
        cases hb
        exact hu
  obtain ⟨path, hpath, hlast, hlength⟩ := hchain
  exact ⟨path, ⟨hpath, (nodup_map_of_chain h.lt hpath).of_map _, hlast⟩, hlength⟩

theorem isGreatest (h : Ranked g ranks) (v : Nat) :
    IsGreatest {n | ∃ path, PathTo g.edges v path ∧ path.length = n + 1} (ranks.getD v 0) := by
  refine ⟨h.exists_path v, ?_⟩
  rintro n ⟨path, hpath, hlength⟩
  have hle := length_le_of_chain h.lt hpath.chain hpath.last
  omega

theorem eq_zero (h : Ranked g ranks) (hv : g.predecessors v = []) : ranks.getD v 0 = 0 := by
  rcases h.from_edge v with hzero | ⟨u, hu, -⟩
  · exact hzero
  · have hmem := LayerGraph.mem_predecessors.mpr hu
    rw [hv] at hmem
    cases hmem

theorem eq_max (h : Ranked g ranks) (hv : g.predecessors v ≠ []) :
    ∃ m, ((g.predecessors v).map (ranks.getD · 0)).max? = some m ∧ ranks.getD v 0 = 1 + m := by
  obtain ⟨w, hw⟩ := List.exists_mem_of_ne_nil _ hv
  have hpos := h.lt w v (LayerGraph.mem_predecessors.mp hw)
  rcases h.from_edge v with hzero | ⟨u, hu, hrank⟩
  · omega
  · refine ⟨ranks.getD u 0, List.max?_eq_some_iff.mpr ⟨?_, ?_⟩, by omega⟩
    · exact List.mem_map_of_mem (LayerGraph.mem_predecessors.mpr hu)
    · intro n hn
      obtain ⟨a, ha, rfl⟩ := List.mem_map.mp hn
      have hlt := h.lt a v (LayerGraph.mem_predecessors.mp ha)
      omega

theorem exists_rank (h : Ranked g ranks) {k : Nat} (hv : v < g.size) (hk : k ≤ ranks.getD v 0) :
    ∃ u < g.size, ranks.getD u 0 = k := by
  induction hn : ranks.getD v 0 generalizing v with
  | zero => exact ⟨v, hv, by omega⟩
  | succ n ih =>
    rcases Nat.lt_or_eq_of_le hk with hlt | rfl
    · rcases h.from_edge v with hzero | ⟨u, hu, hrank⟩
      · omega
      · have hsource : u < g.size := (g.valid _ hu).1
        exact ih hsource (by omega) (by omega)
    · exact ⟨v, hv, rfl⟩

end Ranking.Ranked

namespace Layers

variable {g : LayerGraph} {ranks : List Nat}

theorem getElem?_rank (h : v < ranks.length) : ranks[v]? = some (ranks.getD v 0) := by
  rw [List.getElem?_eq_getElem h, List.getD_eq_getElem ranks 0 h]

theorem lt_layersOfRanks_length {i : Nat} :
    i < (layersOfRanks ranks).length ↔ ∃ v < ranks.length, i ≤ ranks.getD v 0 := by
  rw [layersOfRanks, List.length_map, List.length_range]
  cases hmax : ranks.max? with
  | none =>
    rw [List.max?_eq_none_iff.mp hmax]
    simp
  | some m =>
    obtain ⟨hm, hle⟩ := List.max?_eq_some_iff.mp hmax
    rw [Option.map_some, Option.getD_some, Nat.lt_succ_iff]
    constructor
    · intro hi
      obtain ⟨v, hv, hrank⟩ := List.getElem_of_mem hm
      exact ⟨v, hv, by rwa [List.getD_eq_getElem ranks 0 hv, hrank]⟩
    · rintro ⟨v, hv, hi⟩
      exact hi.trans (hle _ (List.mem_of_getElem? (getElem?_rank hv)))

theorem layersOfRanks_ascending (ranks : List Nat) :
    ∀ layer ∈ layersOfRanks ranks, layer.Pairwise (· < ·) := by
  intro layer hlayer
  obtain ⟨rank, -, rfl⟩ := List.mem_map.mp hlayer
  exact List.pairwise_lt_range.filter _

theorem layersOfRanks_perm (ranks : List Nat) :
    (layersOfRanks ranks).flatten.Perm (List.range ranks.length) := by
  have hpartition := layersOfRanks_partition ranks
  rw [List.perm_ext_iff_of_nodup hpartition.flatten_nodup List.nodup_range]
  intro v
  rw [List.mem_range]
  constructor
  · intro hv
    obtain ⟨layer, hlayer, hv⟩ := List.mem_flatten.mp hv
    obtain ⟨i, -, rfl⟩ := mem_getD_of_mem hlayer
    exact (List.getElem?_eq_some_iff.mp ((hpartition.mem_iff i v).mp hv)).1
  · intro hv
    have hlength := lt_layersOfRanks_length.mpr ⟨v, hv, Nat.le_refl _⟩
    have hmem := (hpartition.mem_iff _ v).mpr (getElem?_rank hv)
    rw [List.getD_eq_getElem _ _ hlength] at hmem
    exact List.mem_flatten.mpr ⟨_, List.getElem_mem hlength, hmem⟩

theorem layersOfRanks_nonempty (h : Ranking.Ranked g ranks) :
    ∀ layer ∈ layersOfRanks ranks, layer ≠ [] := by
  intro layer hlayer
  obtain ⟨i, hi, rfl⟩ := mem_getD_of_mem hlayer
  obtain ⟨v, hv, hle⟩ := lt_layersOfRanks_length.mp hi
  obtain ⟨u, hu, rfl⟩ := h.exists_rank (h.length ▸ hv) hle
  have hmem := ((layersOfRanks_partition ranks).mem_iff _ u).mpr (getElem?_rank (h.length ▸ hu))
  exact List.ne_nil_of_mem hmem

theorem layersOfRanks_edge (h : Ranking.Ranked g ranks) {u v : Nat} (he : (u, v) ∈ g.edges) :
    ∃ i j, i < j ∧ u ∈ (layersOfRanks ranks).getD i [] ∧
      v ∈ (layersOfRanks ranks).getD j [] := by
  have hpartition := layersOfRanks_partition ranks
  obtain ⟨hu, hv, -⟩ := g.valid _ he
  exact ⟨ranks.getD u 0, ranks.getD v 0, h.lt u v he,
    (hpartition.mem_iff _ u).mpr (getElem?_rank (h.length ▸ hu)),
    (hpartition.mem_iff _ v).mpr (getElem?_rank (h.length ▸ hv))⟩

theorem layersOfRanks_length_le (h : Ranking.Ranked g ranks) {f : Nat → Nat}
    (hf : ∀ a b, (a, b) ∈ g.edges → f a < f b) :
    (layersOfRanks ranks).length ≤ ((Finset.range g.size).image f).card := by
  cases hlength : (layersOfRanks ranks).length with
  | zero => exact Nat.zero_le _
  | succ top =>
    have htop : top < (layersOfRanks ranks).length := by omega
    obtain ⟨v, hv, hle⟩ := lt_layersOfRanks_length.mp htop
    -- On the path to a slot of the last layer all values are different.
    obtain ⟨path, hpath, hcount⟩ := h.exists_path v
    have hslots : ∀ s ∈ path, s < g.size := by
      refine hpath.chain.backwards_induction _ path (fun a b hab _ => (g.valid _ hab).1) ?_
      intro hne
      have hlast := hpath.last
      rw [List.getLast?_eq_some_getLast hne] at hlast
      rw [Option.some.inj hlast]
      exact h.length ▸ hv
    have hnodup := nodup_map_of_chain hf hpath.chain
    have hsub : (path.map f).toFinset ⊆ (Finset.range g.size).image f := by
      intro n hn
      obtain ⟨s, hs, rfl⟩ := List.mem_map.mp (List.mem_toFinset.mp hn)
      exact Finset.mem_image_of_mem f (Finset.mem_range.mpr (hslots s hs))
    have hcard := Finset.card_le_card hsub
    rw [List.toFinset_card_of_nodup hnodup, List.length_map] at hcard
    omega

end Layers

/-- Ranks of a graph without cycles are the lengths of its longest paths, and its layers are as few
as layers can be in which every edge goes on to a later one. -/
theorem LayerGraph.ranks_longest {g : LayerGraph} (hacyclic : Acyclic g.edges) :
    let rank := fun v => g.ranks.getD v 0
    let layers := layersOfRanks g.ranks
    g.ranks.length = g.size ∧
      (∀ v, IsGreatest {n | ∃ path, PathTo g.edges v path ∧ path.length = n + 1} (rank v)) ∧
      (∀ v, g.predecessors v = [] → rank v = 0) ∧
      (∀ v, g.predecessors v ≠ [] →
        ∃ m, ((g.predecessors v).map rank).max? = some m ∧ rank v = 1 + m) ∧
      layers.flatten.Perm (List.range g.size) ∧ (∀ layer ∈ layers, layer ≠ []) ∧
      (∀ layer ∈ layers, layer.Pairwise (· < ·)) ∧
      (∀ u v, (u, v) ∈ g.edges →
        ∃ i j, i < j ∧ u ∈ layers.getD i [] ∧ v ∈ layers.getD j []) ∧
      ∀ f : Nat → Nat, (∀ u v, (u, v) ∈ g.edges → f u < f v) →
        layers.length ≤ ((Finset.range g.size).image f).card := by
  have h := ranks_ranked hacyclic
  have hperm := Layers.layersOfRanks_perm g.ranks
  rw [h.length] at hperm
  exact ⟨h.length, h.isGreatest, fun _ => h.eq_zero, fun _ => h.eq_max, hperm,
    Layers.layersOfRanks_nonempty h, Layers.layersOfRanks_ascending g.ranks,
    fun _ _ => Layers.layersOfRanks_edge h, fun _ => Layers.layersOfRanks_length_le h⟩

theorem LayerGraph.ranks_longest_diamond :
    let g := ofEdges 5 [(2, 1), (4, 1), (2, 4), (3, 0), (1, 3)]
    Acyclic g.edges ∧ layersOfRanks g.ranks = [[2], [4], [1], [3], [0]] ∧
      IsGreatest {n | ∃ path, PathTo g.edges 0 path ∧ path.length = n + 1} 4 ∧
      ∀ f : Nat → Nat, (∀ u v, (u, v) ∈ g.edges → f u < f v) →
        5 ≤ ((Finset.range g.size).image f).card := by
  intro g
  have hedges : g.edges = [(2, 1), (4, 1), (2, 4), (3, 0), (1, 3)] := by decide
  have hranks : g.ranks = [4, 2, 0, 3, 1] := by decide +kernel
  have hrises : ∀ e ∈ [(2, 1), (4, 1), (2, 4), (3, 0), (1, 3)],
      [4, 2, 0, 3, 1].getD e.1 0 < [4, 2, 0, 3, 1].getD e.2 0 := by decide
  have hacyclic : Acyclic g.edges := by
    rw [hedges]
    exact acyclic_of_lt ([4, 2, 0, 3, 1].getD · 0) fun a b hab => hrises (a, b) hab
  have hlayers : layersOfRanks g.ranks = [[2], [4], [1], [3], [0]] := by rw [hranks]; decide
  obtain ⟨-, hgreatest, -, -, -, -, -, -, hfewest⟩ := ranks_longest hacyclic
  refine ⟨hacyclic, hlayers, ?_, ?_⟩
  · have hzero := hgreatest 0
    rw [hranks] at hzero
    exact hzero
  · intro f hf
    have hle := hfewest f hf
    rw [hlayers] at hle
    exact hle

end FlowCanvas
