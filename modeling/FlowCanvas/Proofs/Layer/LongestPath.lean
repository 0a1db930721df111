import Mathlib.Data.List.Nodup
import Mathlib.Data.Finset.Card
import FlowCanvas.Layer.Rank
import FlowCanvas.Proofs.Layer.Walk

/-! Ranks by longest paths. While slots are ranked, a slot waits for exactly those of its edges that
are not released yet, and released edges go up in rank, because the rank of their source is final.
In a graph without cycles every slot is reached, so every edge goes up. -/

namespace FlowCanvas

theorem Acyclic.wellFounded {β : Type} {edges : List (β × β)} (h : Acyclic edges) :
    WellFounded fun a b => (a, b) ∈ edges := by
  classical
  let below (a : β) := (edges.map Prod.fst).toFinset.filter fun x => Leads edges x a
  refine Subrelation.wf (r := InvImage (· < ·) fun a => (below a).card) ?_
    (InvImage.wf _ wellFounded_lt)
  intro a b hab
  refine Finset.card_lt_card (Finset.ssubset_iff_of_subset ?_ |>.mpr ⟨a, ?_, ?_⟩)
  · intro x hx
    have hxa := (Finset.mem_filter.mp hx)
    exact Finset.mem_filter.mpr ⟨hxa.1, hxa.2.trans (.edge hab)⟩
  · exact Finset.mem_filter.mpr ⟨List.mem_toFinset.mpr (List.mem_map_of_mem hab), .edge hab⟩
  · intro ha
    exact h a (Finset.mem_filter.mp ha).2

namespace LayerGraph

theorem successors_nodup (g : LayerGraph) (s : Nat) : (g.successors s).Nodup := by
  refine List.Nodup.map_on ?_ (g.nodup.filter _)
  intro a ha b hb hab
  have hs : a.1 = b.1 := by simp_all
  exact Prod.ext hs hab

theorem predecessors_nodup (g : LayerGraph) (t : Nat) : (g.predecessors t).Nodup := by
  refine List.Nodup.map_on ?_ (g.nodup.filter _)
  intro a ha b hb hab
  have ht : a.2 = b.2 := by simp_all
  exact Prod.ext hab ht

end LayerGraph

namespace Ranking

variable {g : LayerGraph} {r : Ranking} {popped : List Nat} {released : List (Nat × Nat)}
  {k u v : Nat}

def rank (r : Ranking) (v : Nat) : Nat := r.ranks.getD v 0

def waits (r : Ranking) (v : Nat) : Nat := r.pending.getD v 0

theorem release_ranks (k : Nat) (r : Ranking) (v : Nat) :
    (release k r v).ranks = r.ranks.modify v (max · (k + 1)) := by
  unfold release
  split <;> rfl

theorem release_rank (hv : v < r.ranks.length) (w : Nat) :
    (release k r v).rank w = if w = v then max (r.rank v) (k + 1) else r.rank w := by
  rw [rank, release_ranks, List.getD_eq_getElem?_getD, List.getElem?_modify]
  by_cases h : w = v
  · subst h
    simp [rank, hv]
  · simp [rank, h, Ne.symm h]

theorem release_pending (hv : v < r.pending.length) (hw : r.waits v ≠ 0) :
    (release k r v).pending = r.pending.set v (r.waits v - 1) ∧
      (release k r v).ready = if r.waits v = 1 then v :: r.ready else r.ready := by
  have hget : r.pending[v]? = some (r.waits v) := by
    simp [waits, hv]
  unfold release
  split
  · rename_i h
    have h1 : r.waits v = 1 := Option.some.inj (hget.symm.trans h)
    simp [h1]
  · rename_i n h
    have h2 : r.waits v = n + 2 := Option.some.inj (hget.symm.trans h)
    simp [h2]
  · rename_i h1 h2
    obtain ⟨n, hn⟩ := Nat.exists_eq_succ_of_ne_zero hw
    rw [hn] at hget
    cases n with
    | zero => exact (h1 hget).elim
    | succ n => exact (h2 n hget).elim

theorem release_waits (hv : v < r.pending.length) (hw : r.waits v ≠ 0) (w : Nat) :
    (release k r v).waits w = if w = v then r.waits v - 1 else r.waits w := by
  rw [waits, (release_pending hv hw).1, List.getD_eq_getElem?_getD, List.getElem?_set]
  by_cases h : w = v
  · subst h
    simp [hv]
  · simp [waits, h, Ne.symm h]

def unreleased (g : LayerGraph) (released : List (Nat × Nat)) (v : Nat) : List Nat :=
  (g.predecessors v).filter fun u => !released.contains (u, v)

theorem mem_unreleased : u ∈ unreleased g released v ↔ (u, v) ∈ g.edges ∧ (u, v) ∉ released := by
  simp [unreleased, LayerGraph.mem_predecessors]

theorem unreleased_cons_self (g : LayerGraph) (released : List (Nat × Nat)) (u v : Nat) :
    unreleased g ((u, v) :: released) v = (unreleased g released v).erase u := by
  have hnodup : (unreleased g released v).Nodup := (g.predecessors_nodup v).filter _
  rw [hnodup.erase_eq_filter, unreleased, unreleased, List.filter_filter]
  apply List.filter_congr
  intro x _
  by_cases hx : x = u <;> simp [hx]

theorem unreleased_cons_ne {w : Nat} (h : w ≠ v) :
    unreleased g ((u, v) :: released) w = unreleased g released w := by
  apply List.filter_congr
  intro x _
  simp [h]

structure State (g : LayerGraph) (popped : List Nat) (released : List (Nat × Nat))
    (r : Ranking) : Prop where
  ranks_length : r.ranks.length = g.size
  pending_length : r.pending.length = g.size
  source : ∀ u v, (u, v) ∈ released → (u, v) ∈ g.edges ∧ u ∈ popped
  waits_eq : ∀ v, v < g.size → r.waits v = (unreleased g released v).length
  ready_nodup : r.ready.Nodup
  mem_ready : ∀ v, v ∈ r.ready ↔ v < g.size ∧ v ∉ popped ∧ r.waits v = 0
  popped_free : ∀ v ∈ popped, r.waits v = 0
  rank_lt : ∀ u v, (u, v) ∈ released → r.rank u < r.rank v
  rank_from : ∀ v, r.rank v = 0 ∨ ∃ u, (u, v) ∈ released ∧ r.rank v = r.rank u + 1

namespace State

section Release

variable (h : State g popped released r) (hu : u ∈ popped) (he : (u, v) ∈ g.edges)
  (hnew : (u, v) ∉ released)

include h he hnew

theorem waits_pos : r.waits v ≠ 0 := by
  have hmem : u ∈ unreleased g released v := mem_unreleased.mpr ⟨he, hnew⟩
  rw [h.waits_eq v (g.valid _ he).2.1]
  exact (List.length_pos_of_mem hmem).ne'

theorem ne_of_popped {w : Nat} (hw : w ∈ popped) : w ≠ v := by
  rintro rfl
  exact h.waits_pos he hnew (h.popped_free w hw)

omit hnew in
theorem release_rank_eq (w : Nat) : (Ranking.release (r.rank u) r v).rank w =
    if w = v then max (r.rank v) (r.rank u + 1) else r.rank w :=
  release_rank (h.ranks_length ▸ (g.valid _ he).2.1) w

theorem release_waits_eq (w : Nat) : (Ranking.release (r.rank u) r v).waits w =
    if w = v then r.waits v - 1 else r.waits w :=
  release_waits (h.pending_length ▸ (g.valid _ he).2.1) (h.waits_pos he hnew) w

theorem release_rank_of_popped {w : Nat} (hw : w ∈ popped) :
    (Ranking.release (r.rank u) r v).rank w = r.rank w := by
  rw [h.release_rank_eq he, if_neg (h.ne_of_popped he hnew hw)]

theorem release_ready_eq : (Ranking.release (r.rank u) r v).ready =
    if r.waits v = 1 then v :: r.ready else r.ready :=
  (release_pending (h.pending_length ▸ (g.valid _ he).2.1) (h.waits_pos he hnew)).2

theorem release_unreleased {w : Nat} (hw : w < g.size) :
    (Ranking.release (r.rank u) r v).waits w =
      (unreleased g ((u, v) :: released) w).length := by
  rw [h.release_waits_eq he hnew]
  by_cases hwv : w = v
  · have hmem : u ∈ unreleased g released v := mem_unreleased.mpr ⟨he, hnew⟩
    rw [if_pos hwv, hwv, unreleased_cons_self, List.length_erase_of_mem hmem,
      h.waits_eq v (g.valid _ he).2.1]
  · rw [if_neg hwv, unreleased_cons_ne hwv, h.waits_eq w hw]

theorem not_mem_ready : v ∉ r.ready :=
  fun hm => h.waits_pos he hnew ((h.mem_ready v).mp hm).2.2

theorem release_mem_ready (w : Nat) : w ∈ (Ranking.release (r.rank u) r v).ready ↔
    w < g.size ∧ w ∉ popped ∧ (Ranking.release (r.rank u) r v).waits w = 0 := by
  rw [h.release_ready_eq he hnew, h.release_waits_eq he hnew]
  by_cases hwv : w = v
  · have hpos := h.waits_pos he hnew
    have hnot := h.not_mem_ready he hnew
    have hv := (g.valid _ he).2.1
    have hvp : v ∉ popped := fun hm => h.ne_of_popped he hnew hm rfl
    subst hwv
    split
    · simp_all
    · simp only [if_true, hnot, false_iff, not_and]
      omega
  · rw [if_neg hwv, ← h.mem_ready w]
    split <;> simp [hwv]

include hu

theorem release_rank_lt {a b : Nat} (hab : (a, b) ∈ (u, v) :: released) :
    (Ranking.release (r.rank u) r v).rank a < (Ranking.release (r.rank u) r v).rank b := by
  rcases List.mem_cons.mp hab with hab | hab
  · cases hab
    rw [h.release_rank_of_popped he hnew hu, h.release_rank_eq he, if_pos rfl]
    exact lt_max_of_lt_right (Nat.lt_succ_self _)
  · have hlt := h.rank_lt a b hab
    rw [h.release_rank_of_popped he hnew (h.source a b hab).2, h.release_rank_eq he]
    split
    · rename_i hb
      exact lt_max_of_lt_left (hb ▸ hlt)
    · exact hlt

theorem release_rank_from (w : Nat) : (Ranking.release (r.rank u) r v).rank w = 0 ∨
    ∃ a, (a, w) ∈ (u, v) :: released ∧ (Ranking.release (r.rank u) r v).rank w =
      (Ranking.release (r.rank u) r v).rank a + 1 := by
  have hold : r.rank w = 0 ∨ ∃ a, (a, w) ∈ (u, v) :: released ∧
      r.rank w = (Ranking.release (r.rank u) r v).rank a + 1 := by
    rcases h.rank_from w with h0 | ⟨a, ha, hr⟩
    · exact Or.inl h0
    · refine Or.inr ⟨a, List.mem_cons_of_mem _ ha, ?_⟩
      rw [h.release_rank_of_popped he hnew (h.source a w ha).2, hr]
  rw [h.release_rank_eq he]
  split
  · rename_i hwv
    subst hwv
    -- The new rank is the old one, or one above the slot that is released.
    rcases max_choice (r.rank w) (r.rank u + 1) with hm | hm
    · rw [hm]
      exact hold
    · rw [hm]
      exact Or.inr ⟨u, List.mem_cons_self, by rw [h.release_rank_of_popped he hnew hu]⟩
  · exact hold

theorem release : State g popped ((u, v) :: released) (Ranking.release (r.rank u) r v) where
  ranks_length := by rw [release_ranks, List.length_modify, h.ranks_length]
  pending_length := by
    have hv : v < r.pending.length := h.pending_length ▸ (g.valid _ he).2.1
    rw [(release_pending hv (h.waits_pos he hnew)).1, List.length_set, h.pending_length]
  source := by
    intro a b hab
    rcases List.mem_cons.mp hab with hab | hab
    · cases hab
      exact ⟨he, hu⟩
    · exact h.source a b hab
  waits_eq w hw := h.release_unreleased he hnew hw
  ready_nodup := by
    rw [h.release_ready_eq he hnew]
    split
    · exact List.nodup_cons.mpr ⟨h.not_mem_ready he hnew, h.ready_nodup⟩
    · exact h.ready_nodup
  mem_ready := h.release_mem_ready he hnew
  popped_free := by
    intro w hw
    rw [h.release_waits_eq he hnew, if_neg (h.ne_of_popped he hnew hw)]
    exact h.popped_free w hw
  rank_lt a b hab := h.release_rank_lt hu he hnew hab
  rank_from := h.release_rank_from hu he hnew

end Release

theorem releaseAll (h : State g popped released r) (hu : u ∈ popped) (vs : List Nat)
    (hvs : ∀ v ∈ vs, (u, v) ∈ g.edges ∧ (u, v) ∉ released) (hnodup : vs.Nodup) (hk : r.rank u = k) :
    ∃ more, State g popped more (vs.foldl (Ranking.release k) r) ∧
      (∀ e ∈ released, e ∈ more) ∧ ∀ v ∈ vs, (u, v) ∈ more := by
  induction vs generalizing r released with
  | nil => exact ⟨released, h, fun e he => he, by simp⟩
  | cons v vs ih =>
    obtain ⟨hv, hnew⟩ := hvs v List.mem_cons_self
    obtain ⟨hvvs, hnodup⟩ := List.nodup_cons.mp hnodup
    have hstate := h.release hu hv hnew
    have hrank := h.release_rank_of_popped hv hnew hu
    have hrest : ∀ w ∈ vs, (u, w) ∈ g.edges ∧ (u, w) ∉ (u, v) :: released := by
      intro w hw
      obtain ⟨he, hn⟩ := hvs w (List.mem_cons_of_mem _ hw)
      refine ⟨he, fun hm => ?_⟩
      rcases List.mem_cons.mp hm with hm | hm
      · cases hm
        exact hvvs hw
      · exact hn hm
    rw [hk] at hstate hrank
    obtain ⟨more, hmore, hold, hnew⟩ := ih hstate hrest hnodup hrank
    refine ⟨more, hmore, fun e he => hold e (List.mem_cons_of_mem _ he), ?_⟩
    intro w hw
    rcases List.mem_cons.mp hw with rfl | hw
    · exact hold _ List.mem_cons_self
    · exact hnew w hw

theorem take (h : State g popped released r) (hu : u ∈ r.ready) :
    State g (u :: popped) released { r with ready := r.ready.erase u } where
  ranks_length := h.ranks_length
  pending_length := h.pending_length
  source := by
    intro a b hab
    exact ⟨(h.source a b hab).1, List.mem_cons_of_mem _ (h.source a b hab).2⟩
  waits_eq := h.waits_eq
  ready_nodup := h.ready_nodup.erase u
  mem_ready := by
    intro w
    rw [h.ready_nodup.mem_erase_iff, h.mem_ready, List.mem_cons, not_or]
    constructor
    · rintro ⟨hne, hs, hp, hw⟩
      exact ⟨hs, ⟨hne, hp⟩, hw⟩
    · rintro ⟨hs, ⟨hne, hp⟩, hw⟩
      exact ⟨hne, hs, hp, hw⟩
  popped_free := by
    intro w hw
    rcases List.mem_cons.mp hw with rfl | hw
    · exact ((h.mem_ready w).mp hu).2.2
    · exact h.popped_free w hw
  rank_lt := h.rank_lt
  rank_from := h.rank_from

theorem start (g : LayerGraph) : State g [] [] (Ranking.start g) := by
  have hwaits (v : Nat) (hv : v < g.size) :
      (Ranking.start g).waits v = (g.predecessors v).length := by
    simp [waits, Ranking.start, hv]
  have hrank (v : Nat) : (Ranking.start g).rank v = 0 := by
    by_cases hv : v < g.size
    · simp [rank, Ranking.start, hv]
    · simp [rank, Ranking.start, hv]
  exact {
    ranks_length := by simp [Ranking.start]
    pending_length := by simp [Ranking.start]
    source := by simp
    waits_eq := by
      intro v hv
      rw [hwaits v hv]
      simp [unreleased]
    ready_nodup := List.nodup_range.filter _
    mem_ready := by
      intro v
      by_cases hv : v < g.size
      · simp [hwaits v hv, hv]
        simp [Ranking.start, hv]
      · simp [Ranking.start, hv]
    popped_free := by simp
    rank_lt := by simp
    rank_from := fun v => Or.inl (hrank v) }

theorem all_popped (h : State g popped released r) (hacyclic : Acyclic g.edges)
    (hout : ∀ u v, (u, v) ∈ g.edges → u ∈ popped → (u, v) ∈ released) (hready : r.ready = []) :
    ∀ v < g.size, v ∈ popped := by
  intro v
  induction v using hacyclic.wellFounded.induction with
  | _ v ih =>
    intro hv
    by_contra hp
    have hnone : unreleased g released v = [] := by
      rw [List.eq_nil_iff_forall_not_mem]
      intro u hu
      obtain ⟨he, hn⟩ := mem_unreleased.mp hu
      exact hn (hout u v he (ih u he (g.valid _ he).1))
    have hw : r.waits v = 0 := by rw [h.waits_eq v hv, hnone, List.length_nil]
    have hm := (h.mem_ready v).mpr ⟨hv, hp, hw⟩
    rw [hready] at hm
    cases hm

end State

/-- The ranks at the end of a run: every edge goes up, and a rank that is not zero is one above the
rank of a predecessor. -/
structure Ranked (g : LayerGraph) (ranks : List Nat) : Prop where
  length : ranks.length = g.size
  lt : ∀ u v, (u, v) ∈ g.edges → ranks.getD u 0 < ranks.getD v 0
  from_edge : ∀ v, ranks.getD v 0 = 0 ∨
    ∃ u, (u, v) ∈ g.edges ∧ ranks.getD v 0 = ranks.getD u 0 + 1

theorem State.run (h : State g popped released r) (hacyclic : Acyclic g.edges)
    (hout : ∀ u v, (u, v) ∈ g.edges → u ∈ popped → (u, v) ∈ released) :
    Ranked g (Ranking.run g r) := by
  fun_induction Ranking.run g r generalizing popped released with
  | case1 r hmin =>
    have hready : r.ready = [] := List.min?_eq_none_iff.mp hmin
    have hall := h.all_popped hacyclic hout hready
    refine ⟨h.ranks_length, ?_, ?_⟩
    · intro u v he
      exact h.rank_lt u v (hout u v he (hall u (g.valid _ he).1))
    · intro v
      rcases h.rank_from v with h0 | ⟨u, hu, hr⟩
      · exact Or.inl h0
      · exact Or.inr ⟨u, (h.source u v hu).1, hr⟩
  | case2 r slot hmin ih =>
    have hslot := List.min?_mem hmin
    have hnot : slot ∉ popped := ((h.mem_ready slot).mp hslot).2.1
    obtain ⟨more, hmore, hold, hnew⟩ := (h.take hslot).releaseAll List.mem_cons_self
      (g.successors slot) (k := r.ranks.getD slot 0)
      (fun v hv => ⟨LayerGraph.mem_successors.mp hv, fun hm => hnot (h.source _ _ hm).2⟩)
      (g.successors_nodup slot) rfl
    apply ih hmore
    intro u v he hu
    rcases List.mem_cons.mp hu with rfl | hu
    · exact hnew v (LayerGraph.mem_successors.mpr he)
    · exact hold _ (hout u v he hu)

end Ranking

theorem LayerGraph.ranks_ranked {g : LayerGraph} (h : Acyclic g.edges) :
    Ranking.Ranked g g.ranks :=
  (Ranking.State.start g).run h (by simp)

end FlowCanvas
