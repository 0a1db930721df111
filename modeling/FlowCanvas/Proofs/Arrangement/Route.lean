import FlowCanvas.Proofs.Arrangement.Box
import FlowCanvas.Proofs.Flow.Route

/-! Routes on the canvas. A route is an edge of the flow or closes a cycle of such edges. Ranks grow
along the edges of the flow, and the box of the lower rank ends before that of the higher one
starts. So a route goes against the flow only where it closes a cycle of routes that go along. -/

namespace FlowCanvas

/-- Whether the box of one id ends, along the flow, before the box of another one starts. -/
def Arrangement.above (a : Arrangement Rat) (dir : Direction) (x y : String) : Bool :=
  match a.box? x, a.box? y with
  | some b, some c => decide (dir.stop b.rect ≤ dir.start c.rect)
  | _, _ => false

namespace Diagram

variable (s : LayoutSettings Rat) (d : Diagram Rat)

def routes : List (String × String) := (Frames.build d).routes d.edges

def descents : List (String × String) :=
  d.routes.filter fun (a, b) => (d.arrange s).above s.direction a b

def rank (id : String) : Nat :=
  (Plan.flowOf s d).graph.ranks.getD ((Frames.build d).layeredIds.idxOf id) 0

variable {a b : String} {i j : Nat}

theorem mem_descents : (a, b) ∈ descents s d ↔
    (a, b) ∈ d.routes ∧ (d.arrange s).above s.direction a b = true := by
  rw [descents, List.mem_filter]

theorem layered_of_slot (ha : (Frames.build d).layeredIds[i]? = some a) :
    ∃ n, (Frames.build d).layered[i]? = some n ∧ n.id = a := by
  rw [Frames.layeredIds, List.getElem?_map, Option.map_eq_some_iff] at ha
  exact ha

theorem rank_of_slot (ha : (Frames.build d).layeredIds[i]? = some a) :
    rank s d a = (Plan.flowOf s d).graph.ranks.getD i 0 := by
  have hn : (Frames.build d).layeredIds.Nodup := (Frames.build_wellFormed d).layered_nodup
  obtain ⟨hi, rfl⟩ := List.getElem?_eq_some_iff.mp ha
  rw [rank, hn.idxOf_getElem]

theorem box?_of_slot (ha : (Frames.build d).layeredIds[i]? = some a) :
    ∃ b, (d.arrange s).box? a = some b ∧ b.rect = (Plan.flowOf s d).box s i := by
  obtain ⟨n, hn, rfl⟩ := layered_of_slot d ha
  obtain ⟨helement, htool, -⟩ := Frames.mem_layered.mp (List.mem_of_getElem? hn)
  refine ⟨_, box?_of_element s d helement, ?_⟩
  rw [Plan.settle_box_of_plain _ _ htool]
  exact Plan.rect_of_layered s d hn

theorem above_iff_of_slot (ha : (Frames.build d).layeredIds[i]? = some a)
    (hb : (Frames.build d).layeredIds[j]? = some b) :
    (d.arrange s).above s.direction a b = true ↔
      s.direction.Precedes ((Plan.flowOf s d).box s i) ((Plan.flowOf s d).box s j) := by
  obtain ⟨x, hx, hxi⟩ := box?_of_slot s d ha
  obtain ⟨y, hy, hyj⟩ := box?_of_slot s d hb
  simp only [Arrangement.above, hx, hy, decide_eq_true_eq, hxi, hyj]
  rfl

theorem route_kept_or_closes (h : (a, b) ∈ d.routes)
    (ha : (Frames.build d).layeredIds[i]? = some a)
    (hb : (Frames.build d).layeredIds[j]? = some b) :
    (i, j) ∈ (Plan.flowOf s d).graph.edges ∨ Leads (Plan.flowOf s d).graph.edges j i := by
  have hlt {k : Nat} {c : String} (hc : (Frames.build d).layeredIds[k]? = some c) :
      k < (Plan.flowOf s d).sizes.length := by
    obtain ⟨n, hn, -⟩ := layered_of_slot d hc
    rw [Plan.flowOf_sizes, List.length_map]
    exact (List.getElem?_eq_some_iff.mp hn).1
  have hslot : (i, j) ∈ (Frames.build d).slotRoutes d.edges :=
    (Frames.mem_slotRoutes (Frames.build_wellFormed d)).mpr ⟨a, b, h, ha, hb⟩
  have hne : i ≠ j := by
    rintro rfl
    exact ((Frames.build d).mem_routes.mp h).2.2.2 (Option.some.inj (ha.symm.trans hb))
  have hedge := LayerGraph.mem_ofEdges.mpr ⟨hslot, hlt ha, hlt hb, hne⟩
  rw [Plan.flowOf_graph]
  by_cases hkept : (i, j) ∈ (LayerGraph.ofEdges (Plan.flowOf s d).sizes.length
      ((Frames.build d).slotRoutes d.edges)).withoutBackEdges.edges
  · exact Or.inl hkept
  · exact Or.inr (LayerGraph.leads_of_dropped hedge hkept)

theorem route_of_edge (h : (i, j) ∈ (Plan.flowOf s d).graph.edges) :
    ∃ a b, (a, b) ∈ d.routes ∧ (Frames.build d).layeredIds[i]? = some a ∧
      (Frames.build d).layeredIds[j]? = some b := by
  rw [Plan.flowOf_graph] at h
  have hslot := (LayerGraph.mem_ofEdges.mp (LayerGraph.withoutBackEdges_old h)).1
  exact (Frames.mem_slotRoutes (Frames.build_wellFormed d)).mp hslot

theorem leads_of_flow {pairs : List (String × String)}
    (hpairs : ∀ i j a b, (i, j) ∈ (Plan.flowOf s d).graph.edges → (a, b) ∈ d.routes →
      (Frames.build d).layeredIds[i]? = some a → (Frames.build d).layeredIds[j]? = some b →
      (a, b) ∈ pairs)
    (h : Leads (Plan.flowOf s d).graph.edges i j)
    (ha : (Frames.build d).layeredIds[i]? = some a)
    (hb : (Frames.build d).layeredIds[j]? = some b) : Leads pairs a b := by
  induction h generalizing b with
  | single he =>
    obtain ⟨x, y, hxy, hx, hy⟩ := route_of_edge s d he
    obtain rfl : x = a := Option.some.inj (hx.symm.trans ha)
    obtain rfl : y = b := Option.some.inj (hy.symm.trans hb)
    exact .edge (hpairs _ _ x y he hxy hx hy)
  | tail _ he ih =>
    obtain ⟨x, y, hxy, hx, hy⟩ := route_of_edge s d he
    obtain rfl : y = b := Option.some.inj (hy.symm.trans hb)
    exact (ih hx).trans (.edge (hpairs _ _ x y he hxy hx hy))

section Spaced

variable (hgrid : 0 < s.gridSize) (hwidth : 0 ≤ s.stepWidth) (hheight : 0 ≤ s.stepHeight)
  (hrank : s.gridSize ≤ s.rankSpacing)

include hgrid hwidth hheight hrank

theorem above_of_rank_lt (ha : (Frames.build d).layeredIds[i]? = some a)
    (hb : (Frames.build d).layeredIds[j]? = some b)
    (hlt : (Plan.flowOf s d).graph.ranks.getD i 0 < (Plan.flowOf s d).graph.ranks.getD j 0) :
    (d.arrange s).above s.direction a b = true ∧ (d.arrange s).above s.direction b a = false := by
  obtain ⟨n, hn, -⟩ := layered_of_slot d ha
  obtain ⟨m, hm, -⟩ := layered_of_slot d hb
  obtain ⟨p, hp⟩ := Plan.rank_of_layered s d hn
  obtain ⟨q, hq⟩ := Plan.rank_of_layered s d hm
  have hpq : p < q := by
    simpa [List.getD_eq_getElem?_getD, hp, hq] using hlt
  have hpart := Plan.flowOf_partition s d
  have hlen := Plan.flowOf_ranks_length s d
  have hdepth := fun slot => (Plan.sizeAt_nonneg s d hgrid hwidth hheight slot).1
  have hbefore := Flow.box_precedes_of_rank_lt s hgrid hpart hlen hrank hp hq hpq
  have hstart := Flow.box_start_lt_of_rank_lt s hgrid hpart hlen hrank (hdepth i) hp hq hpq
  constructor
  · exact (above_iff_of_slot s d ha hb).mpr hbefore
  -- Boxes without extent could each end where the other one starts, so the starts are compared.
  · rw [Bool.eq_false_iff, ne_eq, above_iff_of_slot s d hb ha, Direction.Precedes,
      Direction.stop_eq]
    have hj := hdepth j
    intro hle
    have hsize : s.direction.along ⟨((Plan.flowOf s d).box s j).width,
        ((Plan.flowOf s d).box s j).height⟩ = s.direction.along ((Plan.flowOf s d).sizeAt j) := rfl
    rw [hsize] at hle
    linarith

theorem edge_descends (he : (i, j) ∈ (Plan.flowOf s d).graph.edges) (h : (a, b) ∈ d.routes)
    (ha : (Frames.build d).layeredIds[i]? = some a)
    (hb : (Frames.build d).layeredIds[j]? = some b) : (a, b) ∈ descents s d := by
  have hlt := (Plan.flowOf_ranked s d).lt i j he
  exact (mem_descents s d).mpr
    ⟨h, (above_of_rank_lt s d hgrid hwidth hheight hrank ha hb hlt).1⟩

theorem route_cases (h : (a, b) ∈ d.routes) :
    (rank s d a < rank s d b ∧ (d.arrange s).above s.direction a b = true ∧
        (d.arrange s).above s.direction b a = false) ∨
      (rank s d b < rank s d a ∧ (d.arrange s).above s.direction b a = true ∧
        (d.arrange s).above s.direction a b = false ∧ Leads (descents s d) b a) := by
  obtain ⟨i, j, ha, hb, -⟩ := Frames.route_slots h
  rw [rank_of_slot s d ha, rank_of_slot s d hb]
  rcases route_kept_or_closes s d h ha hb with he | hback
  · have hlt := (Plan.flowOf_ranked s d).lt i j he
    exact Or.inl ⟨hlt, above_of_rank_lt s d hgrid hwidth hheight hrank ha hb hlt⟩
  · have hlt := hback.lt (Plan.flowOf_ranked s d).lt
    obtain ⟨habove, hnot⟩ := above_of_rank_lt s d hgrid hwidth hheight hrank hb ha hlt
    refine Or.inr ⟨hlt, habove, hnot, ?_⟩
    refine leads_of_flow s d (fun i j x y he hxy hx hy => ?_) hback hb ha
    exact edge_descends s d hgrid hwidth hheight hrank he hxy hx hy

theorem descents_acyclic : Acyclic (descents s d) := by
  refine acyclic_of_lt (rank s d) fun x y hxy => ?_
  obtain ⟨hroute, habove⟩ := (mem_descents s d).mp hxy
  rcases route_cases s d hgrid hwidth hheight hrank hroute with ⟨hlt, -⟩ | ⟨-, -, hnot, -⟩
  · exact hlt
  · rw [habove] at hnot
    cases hnot

theorem leads_of_ascent (h : (a, b) ∈ d.routes)
    (hup : (d.arrange s).above s.direction b a = true) : Leads (descents s d) b a := by
  rcases route_cases s d hgrid hwidth hheight hrank h with ⟨-, -, hnot⟩ | ⟨-, -, -, hback⟩
  · rw [hup] at hnot
    cases hnot
  · exact hback

theorem above_of_acyclic (hacyclic : Acyclic d.routes) (h : (a, b) ∈ d.routes) :
    (d.arrange s).above s.direction a b = true := by
  rcases route_cases s d hgrid hwidth hheight hrank h with ⟨-, habove, -⟩ | ⟨-, -, -, hback⟩
  · exact habove
  · have hback' : Leads d.routes b a := hback.mono fun e he => List.mem_of_mem_filter he
    exact absurd (hback'.trans (.edge h)) (hacyclic b)

/-- Every route is drawn along the flow, one way or the other, and joins different ranks. Without
cycles all of them descend; and those that ascend each close a cycle of descents, so that none of
them can be spared if no cycle is to be left. -/
theorem routes_follow_flow :
    (∀ a b, (a, b) ∈ d.routes →
      rank s d a ≠ rank s d b ∧
        ((d.arrange s).above s.direction a b = true ∨ (d.arrange s).above s.direction b a = true) ∧
        ¬((d.arrange s).above s.direction a b = true ∧
          (d.arrange s).above s.direction b a = true)) ∧
      (Acyclic d.routes → ∀ a b, (a, b) ∈ d.routes →
        (d.arrange s).above s.direction a b = true) ∧
      (∀ a b, (a, b) ∈ d.routes → (d.arrange s).above s.direction b a = true →
        Leads (descents s d) b a) ∧
      Acyclic (descents s d) ∧
      ∀ more : List (String × String), (∀ e ∈ descents s d, e ∈ more) →
        (∃ e ∈ more, e ∈ d.routes ∧ e ∉ descents s d) → ¬ Acyclic more := by
  have hcases := fun a b => route_cases s d hgrid hwidth hheight hrank (a := a) (b := b)
  refine ⟨?_, ?_, ?_, ?_, ?_⟩
  · intro a b h
    rcases hcases a b h with ⟨hlt, habove, hnot⟩ | ⟨hlt, habove, hnot, -⟩
    · exact ⟨Nat.ne_of_lt hlt, Or.inl habove, by simp [hnot]⟩
    · exact ⟨Nat.ne_of_gt hlt, Or.inr habove, by simp [hnot]⟩
  · intro hacyclic a b h
    exact above_of_acyclic s d hgrid hwidth hheight hrank hacyclic h
  · intro a b h hup
    exact leads_of_ascent s d hgrid hwidth hheight hrank h hup
  · exact descents_acyclic s d hgrid hwidth hheight hrank
  · rintro more hmore ⟨⟨a, b⟩, hmem, hroute, hnot⟩ hacyclic
    rcases hcases a b hroute with ⟨-, habove, -⟩ | ⟨-, -, -, hback⟩
    · exact hnot ((mem_descents s d).mpr ⟨hroute, habove⟩)
    · exact hacyclic b ((hback.mono hmore).trans (.edge hmem))

end Spaced

theorem routes_follow_flow_standard :
    let s : LayoutSettings Rat := .standard
    let d : Diagram Rat :=
      ⟨[.new "a" .step, .new "b" .step], [.new "a" "b" .route, .new "b" "a" .route]⟩
    d.routes = [("a", "b"), ("b", "a")] ∧ rank s d "a" ≠ rank s d "b" ∧
      Acyclic (descents s d) := by
  intro s d
  have hgrid : 0 < s.gridSize := by decide +kernel
  have hwidth : 0 ≤ s.stepWidth := by decide +kernel
  have hheight : 0 ≤ s.stepHeight := by decide +kernel
  have hrank : s.gridSize ≤ s.rankSpacing := by decide +kernel
  have hroutes : d.routes = [("a", "b"), ("b", "a")] := by decide +kernel
  obtain ⟨hroute, -, -, hacyclic, -⟩ := routes_follow_flow s d hgrid hwidth hheight hrank
  exact ⟨hroutes, (hroute "a" "b" (by simp [hroutes])).1, hacyclic⟩

end Diagram

end FlowCanvas
