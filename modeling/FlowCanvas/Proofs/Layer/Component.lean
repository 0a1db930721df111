import Mathlib.Data.List.Permutation
import FlowCanvas.Proofs.Layer.BackEdge
import FlowCanvas.Proofs.Layer.LongestPath

/-! Components. The slots of a component lead to each other. The search comes into a component at
one of its slots, the gate, and is not done with the gate before it has met the whole component. So
kept edges lead from the gate to every other slot of the component, and its rank is the least. The
gate is the first slot of the component, unless the search comes in over an edge from outside. -/

namespace FlowCanvas

def Reaches {β : Type} (edges : List (β × β)) : β → β → Prop :=
  Relation.ReflTransGen fun a b => (a, b) ∈ edges

namespace LayerGraph

def Connected (g : LayerGraph) (u v : Nat) : Prop := Reaches g.edges u v ∧ Reaches g.edges v u

/-- A slot at which the search may come into a component: the first one, or the end of an edge from
outside that is reached from a slot before all of the component. -/
def Gate (g : LayerGraph) (c : Nat) : Prop :=
  (∀ v, g.Connected c v → c ≤ v) ∨
    ∃ r x, (∀ v, g.Connected c v → r < v) ∧ Reaches g.edges r x ∧ (x, c) ∈ g.edges ∧
      ¬ g.Connected c x

variable {g : LayerGraph} {fresh : List Nat} {stack : List (Nat × List Nat)}
  {kept : List (Nat × Nat)} {a c s t u v w : Nat} {ts : List Nat}

theorem Connected.refl (g : LayerGraph) (u : Nat) : g.Connected u u := ⟨.refl, .refl⟩

theorem Connected.symm (h : g.Connected u v) : g.Connected v u := ⟨h.2, h.1⟩

theorem Connected.trans (h : g.Connected u v) (h' : g.Connected v w) : g.Connected u w :=
  ⟨h.1.trans h'.1, h'.2.trans h.2⟩

theorem Connected.lt_size (h : g.Connected u v) (hu : u < g.size) : v < g.size := by
  rcases Relation.ReflTransGen.cases_tail h.1 with rfl | ⟨x, -, he⟩
  · exact hu
  · exact (g.valid _ he).2.1

theorem Connected.eq_of_not_lt (h : g.Connected u v) (hu : ¬ u < g.size) : v = u := by
  rcases Relation.ReflTransGen.cases_head h.1 with rfl | ⟨x, he, -⟩
  · rfl
  · exact absurd (g.valid _ he).1 hu

theorem Connected.eq_of_source (h : g.Connected u v) (hnone : ∀ e ∈ g.edges, e.2 ≠ v) : v = u := by
  rcases Relation.ReflTransGen.cases_tail h.1 with rfl | ⟨x, -, he⟩
  · rfl
  · exact absurd rfl (hnone _ he)

theorem Search.met (h : Search g fresh stack kept) (he : (u, v) ∈ g.edges) (hu : u ∉ fresh)
    (hlooked : ∀ ts, (u, ts) ∈ stack → v ∉ ts) : v ∉ fresh := by
  rcases h.settled u v he hu with ⟨ts, hts, hv⟩ | hk | hl
  · exact absurd hv (hlooked ts hts)
  · exact (h.kept_met u v hk).2
  · obtain ⟨x, hx, -⟩ := Relation.TransGen.head'_iff.mp hl
    exact (h.kept_met v x hx).1

/-- The state of the search after it has come into a component. From the gate, kept edges lead to
all slots of the component that were met; and as long as one of them is fresh, the gate is open, and
no slot of the component was opened before it. -/
structure Entered (g : LayerGraph) (c : Nat) (fresh : List Nat) (stack : List (Nat × List Nat))
    (kept : List (Nat × Nat)) : Prop where
  gate_met : c ∉ fresh
  found : ∀ v, g.Connected c v → v ∉ fresh → v ≠ c → Leads kept c v
  inside : (∀ v, g.Connected c v → v ∉ fresh) ∨
    ∃ newer older, opened stack = newer ++ c :: older ∧ ∀ u ∈ older, ¬ g.Connected c u

namespace Entered

theorem root (h : Entered g c (s :: fresh) [] kept) :
    Entered g c fresh [(s, g.successors s)] kept := by
  -- Nothing is open, so the whole component was met.
  have hall : ∀ v, g.Connected c v → v ∉ s :: fresh := by
    rcases h.inside with hall | ⟨newer, older, hopened, -⟩
    · exact hall
    · simp [opened] at hopened
  exact {
    gate_met := List.not_mem_of_not_mem_cons h.gate_met
    found := fun v hv _ => h.found v hv (hall v hv)
    inside := Or.inl fun v hv => List.not_mem_of_not_mem_cons (hall v hv) }

theorem gate_done (hs : Search g fresh ((c, []) :: stack) kept) (hc : c ∉ fresh)
    (hbelow : ∀ u ∈ opened stack, ¬ g.Connected c u) (hv : g.Connected c v) : v ∉ fresh := by
  obtain ⟨hto, hback⟩ := hv
  induction hto with
  | refl => exact hc
  | @tail u v hto he ih =>
    have hu : g.Connected c u := ⟨hto, .head he hback⟩
    refine hs.met he (ih hu.2) fun ts hts => ?_
    rcases List.mem_cons.mp hts with hts | hts
    · cases hts
      exact List.not_mem_nil
    · exact absurd hu (hbelow u (List.mem_map_of_mem hts))

theorem close (hs : Search g fresh ((s, []) :: stack) kept)
    (h : Entered g c fresh ((s, []) :: stack) kept) : Entered g c fresh stack kept where
  gate_met := h.gate_met
  found := h.found
  inside := by
    rcases h.inside with hall | ⟨newer, older, hopened, hbelow⟩
    · exact Or.inl hall
    · cases newer with
      | nil =>
        obtain ⟨rfl, rfl⟩ := List.cons.inj hopened
        exact Or.inl fun v => gate_done hs h.gate_met hbelow
      | cons x newer => exact Or.inr ⟨newer, older, (List.cons.inj hopened).2, hbelow⟩

theorem skip (h : Entered g c fresh ((s, t :: ts) :: stack) kept) :
    Entered g c fresh ((s, ts) :: stack) kept := ⟨h.gate_met, h.found, h.inside⟩

theorem keep (h : Entered g c fresh ((s, t :: ts) :: stack) kept) :
    Entered g c fresh ((s, ts) :: stack) ((s, t) :: kept) where
  gate_met := h.gate_met
  found := fun v hv hm hne => (h.found v hv hm hne).mono fun _ => List.mem_cons_of_mem _
  inside := h.inside

theorem descend (hs : Search g fresh ((s, t :: ts) :: stack) kept)
    (h : Entered g c fresh ((s, t :: ts) :: stack) kept) (ht : t ∈ fresh) :
    Entered g c (fresh.erase t) ((t, g.successors t) :: (s, ts) :: stack) ((s, t) :: kept) where
  gate_met := fun hm => h.gate_met (List.mem_of_mem_erase hm)
  found := by
    intro v hv hm hne
    by_cases hvt : v = t
    · subst hvt
      rcases h.inside with hall | ⟨newer, older, hopened, -⟩
      · exact absurd ht (hall v hv)
      · have hc : c ∈ opened ((s, v :: ts) :: stack) := by simp [hopened]
        rcases List.mem_cons.mp hc with rfl | hc
        · exact .edge List.mem_cons_self
        · have hup := (leads_up hs.path hc).mono fun _ => List.mem_cons_of_mem (s, v)
          exact hup.trans (.edge List.mem_cons_self)
    · have hold : v ∉ fresh := fun hf => hm ((List.mem_erase_of_ne hvt).mpr hf)
      exact (h.found v hv hold hne).mono fun _ => List.mem_cons_of_mem _
  inside := by
    rcases h.inside with hall | ⟨newer, older, hopened, hbelow⟩
    · exact Or.inl fun v hv hm => hall v hv (List.mem_of_mem_erase hm)
    · exact Or.inr ⟨t :: newer, older, congrArg (t :: ·) hopened, hbelow⟩

theorem explore (hs : Search g fresh stack kept) (h : Entered g c fresh stack kept)
    (hv : g.Connected c v) (hne : v ≠ c) : Leads (g.explore fresh stack kept) c v := by
  fun_induction LayerGraph.explore g fresh stack kept with
  | case1 kept => exact h.found v hv List.not_mem_nil hne
  | case2 kept root fresh ih => exact ih hs.root h.root
  | case3 fresh kept s stack ih => exact ih hs.close (h.close hs)
  | case4 fresh kept s t ts stack ht ih => exact ih (hs.descend ht) (h.descend hs ht)
  | case5 fresh kept s t ts stack ht ho ih => exact ih (hs.skip (isOpen_iff.mp ho)) h.skip
  | case6 fresh kept s t ts stack ht ho ih =>
    exact ih (hs.keep ht fun hm => ho (isOpen_iff.mpr hm)) h.keep

end Entered

/-- The state of the search before it comes into the component of a slot. Every open slot is reached
from one before all that are fresh. -/
structure Outside (g : LayerGraph) (a : Nat) (fresh : List Nat) (stack : List (Nat × List Nat)) :
    Prop where
  untouched : ∀ v, g.Connected a v → v ∈ fresh
  ascending : fresh.Pairwise (· < ·)
  rooted : ∀ u ∈ opened stack, ∃ r, (∀ v ∈ fresh, r < v) ∧ Reaches g.edges r u

namespace Outside

theorem root (h : Outside g a (s :: fresh) []) (hs : ¬ g.Connected a s) :
    Outside g a fresh [(s, g.successors s)] where
  untouched := by
    intro v hv
    rcases List.mem_cons.mp (h.untouched v hv) with rfl | hm
    · exact absurd hv hs
    · exact hm
  ascending := h.ascending.tail
  rooted := by
    intro u hu
    obtain rfl : u = s := by simpa [opened] using hu
    exact ⟨u, (List.pairwise_cons.mp h.ascending).1, .refl⟩

theorem close (h : Outside g a fresh ((s, []) :: stack)) : Outside g a fresh stack :=
  ⟨h.untouched, h.ascending, fun u hu => h.rooted u (List.mem_cons_of_mem _ hu)⟩

theorem skip (h : Outside g a fresh ((s, t :: ts) :: stack)) :
    Outside g a fresh ((s, ts) :: stack) := ⟨h.untouched, h.ascending, h.rooted⟩

theorem descend (h : Outside g a fresh ((s, t :: ts) :: stack)) (he : (s, t) ∈ g.edges)
    (ht : ¬ g.Connected a t) :
    Outside g a (fresh.erase t) ((t, g.successors t) :: (s, ts) :: stack) where
  untouched := by
    intro v hv
    have hne : v ≠ t := fun hvt => ht (hvt ▸ hv)
    exact (List.mem_erase_of_ne hne).mpr (h.untouched v hv)
  ascending := h.ascending.sublist List.erase_sublist
  rooted := by
    intro u hu
    rcases List.mem_cons.mp hu with rfl | hu
    · obtain ⟨r, hr, hreach⟩ := h.rooted s List.mem_cons_self
      exact ⟨r, fun v hv => hr v (List.mem_of_mem_erase hv), hreach.tail he⟩
    · obtain ⟨r, hr, hreach⟩ := h.rooted u hu
      exact ⟨r, fun v hv => hr v (List.mem_of_mem_erase hv), hreach⟩

theorem enter_root (hs : Search g (c :: fresh) [] kept) (h : Outside g a (c :: fresh) [])
    (hc : g.Connected a c) : g.Gate c ∧ Entered g c fresh [(c, g.successors c)] kept := by
  have hmem (v : Nat) (hv : g.Connected c v) : v ∈ c :: fresh := h.untouched v (hc.trans hv)
  constructor
  · left
    intro v hv
    rcases List.mem_cons.mp (hmem v hv) with rfl | hm
    · exact Nat.le_refl v
    · exact Nat.le_of_lt ((List.pairwise_cons.mp h.ascending).1 v hm)
  · exact {
      gate_met := (List.nodup_cons.mp hs.fresh_nodup).1
      found := fun v hv hm hne => absurd ((List.mem_cons.mp (hmem v hv)).resolve_left hne) hm
      inside := Or.inr ⟨[], [], rfl, List.forall_mem_nil _⟩ }

theorem enter_edge (hs : Search g fresh ((s, c :: ts) :: stack) kept)
    (h : Outside g a fresh ((s, c :: ts) :: stack)) (hc : g.Connected a c) :
    g.Gate c ∧
      Entered g c (fresh.erase c) ((c, g.successors c) :: (s, ts) :: stack) ((s, c) :: kept) := by
  have hmem (v : Nat) (hv : g.Connected c v) : v ∈ fresh := h.untouched v (hc.trans hv)
  have hout (u : Nat) (hu : u ∈ opened ((s, c :: ts) :: stack)) : ¬ g.Connected c u :=
    fun hcu => hs.opened_met u hu (hmem u hcu)
  constructor
  · obtain ⟨r, hr, hreach⟩ := h.rooted s List.mem_cons_self
    exact Or.inr ⟨r, s, fun v hv => hr v (hmem v hv), hreach, hs.next_edge,
      hout s List.mem_cons_self⟩
  · exact {
      gate_met := hs.fresh_nodup.not_mem_erase
      found := fun v hv hm hne => absurd ((List.mem_erase_of_ne hne).mpr (hmem v hv)) hm
      inside := Or.inr ⟨[], opened ((s, ts) :: stack), rfl, hout⟩ }

theorem explore (hs : Search g fresh stack kept) (h : Outside g a fresh stack) :
    ∃ c, g.Connected a c ∧ g.Gate c ∧
      ∀ v, g.Connected c v → v ≠ c → Leads (g.explore fresh stack kept) c v := by
  fun_induction LayerGraph.explore g fresh stack kept with
  | case1 kept => exact absurd (h.untouched a (.refl g a)) List.not_mem_nil
  | case2 kept root fresh ih =>
    by_cases hroot : g.Connected a root
    · obtain ⟨hgate, hentered⟩ := h.enter_root hs hroot
      exact ⟨root, hroot, hgate, fun v => hentered.explore hs.root⟩
    · exact ih hs.root (h.root hroot)
  | case3 fresh kept s stack ih => exact ih hs.close h.close
  | case4 fresh kept s t ts stack ht ih =>
    by_cases hct : g.Connected a t
    · obtain ⟨hgate, hentered⟩ := h.enter_edge hs hct
      exact ⟨t, hct, hgate, fun v => hentered.explore (hs.descend ht)⟩
    · exact ih (hs.descend ht) (h.descend hs.next_edge hct)
  | case5 fresh kept s t ts stack ht ho ih => exact ih (hs.skip (isOpen_iff.mp ho)) h.skip
  | case6 fresh kept s t ts stack ht ho ih =>
    exact ih (hs.keep ht fun hm => ho (isOpen_iff.mpr hm)) h.skip

end Outside

theorem exists_gate (g : LayerGraph) (a : Nat) : ∃ c, g.Connected a c ∧ g.Gate c ∧
    ∀ v, g.Connected c v → v ≠ c → Leads g.withoutBackEdges.edges c v := by
  by_cases ha : a < g.size
  · have hstart : Outside g a (List.range g.size) [] := {
      untouched := fun v hv => List.mem_range.mpr (hv.lt_size ha)
      ascending := List.pairwise_lt_range
      rooted := by simp [opened] }
    obtain ⟨c, hc, hgate, hleads⟩ := hstart.explore (Search.start g)
    refine ⟨c, hc, hgate, fun v hv hne => ?_⟩
    exact (hleads v hv hne).mono fun e he => mem_withoutBackEdges.mpr he
  · refine ⟨a, .refl g a, Or.inl fun v hv => ?_, fun v hv hne => ?_⟩
    · rw [hv.eq_of_not_lt ha]
    · exact absurd (hv.eq_of_not_lt ha) hne

/-- In every component the gate has a lower rank than all other slots. It is the first slot of the
component if the search cannot come in from an earlier slot, or only there. -/
theorem component_top (g : LayerGraph) :
    let rank := fun v => g.withoutBackEdges.ranks.getD v 0
    (∀ a, ∃ c, g.Connected a c ∧ g.Gate c ∧
        ∀ v, g.Connected a v → v ≠ c → rank c < rank v) ∧
      ∀ m, (∀ v, g.Connected m v → m ≤ v) →
        (∀ r x y, r < m → Reaches g.edges r x → (x, y) ∈ g.edges → ¬ g.Connected m x →
          g.Connected m y → y = m) →
        ∀ v, g.Connected m v → v ≠ m → rank m < rank v := by
  intro rank
  have hgate (a : Nat) : ∃ c, g.Connected a c ∧ g.Gate c ∧
      ∀ v, g.Connected a v → v ≠ c → rank c < rank v := by
    obtain ⟨c, hc, hgate, hleads⟩ := g.exists_gate a
    refine ⟨c, hc, hgate, fun v hv hne => ?_⟩
    exact (hleads v (hc.symm.trans hv) hne).lt (ranks_ranked g.withoutBackEdges_acyclic).lt
  refine ⟨hgate, fun m hfirst honly => ?_⟩
  obtain ⟨c, hc, hentry, hless⟩ := hgate m
  have hcm : c = m := by
    rcases hentry with hleast | ⟨r, x, hr, hreach, he, hout⟩
    · exact Nat.le_antisymm (hleast m hc.symm) (hfirst c hc)
    · exact honly r x c (hr m hc.symm) hreach he (fun hx => hout (hc.symm.trans hx)) hc
  rwa [hcm] at hless

theorem component_top_led_to :
    let g := ofEdges 4 [(0, 1), (1, 2), (2, 3), (3, 1)]
    let rank := fun v => g.withoutBackEdges.ranks.getD v 0
    g.Connected 1 2 ∧ g.Connected 1 3 ∧ rank 1 < rank 2 ∧ rank 1 < rank 3 := by
  intro g rank
  have hedges : g.edges = [(0, 1), (1, 2), (2, 3), (3, 1)] := by decide
  have hwalk (u v : Nat) (he : (u, v) ∈ g.edges) : Reaches g.edges u v := .single he
  have h12 := hwalk 1 2 (by simp [hedges])
  have h23 := hwalk 2 3 (by simp [hedges])
  have h31 := hwalk 3 1 (by simp [hedges])
  have htwo : g.Connected 1 2 := ⟨h12, h23.trans h31⟩
  have hthree : g.Connected 1 3 := ⟨h12.trans h23, h31⟩
  have hroot : ∀ e ∈ g.edges, e.2 ≠ 0 := by
    rw [hedges]
    decide
  have hfirst (v : Nat) (hv : g.Connected 1 v) : 1 ≤ v := by
    rw [Nat.one_le_iff_ne_zero]
    rintro rfl
    exact absurd (hv.eq_of_source hroot) (by decide)
  have honly (r x y : Nat) (_ : r < 1) (_ : Reaches g.edges r x) (he : (x, y) ∈ g.edges)
      (hout : ¬ g.Connected 1 x) (_ : g.Connected 1 y) : y = 1 := by
    simp only [hedges, List.mem_cons, List.not_mem_nil, Prod.mk.injEq, or_false] at he
    rcases he with ⟨-, rfl⟩ | ⟨rfl, -⟩ | ⟨rfl, -⟩ | ⟨-, rfl⟩
    · rfl
    · exact absurd (.refl g 1) hout
    · exact absurd htwo hout
    · rfl
  have htop := (component_top g).2 1 hfirst honly
  exact ⟨htwo, hthree, htop 2 htwo (by decide), htop 3 hthree (by decide)⟩

/-- A cycle that an earlier slot leads to at its last slot: there the search comes in, and the first
slot of the cycle is ranked below it. -/
theorem component_first_below :
    let g := ofEdges 3 [(0, 2), (1, 2), (2, 1)]
    let rank := fun v => g.withoutBackEdges.ranks.getD v 0
    g.Connected 1 2 ∧ (∀ v, g.Connected 1 v → 1 ≤ v) ∧
      g.withoutBackEdges.ranks = [0, 2, 1] ∧
      ¬ ∀ v, g.Connected 1 v → v ≠ 1 → rank 1 < rank v := by
  intro g rank
  have hedges : g.edges = [(0, 2), (1, 2), (2, 1)] := by decide
  have htwo : g.Connected 1 2 := ⟨.single (by simp [hedges]), .single (by simp [hedges])⟩
  have hroot : ∀ e ∈ g.edges, e.2 ≠ 0 := by
    rw [hedges]
    decide
  have hfirst (v : Nat) (hv : g.Connected 1 v) : 1 ≤ v := by
    rw [Nat.one_le_iff_ne_zero]
    rintro rfl
    exact absurd (hv.eq_of_source hroot) (by decide)
  have hranks : g.withoutBackEdges.ranks = [0, 2, 1] := by cbv
  refine ⟨htwo, hfirst, hranks, fun hall => ?_⟩
  have hless := hall 2 htwo (by decide)
  simp only [rank, hranks] at hless
  exact absurd hless (by decide)

end LayerGraph

end FlowCanvas
