import Mathlib.Data.List.Chain
import FlowCanvas.Layer.Acyclic
import FlowCanvas.Proofs.Layer.Walk

/-! Back edges. The search keeps an invariant: kept edges lead from open slots to slots further up
the stack or to slots that are done, and from done slots to done ones only, so nothing that is done
is on a cycle; and every edge that was looked at is kept or closes a cycle of kept ones. -/

namespace FlowCanvas.LayerGraph

variable {g : LayerGraph} {fresh : List Nat} {stack : List (Nat × List Nat)}
  {kept : List (Nat × Nat)} {s t : Nat} {ts : List Nat}

def opened (stack : List (Nat × List Nat)) : List Nat := stack.map (·.1)

theorem isOpen_iff : isOpen stack s = true ↔ s ∈ opened stack := by
  simp [isOpen, opened]

/-- The state of the search: slots not met yet, open slots with the successors they have yet to look
at, and the kept edges. A slot that is neither fresh nor open is done. -/
structure Search (g : LayerGraph) (fresh : List Nat) (stack : List (Nat × List Nat))
    (kept : List (Nat × Nat)) : Prop where
  fresh_nodup : fresh.Nodup
  opened_nodup : (opened stack).Nodup
  opened_met : ∀ u ∈ opened stack, u ∉ fresh
  waiting : ∀ u ts, (u, ts) ∈ stack → ∀ t ∈ ts, (u, t) ∈ g.edges
  kept_old : ∀ e ∈ kept, e ∈ g.edges
  kept_met : ∀ u v, (u, v) ∈ kept → u ∉ fresh ∧ v ∉ fresh
  path : (opened stack).IsChain fun t s => (s, t) ∈ kept
  done_closed : ∀ u v, (u, v) ∈ kept → u ∉ opened stack → v ∉ opened stack
  onward : ∀ u v, (u, v) ∈ kept → u ∈ opened stack → v ∈ opened stack →
    (opened stack).idxOf v < (opened stack).idxOf u
  done_acc : ∀ u, u ∉ fresh → u ∉ opened stack → Acc (fun v u => (u, v) ∈ kept) u
  settled : ∀ u v, (u, v) ∈ g.edges → u ∉ fresh →
    (∃ ts, (u, ts) ∈ stack ∧ v ∈ ts) ∨ (u, v) ∈ kept ∨ Leads kept v u

theorem leads_up {rest : List Nat} (h : (s :: rest).IsChain fun t s => (s, t) ∈ kept)
    (ht : t ∈ rest) : Leads kept t s := by
  induction rest generalizing s with
  | nil => cases ht
  | cons b rest ih =>
    rw [List.isChain_cons_cons] at h
    rcases List.mem_cons.mp ht with rfl | ht
    · exact .edge h.1
    · exact (ih h.2 ht).trans (.edge h.1)

theorem acc_cons (hclosed : ∀ u v, (u, v) ∈ kept → u ∉ fresh → u ∉ opened stack →
      v ∉ fresh ∧ v ∉ opened stack) (hs : s ∈ opened stack) {u : Nat}
    (h : Acc (fun v u => (u, v) ∈ kept) u) (hu : u ∉ fresh) (ho : u ∉ opened stack) :
    Acc (fun v u => (u, v) ∈ (s, t) :: kept) u := by
  induction h with
  | intro u _ ih =>
    apply Acc.intro u
    intro v hv
    rcases List.mem_cons.mp hv with he | hv
    · cases he
      exact absurd hs ho
    · obtain ⟨hvf, hvo⟩ := hclosed u v hv hu ho
      exact ih v hv hvf hvo

namespace Search

theorem start (g : LayerGraph) : Search g (List.range g.size) [] [] where
  fresh_nodup := List.nodup_range
  opened_nodup := List.nodup_nil
  opened_met := by simp [opened]
  waiting := by simp
  kept_old := by simp
  kept_met := by simp
  path := List.isChain_nil
  done_closed := by simp
  onward := by simp
  done_acc := fun u _ _ => Acc.intro u (by simp)
  settled := by
    intro u v he hu
    exact absurd (List.mem_range.mpr (g.valid _ he).1) hu

theorem root (h : Search g (s :: fresh) [] kept) :
    Search g fresh [(s, g.successors s)] kept where
  fresh_nodup := (List.nodup_cons.mp h.fresh_nodup).2
  opened_nodup := by simp [opened]
  opened_met := by
    intro u hu
    rw [show u = s by simpa [opened] using hu]
    exact (List.nodup_cons.mp h.fresh_nodup).1
  waiting := by
    intro u ts hu t ht
    obtain ⟨rfl, rfl⟩ : u = s ∧ ts = g.successors s := by simpa using hu
    exact mem_successors.mp ht
  kept_old := h.kept_old
  kept_met := by
    intro u v he
    have hmet := h.kept_met u v he
    exact ⟨List.not_mem_of_not_mem_cons hmet.1, List.not_mem_of_not_mem_cons hmet.2⟩
  path := List.isChain_singleton _
  done_closed := by
    intro u v he _ hv
    exact (h.kept_met u v he).2 (by simpa [opened] using Or.inl hv)
  onward := by
    intro u v he hu
    exact absurd (by simpa [opened] using Or.inl hu) (h.kept_met u v he).1
  done_acc := by
    intro u hf ho
    refine h.done_acc u ?_ (by simp [opened])
    simpa [opened, hf] using ho
  settled := by
    intro u v he hu
    by_cases hus : u = s
    · exact Or.inl ⟨g.successors s, by simp [hus], mem_successors.mpr (hus ▸ he)⟩
    · rcases h.settled u v he (by simp [hus, hu]) with ⟨ts, hts, -⟩ | hk
      · cases hts
      · exact Or.inr hk

theorem close (h : Search g fresh ((s, []) :: stack) kept) : Search g fresh stack kept := by
  have hopened : opened ((s, []) :: stack) = s :: opened stack := rfl
  obtain ⟨hs, hnodup⟩ := List.nodup_cons.mp (hopened ▸ h.opened_nodup)
  have hout (v : Nat) (he : (s, v) ∈ kept) : v ∉ s :: opened stack := by
    intro hv
    have hlt := h.onward s v he (by simp [hopened]) hv
    simp [hopened] at hlt
  exact {
    fresh_nodup := h.fresh_nodup
    opened_nodup := hnodup
    opened_met := fun u hu => h.opened_met u (List.mem_cons_of_mem _ hu)
    waiting := fun u ts hu => h.waiting u ts (List.mem_cons_of_mem _ hu)
    kept_old := h.kept_old
    kept_met := h.kept_met
    path := (hopened ▸ h.path).tail
    done_closed := by
      intro u v he hu
      by_cases hus : u = s
      · exact List.not_mem_of_not_mem_cons (hout v (hus ▸ he))
      · exact List.not_mem_of_not_mem_cons (h.done_closed u v he (by simp [hopened, hus, hu]))
    onward := by
      intro u v he hu hv
      have hlt := h.onward u v he (List.mem_cons_of_mem _ hu) (List.mem_cons_of_mem _ hv)
      have hus : s ≠ u := fun e => hs (e ▸ hu)
      have hvs : s ≠ v := fun e => hs (e ▸ hv)
      rw [hopened, List.idxOf_cons_ne _ hus, List.idxOf_cons_ne _ hvs] at hlt
      omega
    done_acc := by
      intro u hf ho
      by_cases hus : u = s
      · apply Acc.intro u
        intro v hv
        exact h.done_acc v (h.kept_met u v hv).2 (hout v (hus ▸ hv))
      · exact h.done_acc u hf (by simp [hopened, hus, ho])
    settled := by
      intro u v he hu
      rcases h.settled u v he hu with ⟨ts, hts, hv⟩ | hk
      · rcases List.mem_cons.mp hts with hts | hts
        · cases hts
          cases hv
        · exact Or.inl ⟨ts, hts, hv⟩
      · exact Or.inr hk }

section Next

variable (h : Search g fresh ((s, t :: ts) :: stack) kept)

include h

theorem next_edge : (s, t) ∈ g.edges :=
  h.waiting s (t :: ts) List.mem_cons_self t List.mem_cons_self

theorem waiting_tail (u : Nat) (us : List Nat) (hu : (u, us) ∈ (s, ts) :: stack) :
    ∀ v ∈ us, (u, v) ∈ g.edges := by
  intro v hv
  rcases List.mem_cons.mp hu with hu | hu
  · cases hu
    exact h.waiting s (t :: ts) List.mem_cons_self v (List.mem_cons_of_mem _ hv)
  · exact h.waiting u us (List.mem_cons_of_mem _ hu) v hv

theorem settled_tail {u v : Nat} (he : (u, v) ∈ g.edges) (hu : u ∉ fresh) :
    (u = s ∧ v = t) ∨ (∃ us, (u, us) ∈ (s, ts) :: stack ∧ v ∈ us) ∨
      (u, v) ∈ kept ∨ Leads kept v u := by
  rcases h.settled u v he hu with ⟨us, hus, hv⟩ | hk
  · rcases List.mem_cons.mp hus with hus | hus
    · cases hus
      rcases List.mem_cons.mp hv with rfl | hv
      · exact Or.inl ⟨rfl, rfl⟩
      · exact Or.inr (Or.inl ⟨ts, List.mem_cons_self, hv⟩)
    · exact Or.inr (Or.inl ⟨us, List.mem_cons_of_mem _ hus, hv⟩)
  · exact Or.inr (Or.inr hk)

theorem kept_old_cons : ∀ e ∈ (s, t) :: kept, e ∈ g.edges := by
  intro e he
  rcases List.mem_cons.mp he with rfl | he
  · exact h.next_edge
  · exact h.kept_old e he

theorem done_acc_cons (u : Nat) (hf : u ∉ fresh) (ho : u ∉ opened ((s, t :: ts) :: stack)) :
    Acc (fun v u => (u, v) ∈ (s, t) :: kept) u :=
  acc_cons (fun u v he _ hu => ⟨(h.kept_met u v he).2, h.done_closed u v he hu⟩)
    List.mem_cons_self (h.done_acc u hf ho) hf ho

theorem keep (htf : t ∉ fresh) (hto : t ∉ opened ((s, t :: ts) :: stack)) :
    Search g fresh ((s, ts) :: stack) ((s, t) :: kept) where
  fresh_nodup := h.fresh_nodup
  opened_nodup := h.opened_nodup
  opened_met := h.opened_met
  waiting := h.waiting_tail
  kept_old := h.kept_old_cons
  kept_met := by
    intro u v he
    rcases List.mem_cons.mp he with he | he
    · cases he
      exact ⟨h.opened_met s List.mem_cons_self, htf⟩
    · exact h.kept_met u v he
  path := h.path.imp fun _ _ he => List.mem_cons_of_mem _ he
  done_closed := by
    intro u v he hu
    rcases List.mem_cons.mp he with he | he
    · cases he
      exact hto
    · exact h.done_closed u v he hu
  onward := by
    intro u v he hu hv
    rcases List.mem_cons.mp he with he | he
    · cases he
      exact absurd hv hto
    · exact h.onward u v he hu hv
  done_acc := h.done_acc_cons
  settled := by
    intro u v he hu
    rcases h.settled_tail he hu with ⟨rfl, rfl⟩ | hw | hk | hl
    · exact Or.inr (Or.inl List.mem_cons_self)
    · exact Or.inl hw
    · exact Or.inr (Or.inl (List.mem_cons_of_mem _ hk))
    · exact Or.inr (Or.inr (hl.mono fun e he => List.mem_cons_of_mem _ he))

theorem skip (hto : t ∈ opened ((s, t :: ts) :: stack)) :
    Search g fresh ((s, ts) :: stack) kept where
  fresh_nodup := h.fresh_nodup
  opened_nodup := h.opened_nodup
  opened_met := h.opened_met
  waiting := h.waiting_tail
  kept_old := h.kept_old
  kept_met := h.kept_met
  path := h.path
  done_closed := h.done_closed
  onward := h.onward
  done_acc := h.done_acc
  settled := by
    intro u v he hu
    rcases h.settled_tail he hu with ⟨rfl, rfl⟩ | hrest
    · have hne : v ≠ u := (g.valid _ he).2.2.symm
      have hrest : v ∈ opened stack := (List.mem_cons.mp hto).resolve_left hne
      exact Or.inr (Or.inr (leads_up h.path hrest))
    · exact hrest

theorem descend (ht : t ∈ fresh) :
    Search g (fresh.erase t) ((t, g.successors t) :: (s, ts) :: stack) ((s, t) :: kept) := by
  have hopened : opened ((t, g.successors t) :: (s, ts) :: stack) =
      t :: opened ((s, t :: ts) :: stack) := rfl
  have hmet {u : Nat} (hu : u ∉ fresh) : u ∉ fresh.erase t :=
    fun hm => hu (List.mem_of_mem_erase hm)
  have hne {u : Nat} (hu : u ∉ fresh) : t ≠ u := fun e => hu (e ▸ ht)
  have hto : t ∉ opened ((s, t :: ts) :: stack) := fun hm => h.opened_met t hm ht
  exact {
    fresh_nodup := h.fresh_nodup.erase t
    opened_nodup := List.nodup_cons.mpr ⟨hto, h.opened_nodup⟩
    opened_met := by
      intro u hu
      rcases List.mem_cons.mp hu with rfl | hu
      · exact h.fresh_nodup.not_mem_erase
      · exact hmet (h.opened_met u hu)
    waiting := by
      intro u us hu
      rcases List.mem_cons.mp hu with hu | hu
      · cases hu
        exact fun v hv => mem_successors.mp hv
      · exact h.waiting_tail u us hu
    kept_old := h.kept_old_cons
    kept_met := by
      intro u v he
      rcases List.mem_cons.mp he with he | he
      · cases he
        exact ⟨hmet (h.opened_met s List.mem_cons_self), h.fresh_nodup.not_mem_erase⟩
      · exact ⟨hmet (h.kept_met u v he).1, hmet (h.kept_met u v he).2⟩
    path := List.isChain_cons_cons.mpr ⟨List.mem_cons_self,
      h.path.imp fun _ _ he => List.mem_cons_of_mem _ he⟩
    done_closed := by
      intro u v he hu
      rw [hopened, List.mem_cons, not_or] at hu
      rcases List.mem_cons.mp he with he | he
      · cases he
        exact absurd List.mem_cons_self hu.2
      · rw [hopened, List.mem_cons, not_or]
        exact ⟨(hne (h.kept_met u v he).2).symm, h.done_closed u v he hu.2⟩
    onward := by
      intro u v he hu hv
      rw [hopened] at hu hv ⊢
      rcases List.mem_cons.mp he with he | he
      · cases he
        have hs := hne (h.opened_met s List.mem_cons_self)
        rw [List.idxOf_cons_self, List.idxOf_cons_ne _ hs]
        exact Nat.succ_pos _
      · have hu' := hne (h.kept_met u v he).1
        have hv' := hne (h.kept_met u v he).2
        have hlt := h.onward u v he ((List.mem_cons.mp hu).resolve_left hu'.symm)
          ((List.mem_cons.mp hv).resolve_left hv'.symm)
        rw [List.idxOf_cons_ne _ hu', List.idxOf_cons_ne _ hv']
        exact Nat.succ_lt_succ hlt
    done_acc := by
      intro u hf ho
      rw [hopened, List.mem_cons, not_or] at ho
      have huf : u ∉ fresh := fun hm => hf ((List.mem_erase_of_ne ho.1).mpr hm)
      exact h.done_acc_cons u huf ho.2
    settled := by
      intro u v he hu
      by_cases hut : u = t
      · exact Or.inl ⟨g.successors t, by simp [hut], mem_successors.mpr (hut ▸ he)⟩
      · have huf : u ∉ fresh := fun hm => hu ((List.mem_erase_of_ne hut).mpr hm)
        rcases h.settled_tail he huf with ⟨rfl, rfl⟩ | ⟨us, hus, hv⟩ | hk | hl
        · exact Or.inr (Or.inl List.mem_cons_self)
        · exact Or.inl ⟨us, List.mem_cons_of_mem _ hus, hv⟩
        · exact Or.inr (Or.inl (List.mem_cons_of_mem _ hk))
        · exact Or.inr (Or.inr (hl.mono fun e he => List.mem_cons_of_mem _ he)) }

end Next

theorem explore (h : Search g fresh stack kept) : Search g [] [] (g.explore fresh stack kept) := by
  fun_induction LayerGraph.explore g fresh stack kept with
  | case1 kept => exact h
  | case2 kept root fresh ih => exact ih h.root
  | case3 fresh kept s stack ih => exact ih h.close
  | case4 fresh kept s t ts stack ht ih => exact ih (h.descend ht)
  | case5 fresh kept s t ts stack ht ho ih => exact ih (h.skip (isOpen_iff.mp ho))
  | case6 fresh kept s t ts stack ht ho ih =>
    exact ih (h.keep ht fun hm => ho (isOpen_iff.mpr hm))

end Search

theorem keptEdges_search (g : LayerGraph) : Search g [] [] g.keptEdges := (Search.start g).explore

theorem mem_withoutBackEdges {e : Nat × Nat} : e ∈ g.withoutBackEdges.edges ↔ e ∈ g.keptEdges := by
  have hlist : e ∈ ((List.range g.size).flatMap fun s =>
      ((g.successors s).map fun t => (s, t)).filter g.keptEdges.contains) ↔
      e.1 < g.size ∧ e ∈ g.edges ∧ e ∈ g.keptEdges := by
    simp only [List.mem_flatMap, List.mem_range, List.mem_filter, List.mem_map,
      List.contains_iff_mem]
    constructor
    · rintro ⟨s, hs, ⟨t, ht, rfl⟩, hk⟩
      exact ⟨hs, mem_successors.mp ht, hk⟩
    · rintro ⟨hs, he, hk⟩
      exact ⟨e.1, hs, ⟨e.2, mem_successors.mpr he, rfl⟩, hk⟩
  rw [withoutBackEdges, mem_ofEdges, hlist]
  constructor
  · exact fun h => h.1.2.2
  · intro hk
    have he := g.keptEdges_search.kept_old e hk
    exact ⟨⟨(g.valid e he).1, he, hk⟩, g.valid e he⟩

theorem withoutBackEdges_old {e : Nat × Nat} (h : e ∈ g.withoutBackEdges.edges) : e ∈ g.edges :=
  g.keptEdges_search.kept_old e (mem_withoutBackEdges.mp h)

theorem withoutBackEdges_acyclic (g : LayerGraph) : Acyclic g.withoutBackEdges.edges := by
  have hkept : Acyclic g.keptEdges :=
    acyclic_of_acc fun u => g.keptEdges_search.done_acc u (by simp) (by simp [opened])
  exact hkept.mono fun e he => mem_withoutBackEdges.mp he

theorem leads_of_dropped {u v : Nat} (he : (u, v) ∈ g.edges)
    (hdrop : (u, v) ∉ g.withoutBackEdges.edges) : Leads g.withoutBackEdges.edges v u := by
  rcases g.keptEdges_search.settled u v he (by simp) with ⟨ts, hts, -⟩ | hk | hl
  · cases hts
  · exact absurd (mem_withoutBackEdges.mpr hk) hdrop
  · exact hl.mono fun e hk => mem_withoutBackEdges.mpr hk

end FlowCanvas.LayerGraph
