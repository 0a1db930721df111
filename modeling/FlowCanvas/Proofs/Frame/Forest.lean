import Mathlib.Data.List.Perm.Subperm
import FlowCanvas.Proofs.Diagram.Element

/-! Kept links form a forest. A link is kept only if its group is not reached by climbing from the
element to which it would lead, so every climb ends, and it takes no more steps than there are
links. The groups above an element are then its own group and the groups above that one. -/

namespace FlowCanvas

variable {α : Type}

namespace Frames

inductive Climbs (links : List (String × String)) : String → List String → Prop
  | top {id : String} (h : links.lookup id = none) : Climbs links id []
  | up {id p : String} {ps : List String} (h : links.lookup id = some p) (hp : Climbs links p ps) :
      Climbs links id (p :: ps)

variable {links : List (String × String)} {id c p : String} {ps qs : List String}

theorem Climbs.unique (h : Climbs links id ps) (h' : Climbs links id qs) : ps = qs := by
  induction h generalizing qs with
  | top h =>
    cases h' with
    | top _ => rfl
    | up h' _ => simp [h] at h'
  | up h _ ih =>
    cases h' with
    | top h' => simp [h] at h'
    | up h' hp' =>
      obtain rfl : _ = _ := Option.some.inj (h.symm.trans h')
      rw [ih hp']

theorem Climbs.of_mem (h : Climbs links id ps) {q : String} (hq : q ∈ ps) :
    ∃ qs, Climbs links q qs ∧ qs.length < ps.length := by
  induction h with
  | top _ => cases hq
  | up _ hp ih =>
    rcases List.mem_cons.mp hq with rfl | hq
    · exact ⟨_, hp, by simp⟩
    · obtain ⟨qs, hqs, hlt⟩ := ih hq
      exact ⟨qs, hqs, Nat.lt_succ_of_lt hlt⟩

theorem Climbs.linked (h : Climbs links id ps) {q : String} (hq : q ∈ ps) :
    ∃ child, links.lookup child = some q := by
  induction h with
  | top _ => cases hq
  | @up id p ps hp _ ih =>
    rcases List.mem_cons.mp hq with rfl | hq
    · exact ⟨id, hp⟩
    · exact ih hq

theorem Climbs.not_mem (h : Climbs links id ps) : id ∉ ps := by
  intro hmem
  obtain ⟨qs, hqs, hlt⟩ := h.of_mem hmem
  rw [h.unique hqs] at hlt
  exact Nat.lt_irrefl _ hlt

theorem Climbs.sources (h : Climbs links id ps) :
    ∃ srcs : List String, srcs.length = ps.length ∧ srcs.Nodup ∧
      (∀ x ∈ srcs, x ∈ links.map Prod.fst) ∧ ∀ x ∈ srcs, x ∈ id :: ps := by
  induction h with
  | top _ => exact ⟨[], rfl, List.nodup_nil, by simp, by simp⟩
  | @up id p ps h hp ih =>
    obtain ⟨srcs, hlen, hnodup, hkeys, hsub⟩ := ih
    have hid : id ∉ p :: ps := (Climbs.up h hp).not_mem
    obtain ⟨l₁, l₂, hl, -⟩ := List.lookup_eq_some_iff.mp h
    refine ⟨id :: srcs, by simp [hlen], ?_, ?_, ?_⟩
    · exact List.nodup_cons.mpr ⟨fun hx => hid (hsub id hx), hnodup⟩
    · intro x hx
      rcases List.mem_cons.mp hx with rfl | hx
      · simp [hl]
      · exact hkeys x hx
    · intro x hx
      rcases List.mem_cons.mp hx with rfl | hx
      · exact List.mem_cons_self
      · exact List.mem_cons_of_mem _ (hsub x hx)

theorem Climbs.length_le (h : Climbs links id ps) : ps.length ≤ links.length := by
  obtain ⟨srcs, hlen, hnodup, hkeys, -⟩ := h.sources
  have hle := (hnodup.subperm hkeys).length_le
  rwa [hlen, List.length_map] at hle

theorem Climbs.climb_eq (h : Climbs links id ps) {n : Nat} (hn : ps.length ≤ n) :
    climb links n id = ps := by
  induction h generalizing n with
  | top h =>
    cases n with
    | zero => rfl
    | succ n => simp [climb, h]
  | up h _ ih =>
    cases n with
    | zero => simp at hn
    | succ n => simp [climb, h, ih (by simpa using hn)]

theorem Climbs.above_eq (h : Climbs links id ps) : above links id = ps :=
  h.climb_eq h.length_le

theorem lookup_link_of_ne (h : id ≠ c) : ((c, p) :: links).lookup id = links.lookup id := by
  have hne : (id == c) = false := by simpa using h
  rw [List.lookup_cons, hne]

theorem Climbs.keep (h : Climbs links id ps) (hc : c ∉ id :: ps) :
    Climbs ((c, p) :: links) id ps := by
  induction h with
  | top h =>
    have hne := Ne.symm (List.ne_of_not_mem_cons hc)
    exact .top (by rw [lookup_link_of_ne hne, h])
  | up h _ ih =>
    have hne := Ne.symm (List.ne_of_not_mem_cons hc)
    exact .up (by rw [lookup_link_of_ne hne, h]) (ih (List.not_mem_of_not_mem_cons hc))

theorem Climbs.link (h : Climbs links id ps) (hc : links.lookup c = none)
    (hp : Climbs links p qs) (hcycle : c ∉ p :: qs) :
    ∃ rs, Climbs ((c, p) :: links) id rs := by
  induction h with
  | @top id h =>
    by_cases hid : id = c
    · rw [hid]
      exact ⟨p :: qs, .up List.lookup_cons_self (hp.keep hcycle)⟩
    · exact ⟨[], .top (by rw [lookup_link_of_ne hid, h])⟩
  | @up id q ps h _ ih =>
    have hid : id ≠ c := by
      rintro rfl
      simp [hc] at h
    obtain ⟨rs, hrs⟩ := ih
    exact ⟨q :: rs, .up (by rw [lookup_link_of_ne hid, h]) hrs⟩

theorem candidate?_eq_some {elements : List (Node α)} {n : Node α} :
    candidate? elements n = some p ↔
      n.isTool = false ∧ n.parent = some p ∧
        ∃ g, find? elements p = some g ∧ g.isGroup = true := by
  unfold candidate?
  by_cases ht : n.isTool
  · simp [ht]
  · simp [ht, Option.bind_eq_some_iff]

/-- What holds of the links that some elements leave: climbs end, and every link is one that its
element asked for. -/
structure Kept (elements done : List (Node α)) (links : List (String × String)) : Prop where
  ends : ∀ id, ∃ ps, Climbs links id ps
  asked : ∀ id p, links.lookup id = some p →
    ∃ n ∈ done, n.id = id ∧ candidate? elements n = some p

theorem Kept.step {elements done : List (Node α)} (h : Kept elements done links) {n : Node α}
    (hn : n.id ∉ done.map (·.id)) : Kept elements (n :: done) (keep elements links n) := by
  have weaken (id p : String) (hl : links.lookup id = some p) :
      ∃ m ∈ n :: done, m.id = id ∧ candidate? elements m = some p := by
    obtain ⟨m, hm, hid⟩ := h.asked id p hl
    exact ⟨m, List.mem_cons_of_mem _ hm, hid⟩
  unfold keep
  cases hcand : candidate? elements n with
  | none => exact ⟨h.ends, weaken⟩
  | some p =>
    dsimp only
    split
    · exact ⟨h.ends, weaken⟩
    · rename_i hcycle
      have hfree : links.lookup n.id = none := by
        cases hl : links.lookup n.id with
        | none => rfl
        | some q =>
          obtain ⟨m, hm, hid, -⟩ := h.asked _ _ hl
          exact absurd (hid ▸ List.mem_map_of_mem hm) hn
      obtain ⟨qs, hqs⟩ := h.ends p
      rw [closesCycle, hqs.above_eq, List.contains_iff_mem] at hcycle
      constructor
      · intro id
        obtain ⟨ps, hps⟩ := h.ends id
        exact hps.link hfree hqs hcycle
      · intro id q hl
        by_cases hid : id = n.id
        · rw [hid, List.lookup_cons_self] at hl
          cases hl
          exact ⟨n, List.mem_cons_self, hid.symm, hcand⟩
        · rw [lookup_link_of_ne hid] at hl
          exact weaken id q hl

theorem Kept.foldl {elements done : List (Node α)} (h : Kept elements done links)
    (rest : List (Node α)) (hn : ((done.reverse ++ rest).map (·.id)).Nodup) :
    Kept elements (rest.reverse ++ done) (rest.foldl (keep elements) links) := by
  induction rest generalizing done links with
  | nil => exact h
  | cons n rest ih =>
    have hn' : (((n :: done).reverse ++ rest).map (·.id)).Nodup := by simpa using hn
    have hfresh : n.id ∉ done.map (·.id) := by
      rw [List.reverse_cons, List.append_assoc, List.map_append] at hn'
      intro hm
      have hr : n.id ∈ done.reverse.map (·.id) := by simpa using hm
      exact (List.nodup_append.mp hn').2.2 _ hr _ (by simp) rfl
    have hrest := ih (h.step hfresh) hn'
    simpa using hrest

structure WellFormed (f : Frames α) : Prop where
  nodup : (f.elements.map (·.id)).Nodup
  kept : Kept f.elements f.elements.reverse f.links

theorem build_wellFormed (d : Diagram α) : (build d).WellFormed := by
  refine ⟨d.elements_nodup, ?_⟩
  have hstart : Kept d.elements [] [] := ⟨fun id => ⟨[], .top rfl⟩, by simp⟩
  have h := hstart.foldl d.elements (by simpa using d.elements_nodup)
  simpa [build] using h

theorem ancestors_of_free {f : Frames α} (h : f.parent? id = none) : f.ancestors id = [] :=
  (Climbs.top h).above_eq

theorem topLevel_of_free {f : Frames α} (h : f.parent? id = none) : f.topLevel id = id := by
  rw [topLevel, ancestors_of_free h, List.getLastD_nil]

theorem depth_of_free {f : Frames α} (h : f.parent? id = none) : f.depth id = 0 := by
  rw [depth, ancestors_of_free h, List.length_nil]

namespace WellFormed

variable {f : Frames α} (hf : f.WellFormed)

include hf

theorem ancestors_of_parent (h : f.parent? id = some p) : f.ancestors id = p :: f.ancestors p := by
  obtain ⟨ps, hps⟩ := hf.kept.ends p
  rw [ancestors, ancestors, hps.above_eq]
  exact (Climbs.up h hps).above_eq

theorem topLevel_of_parent (h : f.parent? id = some p) : f.topLevel id = f.topLevel p := by
  rw [topLevel, hf.ancestors_of_parent h, List.getLastD_cons, topLevel]

theorem depth_of_parent (h : f.parent? id = some p) : f.depth id = f.depth p + 1 := by
  rw [depth, hf.ancestors_of_parent h, List.length_cons, depth]

theorem eq_of_id {n m : Node α} (hn : n ∈ f.elements) (hm : m ∈ f.elements) (h : n.id = m.id) :
    n = m :=
  List.inj_on_of_nodup_map hf.nodup hn hm h

theorem element?_eq_some {n : Node α} : f.element? id = some n ↔ n ∈ f.elements ∧ n.id = id := by
  constructor
  · intro h
    exact ⟨List.mem_of_find?_eq_some h, by simpa using List.find?_some h⟩
  · rintro ⟨hn, rfl⟩
    cases h : f.element? n.id with
    | none => simpa using List.find?_eq_none.mp h n hn
    | some m =>
      have hid : m.id = n.id := by simpa using List.find?_some h
      rw [hf.eq_of_id (List.mem_of_find?_eq_some h) hn hid]

theorem element?_of_mem {n : Node α} (hn : n ∈ f.elements) : f.element? n.id = some n :=
  hf.element?_eq_some.mpr ⟨hn, rfl⟩

theorem parent?_asked {n : Node α} (hn : n ∈ f.elements) (h : f.parent? n.id = some p) :
    candidate? f.elements n = some p := by
  obtain ⟨m, hm, hid, hcand⟩ := hf.kept.asked _ _ h
  rwa [hf.eq_of_id (List.mem_reverse.mp hm) hn hid] at hcand

theorem parent?_of_tool {n : Node α} (hn : n ∈ f.elements) (htool : n.isTool = true) :
    f.parent? n.id = none := by
  cases h : f.parent? n.id with
  | none => rfl
  | some p =>
    rw [(candidate?_eq_some.mp (hf.parent?_asked hn h)).1] at htool
    cases htool

theorem parent?_group (h : f.parent? id = some p) :
    ∃ g ∈ f.elements, g.id = p ∧ g.isGroup = true := by
  obtain ⟨m, -, -, hcand⟩ := hf.kept.asked _ _ h
  obtain ⟨-, -, g, hg, hgroup⟩ := candidate?_eq_some.mp hcand
  have hmem := hf.element?_eq_some.mp hg
  exact ⟨g, hmem.1, hmem.2, hgroup⟩

theorem ancestors_group (h : p ∈ f.ancestors id) :
    ∃ g ∈ f.elements, g.id = p ∧ g.isGroup = true := by
  obtain ⟨ps, hps⟩ := hf.kept.ends id
  rw [ancestors, hps.above_eq] at h
  obtain ⟨child, hchild⟩ := hps.linked h
  exact hf.parent?_group hchild

theorem inward {P : Node α → Prop}
    (hstep : ∀ n ∈ f.elements, (∀ c ∈ f.children n.id, P c) → P n) : ∀ n ∈ f.elements, P n := by
  intro n hn
  -- Children are deeper than their group, and nothing is deeper than there are links.
  induction hk : f.links.length - f.depth n.id using Nat.strongRecOn generalizing n with
  | ind k ih =>
    apply hstep n hn
    intro c hc
    obtain ⟨hmem, hparent⟩ := (mem_children f).mp hc
    have hdeeper := hf.depth_of_parent hparent
    have hbound := f.depth_le c.id
    exact ih _ (by omega) c hmem rfl

theorem layered_nodup : (f.layered.map (·.id)).Nodup :=
  hf.nodup.sublist (List.filter_sublist.map _)

end WellFormed

theorem mem_layered {f : Frames α} {n : Node α} :
    n ∈ f.layered ↔ n ∈ f.elements ∧ n.isTool = false ∧ f.parent? n.id = none := by
  simp [layered, isGrouped]

end Frames

theorem Diagram.node?_of_element {d : Diagram α} {n : Node α} (hn : n ∈ d.elements) :
    d.node? n.id = some n := by
  rw [← find?_elements]
  exact (Frames.build_wellFormed d).element?_of_mem hn

end FlowCanvas
