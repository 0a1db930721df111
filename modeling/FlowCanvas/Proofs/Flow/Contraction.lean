import Mathlib.Order.Bounds.Basic
import FlowCanvas.Proofs.Checked.Plan
import FlowCanvas.Proofs.Flow.Edge

/-! The contraction of routes is exact. By the indices of nodes, the routes of a diagram are the
pairs of different layered elements that the ends of some route edge are in, each pair once and in
the order of the first edges that join them. No route is lost for its groups: the outermost group
of a step is layered, however deep the step is in it. -/

namespace FlowCanvas

section FirstSources

variable {β γ : Type} [BEq γ] [LawfulBEq γ] {g : β → Option γ} {x : β} {xs : List β} {a b c : γ}

theorem eraseDups_filter (keep : γ → Bool) (ys : List γ) :
    (ys.filter keep).eraseDups = ys.eraseDups.filter keep := by
  induction hn : ys.length using Nat.strong_induction_on generalizing ys with
  | _ n ih =>
    cases ys with
    | nil => rfl
    | cons y ys =>
      have hlen : (ys.filter fun z => !z == y).length < n := by
        rw [← hn, List.length_cons]
        exact Nat.lt_succ_of_le (List.length_filter_le _ _)
      rw [List.eraseDups_cons]
      by_cases hy : keep y = true
      · rw [List.filter_cons_of_pos hy, List.filter_cons_of_pos hy, List.eraseDups_cons,
          List.filter_comm, ih _ hlen _ rfl]
      · -- Copies of a head that is not kept are not kept either.
        have hrest : ys.filter keep = (ys.filter fun z => !z == y).filter keep := by
          rw [List.filter_filter]
          refine List.filter_congr fun z _ => ?_
          by_cases hz : z = y
          · simp [hz, hy]
          · simp [hz]
        rw [List.filter_cons_of_neg hy, List.filter_cons_of_neg hy, hrest, ih _ hlen _ rfl]

def sources (g : β → Option γ) (xs : List β) (c : γ) : Set Nat :=
  {k | ∃ x, xs[k]? = some x ∧ g x = some c}

omit [BEq γ] [LawfulBEq γ] in
theorem isLeast_sources_head (h : g x = some c) : IsLeast (sources g (x :: xs) c) 0 :=
  ⟨⟨x, rfl, h⟩, fun _ _ => Nat.zero_le _⟩

omit [BEq γ] [LawfulBEq γ] in
theorem isLeast_sources_tail {k : Nat} (h : g x ≠ some c) (hk : IsLeast (sources g xs c) k) :
    IsLeast (sources g (x :: xs) c) (k + 1) := by
  refine ⟨hk.1, ?_⟩
  rintro l ⟨y, hy, hgy⟩
  cases l with
  | zero =>
    cases hy
    exact absurd hgy h
  | succ l => exact Nat.succ_le_succ (hk.2 ⟨y, hy, hgy⟩)

omit [BEq γ] [LawfulBEq γ] in
theorem exists_isLeast_sources (h : c ∈ xs.filterMap g) : ∃ k, IsLeast (sources g xs c) k := by
  induction xs with
  | nil => cases h
  | cons x xs ih =>
    by_cases hx : g x = some c
    · exact ⟨0, isLeast_sources_head hx⟩
    · obtain ⟨y, hy, hgy⟩ := List.mem_filterMap.mp h
      rcases List.mem_cons.mp hy with rfl | hy
      · exact absurd hgy hx
      · obtain ⟨k, hk⟩ := ih (List.mem_filterMap.mpr ⟨y, hy, hgy⟩)
        exact ⟨k + 1, isLeast_sources_tail hx hk⟩

/-- One value is given before another for the first time. -/
def GivenBefore (g : β → Option γ) (xs : List β) (a b : γ) : Prop :=
  ∃ k l, IsLeast (sources g xs a) k ∧ IsLeast (sources g xs b) l ∧ k < l

omit [BEq γ] [LawfulBEq γ] in
theorem GivenBefore.ne (h : GivenBefore g xs a b) : a ≠ b := by
  obtain ⟨k, l, hk, hl, hlt⟩ := h
  rintro rfl
  exact Nat.ne_of_lt hlt (hk.unique hl)

omit [BEq γ] [LawfulBEq γ] in
theorem GivenBefore.cons (h : GivenBefore g xs a b) (ha : g x ≠ some a) (hb : g x ≠ some b) :
    GivenBefore g (x :: xs) a b := by
  obtain ⟨k, l, hk, hl, hlt⟩ := h
  exact ⟨k + 1, l + 1, isLeast_sources_tail ha hk, isLeast_sources_tail hb hl,
    Nat.succ_lt_succ hlt⟩

theorem filterMap_eraseDups_pairwise (g : β → Option γ) (xs : List β) :
    (xs.filterMap g).eraseDups.Pairwise (GivenBefore g xs) := by
  induction xs with
  | nil => exact List.Pairwise.nil
  | cons x xs ih =>
    cases hx : g x with
    | none =>
      rw [List.filterMap_cons_none hx]
      refine ih.imp fun h => h.cons ?_ ?_ <;> simp [hx]
    | some c =>
      rw [List.filterMap_cons_some hx, List.eraseDups_cons, eraseDups_filter]
      have hother {a : γ} (ha : a ∈ (xs.filterMap g).eraseDups.filter fun b => !b == c) :
          a ∈ xs.filterMap g ∧ g x ≠ some a := by
        obtain ⟨hmem, hne⟩ := List.mem_filter.mp ha
        refine ⟨List.mem_eraseDups.mp hmem, fun he => ?_⟩
        simp [Option.some.inj (hx.symm.trans he)] at hne
      refine List.pairwise_cons.mpr ⟨fun a ha => ?_, ?_⟩
      · obtain ⟨hmem, hne⟩ := hother ha
        obtain ⟨k, hk⟩ := exists_isLeast_sources hmem
        exact ⟨0, k + 1, isLeast_sources_head hx, isLeast_sources_tail hne hk, Nat.succ_pos k⟩
      · exact (ih.filter _).imp_of_mem fun ha hb h => h.cons (hother ha).2 (hother hb).2

end FirstSources

variable {α : Type}

namespace Frames

open Diagram Checked

variable {d : Diagram α} {e : Edge} {i j : Nat} {n : Node α} {p : Nat × Nat}

/-- The flow arranges the node at an index: it is an element, no tool and in no group. -/
def LayeredAt (d : Diagram α) (i : Nat) : Prop :=
  ∃ n, d.IsFirst i n ∧ n.isTool = false ∧ groupAt? d i = none

/-- An edge is a route between known nodes, and these are seen as a pair from outside all groups. -/
def Joins (d : Diagram α) (e : Edge) (p : Nat × Nat) : Prop :=
  e.kind = .route ∧ ∃ i j, d.index? e.source = some i ∧ d.index? e.target = some j ∧
    topLevelAt d i = p.1 ∧ topLevelAt d j = p.2

def joinings (d : Diagram α) (p : Nat × Nat) : Set Nat :=
  {k | ∃ e, d.edges[k]? = some e ∧ Joins d e p}

def places (d : Diagram α) (p : String × String) : Nat × Nat := (d.placeOf p.1, d.placeOf p.2)

def routesAt (d : Diagram α) : List (Nat × Nat) := ((build d).routes d.edges).map (places d)

/-- The routes as they are found on checked arrays, from nothing but the nodes and edges. -/
def contraction? (d : Diagram α) : Option (List (Nat × Nat)) := do
  let parents ← parents? d
  routes? d parents (Checked.layered d parents)

def routeAt? (d : Diagram α) (e : Edge) : Option (Nat × Nat) :=
  ((build d).route? e).map (places d)

theorem layeredAt_of_first (hi : d.IsFirst i n) : LayeredAt d i ↔ n ∈ (build d).layered := by
  rw [mem_layered]
  constructor
  · rintro ⟨m, hm, htool, hfree⟩
    obtain rfl := hi.node_unique hm
    exact ⟨hi.mem, htool, groupAt?_free hi hfree⟩
  · rintro ⟨-, htool, hfree⟩
    exact ⟨n, hi, htool, by rw [groupAt?_of_first hi, hfree, Option.bind_none]⟩

theorem layered_places (d : Diagram α) :
    Checked.layered d (groupTable d) = (build d).layeredIds.map d.placeOf := by
  rw [Plan.layered_eq, layeredIds, List.map_map]
  rfl

theorem mem_checked_layered : i ∈ Checked.layered d (groupTable d) ↔ LayeredAt d i := by
  rw [Plan.layered_eq, List.mem_map]
  constructor
  · rintro ⟨n, hn, rfl⟩
    obtain ⟨k, hk⟩ := mem_elements_iff.mp (mem_layered.mp hn).1
    rw [hk.placeOf_eq]
    exact (layeredAt_of_first hk).mpr hn
  · intro h
    obtain ⟨n, hi, -⟩ := id h
    exact ⟨n, (layeredAt_of_first hi).mp h, hi.placeOf_eq⟩

theorem placeOf_topLevel (hi : d.IsFirst i n) :
    d.placeOf ((build d).topLevel n.id) = topLevelAt d i := by
  obtain ⟨t, ht, hid⟩ := topLevelAt_of_first hi
  rw [← hid, ht.placeOf_eq]

theorem contracted?_places : ((build d).contracted? e).map (places d) = some p ↔ Joins d e p := by
  unfold contracted? Joins
  by_cases hkind : e.kind = .route
  · cases hsource : d.index? e.source with
    | none => simp [element?_eq_none hsource]
    | some i =>
      cases htarget : d.index? e.target with
      | none => simp [element?_eq_none htarget]
      | some j =>
        obtain ⟨a, ha, haid⟩ := index?_eq_some.mp hsource
        obtain ⟨b, hb, hbid⟩ := index?_eq_some.mp htarget
        have hfa := (build_wellFormed d).element?_of_mem ha.mem
        have hfb := (build_wellFormed d).element?_of_mem hb.mem
        simp [hkind, ← haid, ← hbid, hfa, hfb, places, placeOf_topLevel ha, placeOf_topLevel hb,
          Prod.ext_iff]
  · simp [hkind]

theorem route?_eq_some {a b : String} : (build d).route? e = some (a, b) ↔
    (build d).contracted? e = some (a, b) ∧
      a ∈ (build d).layeredIds ∧ b ∈ (build d).layeredIds ∧ a ≠ b := by
  simp [route?, Option.filter_eq_some_iff, and_assoc]

theorem layeredAt_placeOf {a : String} (ha : Known d a) :
    LayeredAt d (d.placeOf a) ↔ a ∈ (build d).layeredIds := by
  rw [← mem_checked_layered, layered_places, ← List.contains_iff_mem, layered_contains ha,
    List.contains_iff_mem]

theorem contraction?_eq (d : Diagram α) : contraction? d = some (routesAt d) := by
  rw [contraction?, parents?_eq, Option.bind_eq_bind, Option.bind_some, layered_places]
  exact routes?_eq d

theorem routeAt?_eq_some {i j : Nat} : routeAt? d e = some (i, j) ↔
    i ≠ j ∧ LayeredAt d i ∧ LayeredAt d j ∧ Joins d e (i, j) := by
  rw [routeAt?, ← contracted?_places]
  cases hc : (build d).contracted? e with
  | none => simp [route?, hc]
  | some q =>
    obtain ⟨a, b⟩ := q
    obtain ⟨ha, hb⟩ := contracted?_known hc
    have hne : d.placeOf a ≠ d.placeOf b ↔ a ≠ b :=
      not_congr ⟨placeOf_injOn ha hb, fun h => by rw [h]⟩
    rw [Option.map_eq_some_iff, Option.map_some, Option.some_inj, places, Prod.mk.injEq]
    constructor
    · rintro ⟨⟨a', b'⟩, hr, hp⟩
      obtain ⟨hc', hla, hlb, hab⟩ := route?_eq_some.mp hr
      cases hc.symm.trans hc'
      obtain ⟨rfl, rfl⟩ := Prod.mk.inj hp
      exact ⟨hne.mpr hab, (layeredAt_placeOf ha).mpr hla, (layeredAt_placeOf hb).mpr hlb, rfl, rfl⟩
    · rintro ⟨hij, hli, hlj, rfl, rfl⟩
      exact ⟨(a, b), route?_eq_some.mpr
        ⟨hc, (layeredAt_placeOf ha).mp hli, (layeredAt_placeOf hb).mp hlj, hne.mp hij⟩, rfl⟩

theorem routesAt_eq (d : Diagram α) :
    routesAt d = (d.edges.filterMap (routeAt? d)).eraseDups := by
  have hknown (p : String × String) (hp : p ∈ d.edges.filterMap (build d).route?) :
      Known d p.1 ∧ Known d p.2 := by
    obtain ⟨e, -, he⟩ := List.mem_filterMap.mp hp
    exact contracted?_known (route?_eq_some.mp he).1
  have hinj (p : String × String) (hp : p ∈ d.edges.filterMap (build d).route?)
      (q : String × String) (hq : q ∈ d.edges.filterMap (build d).route?)
      (h : places d p = places d q) : p = q := places_inj (hknown p hp) (hknown q hq) h
  rw [routesAt, routes_eq, ← eraseDups_map hinj, List.map_filterMap]
  rfl

theorem mem_routesAt : (i, j) ∈ routesAt d ↔
    i ≠ j ∧ LayeredAt d i ∧ LayeredAt d j ∧ ∃ e ∈ d.edges, Joins d e (i, j) := by
  rw [routesAt_eq, List.mem_eraseDups, List.mem_filterMap]
  constructor
  · rintro ⟨e, he, hr⟩
    obtain ⟨hne, hi, hj, hjoins⟩ := routeAt?_eq_some.mp hr
    exact ⟨hne, hi, hj, e, he, hjoins⟩
  · rintro ⟨hne, hi, hj, e, he, hjoins⟩
    exact ⟨e, he, routeAt?_eq_some.mpr ⟨hne, hi, hj, hjoins⟩⟩

theorem sources_routeAt? (hp : p ∈ routesAt d) :
    sources (routeAt? d) d.edges p = joinings d p := by
  obtain ⟨i, j⟩ := p
  obtain ⟨hne, hi, hj, -⟩ := mem_routesAt.mp hp
  refine Set.ext fun k => exists_congr fun e => and_congr_right fun _ => ?_
  rw [routeAt?_eq_some]
  exact ⟨fun h => h.2.2.2, fun h => ⟨hne, hi, hj, h⟩⟩

theorem layeredAt_topLevelAt (hi : d.IsFirst i n) (htool : n.isTool = false) :
    LayeredAt d (topLevelAt d i) := by
  induction i using outward (d := d) generalizing n with
  | hfree i hg =>
    rw [topLevelAt_of_free hg]
    exact ⟨n, hi, htool, hg⟩
  | hgroup i p hg ih =>
    -- What a node is drawn in is a group, so it is no tool either.
    obtain ⟨-, g, -, hp, -, -, hgroup⟩ := (groupAt?_exact.mp hg).1
    rw [topLevelAt_of_group hg]
    exact ih hp (isTool_of_isGroup hgroup)

/-- Routes are contracted exactly. The walk over the edges gives, without repeats, the pairs of
different layered elements that some route edge joins, each where the first such edge stands; and
no end of an edge that is not a tool is seen as anything but a layered element. -/
theorem routes_contract (d : Diagram α) :
    contraction? d = some (routesAt d) ∧
      (∀ i, i ∈ Checked.layered d (groupTable d) ↔ LayeredAt d i) ∧
      (routesAt d).Nodup ∧
      (∀ i j, (i, j) ∈ routesAt d ↔
        i ≠ j ∧ LayeredAt d i ∧ LayeredAt d j ∧ ∃ e ∈ d.edges, Joins d e (i, j)) ∧
      ((routesAt d).Pairwise fun p q =>
        ∃ k l, IsLeast (joinings d p) k ∧ IsLeast (joinings d q) l ∧ k < l) ∧
      ∀ i n, d.IsFirst i n → n.isTool = false → LayeredAt d (topLevelAt d i) := by
  have hordered : (routesAt d).Pairwise (GivenBefore (routeAt? d) d.edges) := by
    rw [routesAt_eq]
    exact filterMap_eraseDups_pairwise _ _
  refine ⟨contraction?_eq d, fun i => mem_checked_layered, hordered.imp fun h => h.ne,
    fun i j => mem_routesAt, ?_, fun i n => layeredAt_topLevelAt⟩
  refine hordered.imp_of_mem fun hp hq h => ?_
  rwa [GivenBefore, sources_routeAt? hp, sources_routeAt? hq] at h

/-- A step in a group in a group, with routes out of the groups, back into them and among them. The
step is seen as the outer group, and the third edge repeats the pair of the first one. -/
theorem routes_contract_nested :
    let d : Diagram Rat :=
      ⟨[.new "g" .group, { Node.new "h" .group with parent := some "g" },
          { Node.new "a" .step with parent := some "h" }, .new "b" .step],
        [.new "a" "b" .route, .new "h" "a" .route, .new "g" "b" .route, .new "b" "a" .route]⟩
    routesAt d = [(0, 3), (3, 0)] ∧ topLevelAt d 2 = 0 ∧ LayeredAt d 0 ∧
      ∃ k l, IsLeast (joinings d (0, 3)) k ∧ IsLeast (joinings d (3, 0)) l ∧ k < l := by
  intro d
  have hroutes : routesAt d = [(0, 3), (3, 0)] := by decide +kernel
  have htop : topLevelAt d 2 = 0 := by decide +kernel
  have hfirst : d.IsFirst 2 { Node.new "a" .step with parent := some "h" } :=
    first?_eq_some.mp rfl
  obtain ⟨-, -, -, -, hordered, hlayered⟩ := routes_contract d
  rw [hroutes, List.pairwise_pair] at hordered
  exact ⟨hroutes, htop, htop ▸ hlayered 2 _ hfirst rfl, hordered⟩

end Frames

end FlowCanvas
