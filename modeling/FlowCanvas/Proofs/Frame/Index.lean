import Mathlib.Data.List.Range
import FlowCanvas.Proofs.Frame.Cycle

/-! Frames by index. Where the nodes of a diagram are counted, an element is the first node of its
id, and frames give it the index of its group, its outermost group and its depth. A node that
repeats an id is in no group. Links between nodes are kept exactly where they do not come last in
a cycle of links. -/

namespace FlowCanvas

open Relation

variable {α : Type}

namespace Diagram

variable (d : Diagram α) {i j p : Nat} {n g : Node α} {id : String}

def first? (i : Nat) : Option (Node α) :=
  match d.marked[i]? with
  | some (true, n) => some n
  | _ => none

def index? (id : String) : Option Nat := d.nodes.findIdx? (·.id == id)

def IsFirst (i : Nat) (n : Node α) : Prop :=
  d.nodes[i]? = some n ∧ ∀ j m, j < i → d.nodes[j]? = some m → m.id ≠ n.id

theorem mark_getElem? (seen : List String) (ns : List (Node α)) (i : Nat) :
    (mark seen ns)[i]? = some (true, n) ↔
      ns[i]? = some n ∧ n.id ∉ seen ∧ ∀ j m, j < i → ns[j]? = some m → m.id ≠ n.id := by
  induction ns generalizing seen i with
  | nil => simp [mark]
  | cons a ns ih =>
    cases i with
    | zero =>
      simp only [mark, List.getElem?_cons_zero, Option.some.injEq, Prod.mk.injEq,
        Bool.not_eq_true', List.contains_iff_mem, ← Bool.not_eq_true]
      constructor
      · rintro ⟨hseen, rfl⟩
        exact ⟨rfl, hseen, fun j m hj => absurd hj (Nat.not_lt_zero j)⟩
      · rintro ⟨rfl, hseen, -⟩
        exact ⟨hseen, rfl⟩
    | succ i =>
      rw [mark, List.getElem?_cons_succ, List.getElem?_cons_succ, ih]
      constructor
      · rintro ⟨hn, hseen, hbefore⟩
        refine ⟨hn, fun hs => hseen (List.mem_cons_of_mem _ hs), ?_⟩
        intro j m hj hm
        cases j with
        | zero =>
          obtain rfl : a = m := Option.some.inj hm
          exact (List.ne_of_not_mem_cons hseen).symm
        | succ j => exact hbefore j m (Nat.lt_of_succ_lt_succ hj) hm
      · rintro ⟨hn, hseen, hbefore⟩
        refine ⟨hn, ?_, fun j m hj hm => hbefore (j + 1) m (Nat.succ_lt_succ hj) hm⟩
        intro hs
        rcases List.mem_cons.mp hs with hid | hs
        · exact hbefore 0 a (Nat.succ_pos i) rfl hid.symm
        · exact hseen hs

variable {d}

theorem marked_eq_first : d.marked[i]? = some (true, n) ↔ d.IsFirst i n := by
  rw [marked, mark_getElem?]
  simp [IsFirst]

theorem IsFirst.marked (h : d.IsFirst i n) : d.marked[i]? = some (true, n) := marked_eq_first.mpr h

theorem marked_of_node (h : d.nodes[i]? = some n) :
    ∃ first, d.marked[i]? = some (first, n) ∧ (first = true ↔ d.IsFirst i n) := by
  rw [← marked_nodes, List.getElem?_map, Option.map_eq_some_iff] at h
  obtain ⟨⟨first, m⟩, hm, rfl⟩ := h
  refine ⟨first, hm, ?_⟩
  rw [← marked_eq_first, hm]
  simp

theorem first?_eq_some : d.first? i = some n ↔ d.IsFirst i n := by
  rw [← marked_eq_first]
  unfold first?
  split
  · rename_i m hm
    simp [hm]
  · rename_i hnot
    constructor
    · intro h
      cases h
    · intro h
      exact absurd h (hnot n)

theorem index?_eq_some : d.index? id = some i ↔ ∃ n, d.IsFirst i n ∧ n.id = id := by
  rw [index?, List.findIdx?_eq_some_iff_getElem]
  constructor
  · rintro ⟨hi, hid, hbefore⟩
    have hid : d.nodes[i].id = id := by simpa using hid
    refine ⟨d.nodes[i], ⟨List.getElem?_eq_getElem hi, ?_⟩, hid⟩
    intro j m hj hm
    obtain ⟨hjlt, rfl⟩ := List.getElem?_eq_some_iff.mp hm
    rw [hid]
    simpa using hbefore j hj
  · rintro ⟨n, ⟨hn, hbefore⟩, rfl⟩
    obtain ⟨hi, rfl⟩ := List.getElem?_eq_some_iff.mp hn
    refine ⟨hi, by simp, fun j hj => ?_⟩
    have hjlt := Nat.lt_trans hj hi
    simpa using hbefore j d.nodes[j] hj (List.getElem?_eq_getElem hjlt)

theorem IsFirst.index?_eq (h : d.IsFirst i n) : d.index? n.id = some i :=
  index?_eq_some.mpr ⟨n, h, rfl⟩

theorem IsFirst.lt (h : d.IsFirst i n) : i < d.nodes.length :=
  (List.getElem?_eq_some_iff.mp h.1).1

theorem IsFirst.node_unique {m : Node α} (h : d.IsFirst i n) (h' : d.IsFirst i m) : n = m :=
  Option.some.inj (h.1.symm.trans h'.1)

theorem IsFirst.index_unique {m : Node α} (h : d.IsFirst i n) (h' : d.IsFirst j m)
    (hid : n.id = m.id) : i = j :=
  Option.some.inj (h.index?_eq.symm.trans (hid ▸ h'.index?_eq))

theorem elements_eq_filterMap :
    d.elements = (List.range d.nodes.length).filterMap d.first? := by
  have hmarks : ∀ ms : List (Bool × Node α), firsts ms =
      (List.range ms.length).filterMap fun i => match ms[i]? with
        | some (true, n) => some n
        | _ => none := by
    intro ms
    induction ms with
    | nil => rfl
    | cons m ms ih =>
      rw [List.length_cons, List.range_succ_eq_map, List.filterMap_cons, List.filterMap_map]
      obtain ⟨first, n⟩ := m
      cases first with
      | true => exact congrArg (n :: ·) ih
      | false => exact ih
  rw [← marked_length]
  exact hmarks d.marked

theorem mem_elements_iff : n ∈ d.elements ↔ ∃ i, d.IsFirst i n := by
  rw [elements_eq_filterMap, List.mem_filterMap]
  constructor
  · rintro ⟨i, -, hi⟩
    exact ⟨i, first?_eq_some.mp hi⟩
  · rintro ⟨i, hi⟩
    exact ⟨i, List.mem_range.mpr hi.lt, first?_eq_some.mpr hi⟩

theorem IsFirst.mem (h : d.IsFirst i n) : n ∈ d.elements := mem_elements_iff.mpr ⟨i, h⟩

def placeOf (d : Diagram α) (id : String) : Nat := (d.index? id).getD 0

theorem IsFirst.placeOf_eq (h : d.IsFirst i n) : d.placeOf n.id = i := by
  rw [placeOf, h.index?_eq, Option.getD_some]

theorem elements_placed (d : Diagram α) :
    d.elements.Pairwise fun n m => d.placeOf n.id < d.placeOf m.id := by
  rw [elements_eq_filterMap, List.pairwise_filterMap]
  refine List.pairwise_lt_range.imp ?_
  intro i j hij n hn m hm
  rwa [(first?_eq_some.mp hn).placeOf_eq, (first?_eq_some.mp hm).placeOf_eq]

end Diagram

namespace Frames

open Diagram

variable (d : Diagram α) {i j p : Nat} {n g : Node α}

/-- A node asks to be drawn in a group: it is an element and no tool, and the first node with the
id of its parent is a group. -/
def Asks (i p : Nat) : Prop :=
  ∃ n g, d.IsFirst i n ∧ d.IsFirst p g ∧ n.isTool = false ∧ n.parent = some g.id ∧
    g.isGroup = true

def groupAt? (i : Nat) : Option Nat :=
  (d.first? i).bind fun n => ((build d).parent? n.id).bind d.index?

def childrenAt (p : Nat) : List Nat :=
  match d.first? p with
  | some g => ((build d).children g.id).filterMap fun n => d.index? n.id
  | none => []

def topLevelAt (i : Nat) : Nat :=
  ((d.first? i).bind fun n => d.index? ((build d).topLevel n.id)).getD i

def depthAt (i : Nat) : Nat := ((d.first? i).map fun n => (build d).depth n.id).getD 0

variable {d}

theorem asks_iff (hi : d.IsFirst i n) (hp : d.IsFirst p g) :
    Asks d i p ↔ candidate? d.elements n = some g.id := by
  have hfound := (build_wellFormed d).element?_of_mem hp.mem
  rw [candidate?_eq_some]
  constructor
  · rintro ⟨n', g', hi', hp', htool, hparent, hgroup⟩
    obtain rfl := hi.node_unique hi'
    obtain rfl := hp.node_unique hp'
    exact ⟨htool, hparent, g, hfound, hgroup⟩
  · rintro ⟨htool, hparent, m, hm, hgroup⟩
    obtain rfl : g = m := Option.some.inj (hfound.symm.trans hm)
    exact ⟨n, g, hi, hp, htool, hparent, hgroup⟩

theorem names_iff_asks (hi : d.IsFirst i n) (hp : d.IsFirst p g) :
    Names d.elements n.id g.id ↔ Asks d i p := by
  rw [names_iff d.elements_nodup hi.mem, asks_iff hi hp]

theorem asks_unique : Relator.RightUnique (Asks d) := by
  rintro i p q ⟨n, g, hn, hg, -, hgp, -⟩ ⟨n', g', hn', hg', -, hgp', -⟩
  obtain rfl := hn.node_unique hn'
  exact hg.index_unique hg' (Option.some.inj (hgp.symm.trans hgp'))

theorem Asks.lt (h : Asks d i p) : p < d.nodes.length := by
  obtain ⟨-, g, -, hg, -⟩ := h
  exact hg.lt

theorem asks_chain_lt (h : TransGen (Asks d) i j) : j < d.nodes.length := by
  cases h with
  | single h => exact h.lt
  | tail _ h => exact h.lt

theorem names_first {a b : String} (h : Names d.elements a b) :
    ∃ i p n g, d.IsFirst i n ∧ d.IsFirst p g ∧ n.id = a ∧ g.id = b ∧ Asks d i p := by
  obtain ⟨n, hn, rfl, hcand⟩ := id h
  obtain ⟨-, -, g, hg, -⟩ := candidate?_eq_some.mp hcand
  obtain ⟨hgmem, rfl⟩ := (build_wellFormed d).element?_eq_some.mp hg
  obtain ⟨i, hi⟩ := mem_elements_iff.mp hn
  obtain ⟨p, hp⟩ := mem_elements_iff.mp hgmem
  exact ⟨i, p, n, g, hi, hp, rfl, rfl, (names_iff_asks hi hp).mp h⟩

theorem names_chain (hi : d.IsFirst i n) {b : String} (h : TransGen (Names d.elements) n.id b) :
    ∃ j m, d.IsFirst j m ∧ m.id = b ∧ TransGen (Asks d) i j := by
  induction h with
  | single h =>
    obtain ⟨i', p, n', g, hi', hp, hid, hb, hasks⟩ := names_first h
    obtain rfl := hi.index_unique hi' hid.symm
    exact ⟨p, g, hp, hb, .single hasks⟩
  | tail _ h ih =>
    obtain ⟨j, m, hj, hm, hchain⟩ := ih
    obtain ⟨j', p, m', g, hj', hp, hid, hb, hasks⟩ := names_first h
    obtain rfl := hj.index_unique hj' (hm.trans hid.symm)
    exact ⟨p, g, hp, hb, hchain.tail hasks⟩

theorem asks_chain (hi : d.IsFirst i n) (h : TransGen (Asks d) i j) :
    ∃ m, d.IsFirst j m ∧ TransGen (Names d.elements) n.id m.id := by
  induction h with
  | single h =>
    obtain ⟨-, g, -, hg, -⟩ := id h
    exact ⟨g, hg, .single ((names_iff_asks hi hg).mpr h)⟩
  | tail _ h ih =>
    obtain ⟨m, hm, hchain⟩ := ih
    obtain ⟨-, g, -, hg, -⟩ := id h
    exact ⟨g, hg, hchain.tail ((names_iff_asks hm hg).mpr h)⟩

theorem lastOfCycle_iff (hi : d.IsFirst i n) :
    LastOfCycle (Names d.elements) d.placeOf n.id ↔ LastOfCycle (Asks d) (fun i => i) i := by
  constructor
  · rintro ⟨hcycle, hlast⟩
    obtain ⟨j, m, hj, hid, hchain⟩ := names_chain hi hcycle
    obtain rfl := hj.index_unique hi hid
    refine ⟨hchain, fun k hk => ?_⟩
    obtain ⟨g, hg, hnames⟩ := asks_chain hi hk
    have hle := hlast _ hnames
    rwa [hg.placeOf_eq, hi.placeOf_eq] at hle
  · rintro ⟨hcycle, hlast⟩
    obtain ⟨m, hm, hchain⟩ := asks_chain hi hcycle
    obtain rfl := hm.node_unique hi
    refine ⟨hchain, fun b hb => ?_⟩
    obtain ⟨k, g, hg, rfl, hasks⟩ := names_chain hi hb
    rw [hg.placeOf_eq, hi.placeOf_eq]
    exact hlast k hasks

theorem groupAt?_of_first (hi : d.IsFirst i n) :
    groupAt? d i = ((build d).parent? n.id).bind d.index? := by
  rw [groupAt?, first?_eq_some.mpr hi, Option.bind_some]

theorem groupAt?_eq_some_iff (hi : d.IsFirst i n) (hp : d.IsFirst p g) :
    groupAt? d i = some p ↔ (build d).parent? n.id = some g.id := by
  rw [groupAt?_of_first hi, Option.bind_eq_some_iff]
  constructor
  · rintro ⟨id, hid, hindex⟩
    obtain ⟨g', hg', rfl⟩ := index?_eq_some.mp hindex
    rwa [hp.node_unique hg']
  · exact fun h => ⟨g.id, h, hp.index?_eq⟩

theorem groupAt?_firsts (h : groupAt? d i = some p) :
    ∃ n g, d.IsFirst i n ∧ d.IsFirst p g ∧ (build d).parent? n.id = some g.id := by
  obtain ⟨n, hn, hparent⟩ := Option.bind_eq_some_iff.mp h
  obtain ⟨id, hid, hindex⟩ := Option.bind_eq_some_iff.mp hparent
  obtain ⟨g, hg, rfl⟩ := index?_eq_some.mp hindex
  exact ⟨n, g, first?_eq_some.mp hn, hg, hid⟩

theorem groupAt?_exact :
    groupAt? d i = some p ↔ Asks d i p ∧ ¬ LastOfCycle (Asks d) (fun i => i) i := by
  have hfirsts {n g : Node α} (hi : d.IsFirst i n) (hp : d.IsFirst p g) :
      groupAt? d i = some p ↔ Asks d i p ∧ ¬ LastOfCycle (Asks d) (fun i => i) i := by
    rw [groupAt?_eq_some_iff hi hp, parent?_exact d.elements_placed hi.mem, asks_iff hi hp,
      lastOfCycle_iff hi]
  constructor
  · intro h
    obtain ⟨n, g, hi, hp, -⟩ := groupAt?_firsts h
    exact (hfirsts hi hp).mp h
  · intro h
    obtain ⟨n, g, hi, hp, -⟩ := id h.1
    exact (hfirsts hi hp).mpr h

theorem groupAt?_eq_none (h : LastOfCycle (Asks d) (fun i => i) i) : groupAt? d i = none := by
  cases hg : groupAt? d i with
  | none => rfl
  | some p => exact absurd h (groupAt?_exact.mp hg).2

theorem exists_unique_dropped (h : TransGen (Asks d) i i) :
    ∃! j, TransGen (Asks d) i j ∧ groupAt? d j = none := by
  have hbound (k : Nat) (hk : TransGen (Asks d) i k) : k ≤ d.nodes.length := (asks_chain_lt hk).le
  obtain ⟨j, hj, hlast⟩ := exists_last asks_unique h hbound
  refine ⟨j, ⟨hj, groupAt?_eq_none hlast⟩, ?_⟩
  rintro k ⟨hk, hnone⟩
  have hki := leads_back asks_unique h hk
  obtain ⟨p, hkp, -⟩ := TransGen.head'_iff.mp hki
  have hklast : LastOfCycle (Asks d) (fun i => i) k := by
    by_contra hnot
    rw [groupAt?_exact.mpr ⟨hkp, hnot⟩] at hnone
    cases hnone
  have hji := leads_back asks_unique h hj
  exact le_antisymm (hlast.2 k (hji.trans hk)) (hklast.2 j (hki.trans hj))

theorem groupAt?_free (hi : d.IsFirst i n) (h : groupAt? d i = none) :
    (build d).parent? n.id = none := by
  cases hp : (build d).parent? n.id with
  | none => rfl
  | some id =>
    obtain ⟨g, hg, rfl, -⟩ := (build_wellFormed d).parent?_group hp
    obtain ⟨p, hgp⟩ := mem_elements_iff.mp hg
    rw [(groupAt?_eq_some_iff hi hgp).mpr hp] at h
    cases h

theorem depthAt_of_first (hi : d.IsFirst i n) : depthAt d i = (build d).depth n.id := by
  rw [depthAt, first?_eq_some.mpr hi, Option.map_some, Option.getD_some]

theorem depthAt_of_group (h : groupAt? d i = some p) : depthAt d i = depthAt d p + 1 := by
  obtain ⟨n, g, hi, hp, hparent⟩ := groupAt?_firsts h
  rw [depthAt_of_first hi, depthAt_of_first hp]
  exact (build_wellFormed d).depth_of_parent hparent

theorem depthAt_of_free (h : groupAt? d i = none) : depthAt d i = 0 := by
  cases hi : d.first? i with
  | none => rw [depthAt, hi, Option.map_none, Option.getD_none]
  | some n =>
    have hfirst := first?_eq_some.mp hi
    rw [depthAt_of_first hfirst, depth_of_free (groupAt?_free hfirst h)]

theorem outward {P : Nat → Prop} (hfree : ∀ i, groupAt? d i = none → P i)
    (hgroup : ∀ i p, groupAt? d i = some p → P p → P i) (i : Nat) : P i := by
  induction hk : depthAt d i generalizing i with
  | zero =>
    cases hg : groupAt? d i with
    | none => exact hfree i hg
    | some p =>
      rw [depthAt_of_group hg] at hk
      cases hk
  | succ k ih =>
    cases hg : groupAt? d i with
    | none => exact hfree i hg
    | some p =>
      rw [depthAt_of_group hg, Nat.succ.injEq] at hk
      exact hgroup i p hg (ih p hk)

theorem topLevelAt_of_first (hi : d.IsFirst i n) :
    ∃ t, d.IsFirst (topLevelAt d i) t ∧ t.id = (build d).topLevel n.id := by
  suffices ∃ k t, d.IsFirst k t ∧ t.id = (build d).topLevel n.id by
    obtain ⟨k, t, ht, hid⟩ := this
    have htop : topLevelAt d i = k := by
      rw [topLevelAt, first?_eq_some.mpr hi, Option.bind_some, ← hid, ht.index?_eq,
        Option.getD_some]
    exact ⟨t, htop ▸ ht, hid⟩
  induction i using outward (d := d) generalizing n with
  | hfree i hg => exact ⟨i, n, hi, (topLevel_of_free (groupAt?_free hi hg)).symm⟩
  | hgroup i p hg ih =>
    obtain ⟨n', g, hi', hp, hparent⟩ := groupAt?_firsts hg
    obtain rfl := hi.node_unique hi'
    rw [(build_wellFormed d).topLevel_of_parent hparent]
    exact ih hp

theorem topLevelAt_of_group (h : groupAt? d i = some p) : topLevelAt d i = topLevelAt d p := by
  obtain ⟨n, g, hi, hp, hparent⟩ := groupAt?_firsts h
  obtain ⟨t, ht, hid⟩ := topLevelAt_of_first hi
  obtain ⟨u, hu, hgid⟩ := topLevelAt_of_first hp
  rw [(build_wellFormed d).topLevel_of_parent hparent] at hid
  exact ht.index_unique hu (hid.trans hgid.symm)

theorem topLevelAt_of_free (h : groupAt? d i = none) : topLevelAt d i = i := by
  cases hi : d.first? i with
  | none => rw [topLevelAt, hi, Option.bind_none, Option.getD_none]
  | some n =>
    have hfirst := first?_eq_some.mp hi
    rw [topLevelAt, hi, Option.bind_some, topLevel_of_free (groupAt?_free hfirst h),
      hfirst.index?_eq, Option.getD_some]

theorem groupAt?_acyclic (i : Nat) : ¬ TransGen (fun i p => groupAt? d i = some p) i i := by
  have hlt {i j : Nat} (h : TransGen (fun i p => groupAt? d i = some p) i j) :
      depthAt d j < depthAt d i := by
    induction h with
    | single h =>
      rw [depthAt_of_group h]
      exact Nat.lt_succ_self _
    | tail _ h ih =>
      rw [depthAt_of_group h] at ih
      exact Nat.lt_of_succ_lt ih
  exact fun h => Nat.lt_irrefl _ (hlt h)

theorem childrenAt_eq (d : Diagram α) (p : Nat) :
    childrenAt d p = (List.range d.nodes.length).filter fun i => groupAt? d i = some p := by
  cases hp : d.first? p with
  | none =>
    rw [childrenAt, hp, eq_comm, List.filter_eq_nil_iff]
    intro i _ hi
    obtain ⟨-, g, -, hg, -⟩ := groupAt?_firsts (by simpa using hi)
    rw [first?_eq_some.mpr hg] at hp
    cases hp
  | some g =>
    have hg := first?_eq_some.mp hp
    simp only [childrenAt, hp, children]
    rw [show (build d).elements = d.elements from rfl, elements_eq_filterMap, List.filter_filterMap,
      List.filterMap_filterMap, ← List.filterMap_eq_filter]
    apply List.filterMap_congr
    intro i _
    cases hi : d.first? i with
    | none => simp [Option.guard, groupAt?, hi]
    | some n =>
      have hn := first?_eq_some.mp hi
      have hiff := groupAt?_eq_some_iff hn hg
      by_cases hparent : (build d).parent? n.id = some g.id
      · simp [Option.guard, Option.filter, hparent, hiff.mpr hparent, hn.index?_eq]
      · have hnot : ¬ groupAt? d i = some p := fun h => hparent (hiff.mp h)
        simp [Option.guard, Option.filter, hparent, hnot]

/-- Frames resolve parents exactly. A node is in the group it asks for unless it is the last node
of a cycle of such links; so every cycle loses one link and no other link is lost, nothing is above
itself, children are listed in order, and outermost groups and depths go along the links. -/
theorem frames_exact (d : Diagram α) :
    (∀ i p, groupAt? d i = some p ↔ Asks d i p ∧ ¬ LastOfCycle (Asks d) (fun i => i) i) ∧
      (∀ i, TransGen (Asks d) i i → ∃! j, TransGen (Asks d) i j ∧ groupAt? d j = none) ∧
      (∀ i p, Asks d i p → ¬ TransGen (Asks d) i i → groupAt? d i = some p) ∧
      (∀ i, ¬ TransGen (fun i p => groupAt? d i = some p) i i) ∧
      (∀ p, childrenAt d p =
        (List.range d.nodes.length).filter fun i => groupAt? d i = some p) ∧
      (∀ i p, groupAt? d i = some p →
        topLevelAt d i = topLevelAt d p ∧ depthAt d i = depthAt d p + 1) ∧
      ∀ i, groupAt? d i = none → topLevelAt d i = i ∧ depthAt d i = 0 := by
  refine ⟨fun i p => groupAt?_exact, fun i => exists_unique_dropped, ?_, groupAt?_acyclic,
    childrenAt_eq d, ?_, ?_⟩
  · exact fun i p hasks hfree => groupAt?_exact.mpr ⟨hasks, fun hlast => hfree hlast.1⟩
  · exact fun i p h => ⟨topLevelAt_of_group h, depthAt_of_group h⟩
  · exact fun i h => ⟨topLevelAt_of_free h, depthAt_of_free h⟩

end Frames

end FlowCanvas
