import FlowCanvas.Proofs.Checked.Tour

/-! The search for back edges on checked arrays. It ends within a turn for every slot and every
edge, has pushed every slot exactly once, and keeps the edges that the search on lists keeps. Sorted
by their sources, and for one source in the order that it has them, they make the graph without back
edges. -/

namespace FlowCanvas

namespace Checked.Adjacency

def turns (a : Adjacency) : Nat := Ranking.total (a.successors.map (·.length + 1))

def search? (a : Adjacency) : Option Tour :=
  (List.range a.size).foldlM (Tour.visit? a a.turns) (Tour.start a.size)

def key? (a : Adjacency) (e : Nat × Nat) : Option (Nat × Nat) := do
  let nexts ← a.successors[e.1]?
  some (e.1, nexts.idxOf e.2)

def before (x y : Nat × Nat) : Bool := x.1 < y.1 || (x.1 == y.1 && x.2 ≤ y.2)

def sorted? (a : Adjacency) (edges : List (Nat × Nat)) : Option (List (Nat × Nat)) := do
  let keyed ← edges.mapM fun e => do
    let key ← a.key? e
    some (key, e)
  some ((keyed.mergeSort fun x y => before x.1 y.1).map (·.2))

def withoutBackEdges? (a : Adjacency) : Option Adjacency := do
  let t ← a.search?
  let kept ← a.sorted? t.kept
  ofEdges? a.size kept

end Checked.Adjacency

open Checked

namespace LayerGraph

variable {g : LayerGraph} {fresh : List Nat} {kept : List (Nat × Nat)} {t : Tour}
  {mark : Nat → Mark}

theorem Follows.drain {turns : Nat} (h : Follows g mark t fresh) (hleft : g.left fresh t ≤ turns) :
    ∃ mark' t' fresh', t.drain? g.adjacency turns = some t' ∧ Follows g mark' t' fresh' ∧
      Later g fresh t fresh' t' ∧ t'.stack = [] ∧ g.left fresh' t' ≤ turns := by
  induction turns generalizing mark t fresh with
  | zero =>
    cases hstack : t.stack with
    | nil => exact ⟨mark, t, fresh, by simp [Tour.drain?, hstack], h, .refl, hstack, hleft⟩
    | cons f rest =>
      -- An open slot has at least the turn left that closes it.
      rw [left, frames, hstack, List.map_cons, frame, work] at hleft
      omega
  | succ turns ih =>
    cases hstack : t.stack with
    | nil => exact ⟨mark, t, fresh, by rw [Tour.drain?, hstack], h, .refl, hstack, hleft⟩
    | cons f rest =>
      obtain ⟨mark₁, t₁, fresh₁, ht₁, h₁, hlater₁, hleft₁⟩ := h.turn hstack
      obtain ⟨mark₂, t₂, fresh₂, ht₂, h₂, hlater₂, hstack₂, hleft₂⟩ := ih h₁ (by omega)
      refine ⟨mark₂, t₂, fresh₂, ?_, h₂, hlater₁.trans hlater₂, hstack₂, by omega⟩
      rw [Tour.drain?, hstack]
      simp [ht₁, ht₂]

theorem left_start (g : LayerGraph) :
    g.left (List.range g.size) (Tour.start g.size) = g.adjacency.turns := by
  have hwork (slots : List Nat) : work (slots.map fun s => (s, g.successors s)) =
      Ranking.total (slots.map fun s => (g.successors s).length + 1) := by
    induction slots with
    | nil => rfl
    | cons s slots ih => simp only [List.map_cons, work, Ranking.total, ih]
  rw [left, hwork, Adjacency.turns, adjacency, table, List.map_map]
  rfl

theorem follows_start (g : LayerGraph) :
    Follows g (fun _ => .fresh) (Tour.start g.size) (List.range g.size) where
  marked := {
    marks := table_const _ _
    fresh := by simp
    opened := by simp [Tour.start]
    pushed_nodup := List.nodup_nil
    pushed_lt := by simp [Tour.start]
    mem_pushed := by simp [Tour.start] }
  search := Search.start g
  kept_nodup := List.nodup_nil
  looked := by simp [Tour.start]

theorem Marked.head {root : Nat} (h : Marked g mark t fresh) (hroot : root ∈ fresh)
    (hbefore : ∀ s < root, s ∉ fresh) :
    ∃ tail, fresh = root :: tail ∧ ∀ s ∈ tail, root < s := by
  have hsorted : fresh.Pairwise (· < ·) := by
    rw [h.fresh]
    exact List.pairwise_lt_range.filter _
  cases fresh with
  | nil => cases hroot
  | cons a tail =>
    have hafter := (List.pairwise_cons.mp hsorted).1
    rcases List.mem_cons.mp hroot with rfl | hmem
    · exact ⟨tail, rfl, hafter⟩
    · exact absurd List.mem_cons_self (hbefore a (hafter root hmem))

theorem Follows.push {root : Nat} {tail : List Nat} (h : Follows g mark t (root :: tail))
    (hstack : t.stack = []) (hroot : root < g.size) :
    ∃ mark' t', t.push? root = some t' ∧ Follows g mark' t' tail ∧
      Later g (root :: tail) t tail t' ∧ g.left tail t' = g.left (root :: tail) t := by
  obtain ⟨t', ht', hmarked, hstack', hkept⟩ :=
    h.marked.push hroot ((h.marked.mem_fresh hroot).mp List.mem_cons_self)
  rw [List.erase_cons_head] at hmarked
  have hframes : g.frames t = [] := by rw [frames, hstack, List.map_nil]
  have hframes' : g.frames t' = [(root, g.successors root)] := by
    rw [frames, hstack', hstack]
    rfl
  have hsearch := h.search
  rw [hframes] at hsearch
  refine ⟨_, t', ht', ⟨hmarked, ?_, hkept ▸ h.kept_nodup, ?_⟩,
    ⟨?_, fun s hs => List.mem_cons_of_mem _ hs⟩, ?_⟩
  · rw [hframes', hkept]
    exact hsearch.root
  · intro u v c hv hc
    rw [hstack', hstack, List.mem_singleton] at hc
    rw [hkept] at hv
    -- No edge of a fresh slot is kept.
    cases hc
    exact absurd List.mem_cons_self (hsearch.kept_met root v hv).1
  · rw [hframes, explore_root, hframes', hkept]
  · rw [left, left, hframes, hframes', List.map_cons]
    simp only [work]
    omega

theorem Follows.visit (h : Follows g mark t fresh) {root turns : Nat} (hstack : t.stack = [])
    (hleft : g.left fresh t ≤ turns) (hbefore : ∀ s < root, s ∉ fresh) (hroot : root < g.size) :
    ∃ mark' t' fresh', t.visit? g.adjacency turns root = some t' ∧ Follows g mark' t' fresh' ∧
      Later g fresh t fresh' t' ∧ t'.stack = [] ∧ g.left fresh' t' ≤ turns ∧ root ∉ fresh' := by
  by_cases hmark : mark root = .fresh
  · -- The slots before the root are not fresh any more, so it is the first one.
    obtain ⟨tail, rfl, hafter⟩ := h.marked.head ((h.marked.mem_fresh hroot).mpr hmark) hbefore
    obtain ⟨mark₁, t₁, ht₁, h₁, hlater₁, hleft₁⟩ := h.push hstack hroot
    obtain ⟨mark₂, t₂, fresh₂, ht₂, h₂, hlater₂, hstack₂, hleft₂⟩ := h₁.drain (hleft₁ ▸ hleft)
    refine ⟨mark₂, t₂, fresh₂, ?_, h₂, hlater₁.trans hlater₂, hstack₂, hleft₂, ?_⟩
    · simp [Tour.visit?, h.marked.read hroot, hmark, ht₁, ht₂]
    · exact fun hm => Nat.lt_irrefl root (hafter root (hlater₂.sub root hm))
  · refine ⟨mark, t, fresh, ?_, h, .refl, hstack, hleft, ?_⟩
    · simp [Tour.visit?, h.marked.read hroot, hmark]
    · rwa [h.marked.mem_fresh hroot]

theorem search?_eq (g : LayerGraph) : ∃ t, g.adjacency.search? = some t ∧ t.kept = g.keptEdges ∧
    t.kept.Nodup ∧ t.pushed.Perm (List.range g.size) := by
  have hrun := foldlM_run (Tour.visit? g.adjacency g.adjacency.turns)
    (fun visited t => ∃ mark fresh, Follows g mark t fresh ∧ t.stack = [] ∧
      Later g (List.range g.size) (Tour.start g.size) fresh t ∧
        g.left fresh t ≤ g.adjacency.turns ∧ ∀ s ∈ visited, s ∉ fresh)
    (List.range g.size) (Tour.start g.size)
    ⟨_, _, follows_start g, rfl, .refl, (left_start g).le, by simp⟩ (by
      rintro visited root rest t hroots ⟨mark, fresh, h, hstack, hlater, hleft, hvisited⟩
      obtain ⟨hvis, hrest⟩ := range_split hroots
      obtain ⟨mark', t', fresh', ht', h', hlater', hstack', hleft', hroot⟩ :=
        h.visit hstack hleft
          (fun s hs => hvisited s (hvis ▸ List.mem_range.mpr hs)) hrest
      refine ⟨t', ht', mark', fresh', h', hstack', hlater.trans hlater', hleft', ?_⟩
      intro s hs
      rcases List.mem_append.mp hs with hs | hs
      · exact fun hm => hvisited s hs (hlater'.sub s hm)
      · rw [List.mem_singleton.mp hs]
        exact hroot)
  obtain ⟨t, ht, mark, fresh, h, hstack, hlater, -, hvisited⟩ := hrun
  have hnone : fresh = [] := by
    rw [List.eq_nil_iff_forall_not_mem]
    intro s hs
    exact hvisited s (hlater.sub s hs) hs
  refine ⟨t, by rw [Adjacency.search?, adjacency_size]; exact ht, ?_, h.kept_nodup, ?_⟩
  · have hsame := hlater.same
    have hframes : g.frames t = [] := by rw [frames, hstack, List.map_nil]
    rw [hnone, hframes, explore] at hsame
    exact hsame.symm
  · rw [List.perm_ext_iff_of_nodup h.marked.pushed_nodup List.nodup_range]
    intro s
    rw [List.mem_range]
    constructor
    · exact h.marked.pushed_lt s
    · intro hs
      rw [h.marked.mem_pushed, Ne, ← h.marked.mem_fresh hs, hnone]
      exact List.not_mem_nil

def key (g : LayerGraph) (e : Nat × Nat) : Nat × Nat := (e.1, (g.successors e.1).idxOf e.2)

theorem key_read {e : Nat × Nat} (h : e ∈ g.edges) : g.adjacency.key? e = some (g.key e) := by
  rw [Adjacency.key?, successors_read (g.valid e h).1]
  rfl

theorem key_inj {e e' : Nat × Nat} (h : e ∈ g.edges) (hkey : g.key e = g.key e') : e = e' := by
  obtain ⟨s, t⟩ := e
  obtain ⟨s', t'⟩ := e'
  obtain rfl : s = s' := congrArg Prod.fst hkey
  have hidx : (g.successors s).idxOf t = (g.successors s).idxOf t' := congrArg Prod.snd hkey
  rw [(List.idxOf_inj (mem_successors.mpr h)).mp hidx]

theorem before_trans {x y z : Nat × Nat} (h : Adjacency.before x y = true)
    (h' : Adjacency.before y z = true) : Adjacency.before x z = true := by
  simp only [Adjacency.before, Bool.or_eq_true, decide_eq_true_eq, Bool.and_eq_true,
    beq_iff_eq] at h h' ⊢
  omega

theorem before_total (x y : Nat × Nat) :
    (Adjacency.before x y || Adjacency.before y x) = true := by
  simp only [Adjacency.before, Bool.or_eq_true, decide_eq_true_eq, Bool.and_eq_true, beq_iff_eq]
  omega

theorem before_antisymm {x y : Nat × Nat} (h : Adjacency.before x y = true)
    (h' : Adjacency.before y x = true) : x = y := by
  simp only [Adjacency.before, Bool.or_eq_true, decide_eq_true_eq, Bool.and_eq_true,
    beq_iff_eq] at h h'
  exact Prod.ext (by omega) (by omega)

def keptInOrder (g : LayerGraph) : List (Nat × Nat) :=
  (List.range g.size).flatMap fun s =>
    ((g.successors s).map fun t => (s, t)).filter g.keptEdges.contains

theorem mem_keptInOrder {e : Nat × Nat} : e ∈ g.keptInOrder ↔ e ∈ g.keptEdges := by
  simp only [keptInOrder, List.mem_flatMap, List.mem_range, List.mem_filter, List.mem_map,
    List.contains_iff_mem]
  constructor
  · rintro ⟨-, -, -, hk⟩
    exact hk
  · intro hk
    have he := g.keptEdges_search.kept_old e hk
    exact ⟨e.1, (g.valid e he).1, ⟨e.2, mem_successors.mpr he, rfl⟩, hk⟩

theorem keptInOrder_sorted (g : LayerGraph) :
    g.keptInOrder.Pairwise fun e e' => Adjacency.before (g.key e) (g.key e') = true := by
  rw [keptInOrder, List.pairwise_flatMap]
  constructor
  · intro s _
    refine List.Pairwise.filter _ (List.pairwise_map.mpr (List.pairwise_iff_getElem.mpr ?_))
    intro i j hi hj hij
    have hnodup := g.successors_nodup s
    simp only [key, hnodup.idxOf_getElem]
    simp [Adjacency.before, hij.le]
  · refine List.pairwise_lt_range.imp ?_
    intro s s' hs e he e' he'
    have hsource {s : Nat} {e : Nat × Nat} (he : e ∈ ((g.successors s).map fun t =>
        (s, t)).filter g.keptEdges.contains) : e.1 = s := by
      obtain ⟨t, -, rfl⟩ := List.mem_map.mp (List.mem_of_mem_filter he)
      rfl
    simp [Adjacency.before, key, hsource he, hsource he', hs]

theorem keptInOrder_nodup (g : LayerGraph) : g.keptInOrder.Nodup := by
  rw [keptInOrder, List.nodup_flatMap]
  constructor
  · intro s _
    exact ((g.successors_nodup s).map fun a b hab => (Prod.mk.inj hab).2).filter _
  · refine List.nodup_range.imp ?_
    intro s s' hs e he he'
    obtain ⟨t, -, rfl⟩ := List.mem_map.mp (List.mem_of_mem_filter he)
    obtain ⟨t', -, ht'⟩ := List.mem_map.mp (List.mem_of_mem_filter he')
    exact hs (Prod.mk.inj ht').1.symm

theorem sorted?_eq (hnodup : kept.Nodup) (hmem : ∀ e, e ∈ kept ↔ e ∈ g.keptEdges) :
    g.adjacency.sorted? kept = some g.keptInOrder := by
  have hedge (e : Nat × Nat) (he : e ∈ kept) : e ∈ g.edges :=
    g.keptEdges_search.kept_old e ((hmem e).mp he)
  have hkeyed : (kept.mapM fun e => do
      let key ← g.adjacency.key? e
      some (key, e)) = some (kept.map fun e => (g.key e, e)) := by
    refine mapM_some fun e he => ?_
    rw [key_read (hedge e he)]
    rfl
  have hsort : (kept.map fun e => (g.key e, e)).mergeSort (fun x y => Adjacency.before x.1 y.1) =
      (kept.mergeSort fun e e' => Adjacency.before (g.key e) (g.key e')).map
        fun e => (g.key e, e) :=
    (List.map_mergeSort (s := fun x y => Adjacency.before x.1 y.1) (f := fun e => (g.key e, e))
      fun _ _ _ _ => rfl).symm
  rw [Adjacency.sorted?, hkeyed, Option.bind_eq_bind, Option.bind_some, hsort, List.map_map]
  congr 1
  rw [show (Prod.snd ∘ fun e => (g.key e, e)) = id from rfl, List.map_id]
  have hpairwise : (kept.mergeSort fun e e' => Adjacency.before (g.key e) (g.key e')).Pairwise
      fun e e' => Adjacency.before (g.key e) (g.key e') = true := by
    apply List.pairwise_mergeSort
    · exact fun _ _ _ => before_trans
    · exact fun e e' => before_total (g.key e) (g.key e')
  -- Different edges have different keys, so there is one order by keys only.
  refine List.Perm.eq_of_pairwise ?_ hpairwise g.keptInOrder_sorted ?_
  · intro e e' he _ h h'
    exact key_inj (hedge e (List.mem_mergeSort.mp he)) (before_antisymm h h')
  · refine (List.mergeSort_perm kept _).trans ?_
    rw [List.perm_ext_iff_of_nodup hnodup g.keptInOrder_nodup]
    exact fun e => (hmem e).trans mem_keptInOrder.symm

theorem withoutBackEdges?_eq (g : LayerGraph) :
    g.adjacency.withoutBackEdges? = some g.withoutBackEdges.adjacency := by
  obtain ⟨t, ht, hkept, hnodup, -⟩ := g.search?_eq
  have hsorted : g.adjacency.sorted? t.kept = some g.keptInOrder :=
    sorted?_eq hnodup fun e => by rw [hkept]
  rw [Adjacency.withoutBackEdges?, ht, Option.bind_eq_bind, Option.bind_some, hsorted,
    Option.bind_eq_bind, Option.bind_some, adjacency_size, ofEdges?_adjacency]
  rfl

end LayerGraph

end FlowCanvas
