import FlowCanvas.Proofs.Checked.Adjacency
import FlowCanvas.Proofs.Layer.BackEdge
import FlowCanvas.Proofs.Layer.LongestPath

/-! A depth-first search on checked arrays. Every slot has a mark, and the stack holds the open
slots with the number of successors that each has looked at. A turn of the loop goes on as the
search on lists does, and takes one from the work that is left: one for every slot and one for every
edge that is not looked at. -/

namespace FlowCanvas

namespace Checked

inductive Mark
  | fresh
  | opened
  | done
  deriving DecidableEq

/-- A search: the mark of every slot, the open slots with their cursors, the kept edges, and the
slots that were pushed, each list with the latest entry first. -/
structure Tour where
  marks : List Mark
  stack : List (Nat × Nat)
  kept : List (Nat × Nat)
  pushed : List Nat

namespace Tour

def start (slots : Nat) : Tour := ⟨List.replicate slots .fresh, [], [], []⟩

def push? (t : Tour) (slot : Nat) : Option Tour := do
  let marks ← write? t.marks slot .opened
  some { t with
    marks := marks
    stack := (slot, 0) :: t.stack
    pushed := slot :: t.pushed }

def pop? (t : Tour) (slot : Nat) (rest : List (Nat × Nat)) : Option Tour := do
  let marks ← write? t.marks slot .done
  some { t with
    marks := marks
    stack := rest }

def look? (t : Tour) (slot next : Nat) : Option Tour := do
  let mark ← t.marks[next]?
  match mark with
  | .opened => some t
  | .done => some { t with kept := (slot, next) :: t.kept }
  | .fresh => push? { t with kept := (slot, next) :: t.kept } next

def turn? (a : Adjacency) (t : Tour) (slot cursor : Nat) (rest : List (Nat × Nat)) :
    Option Tour := do
  let nexts ← a.successors[slot]?
  match nexts[cursor]? with
  | none => t.pop? slot rest
  | some next => look? { t with stack := (slot, cursor + 1) :: rest } slot next

def drain? (a : Adjacency) : Nat → Tour → Option Tour
  | 0, t => if t.stack.isEmpty then some t else none
  | turns + 1, t =>
    match t.stack with
    | [] => some t
    | (slot, cursor) :: rest => do
      let t ← t.turn? a slot cursor rest
      drain? a turns t

def visit? (a : Adjacency) (turns : Nat) (t : Tour) (root : Nat) : Option Tour := do
  let mark ← t.marks[root]?
  if mark = .fresh then do
    let t ← t.push? root
    t.drain? a turns
  else some t

end Tour

end Checked

open Checked

namespace LayerGraph

variable {g : LayerGraph} {fresh : List Nat} {stack : List (Nat × List Nat)}
  {kept : List (Nat × Nat)} {t : Tour} {mark : Nat → Mark} {slot cursor : Nat}
  {rest : List (Nat × Nat)}

theorem explore_root (root : Nat) : g.explore (root :: fresh) [] kept =
    g.explore fresh [(root, g.successors root)] kept := by
  rw [explore]

theorem explore_close : g.explore fresh ((slot, []) :: stack) kept =
    g.explore fresh stack kept := by
  rw [explore]

theorem explore_next (next : Nat) (ts : List Nat) :
    g.explore fresh ((slot, next :: ts) :: stack) kept =
      if next ∈ fresh then
        g.explore (fresh.erase next) ((next, g.successors next) :: (slot, ts) :: stack)
          ((slot, next) :: kept)
      else if isOpen ((slot, ts) :: stack) next then g.explore fresh ((slot, ts) :: stack) kept
      else g.explore fresh ((slot, ts) :: stack) ((slot, next) :: kept) := by
  rw [explore]

def frame (g : LayerGraph) (f : Nat × Nat) : Nat × List Nat := (f.1, (g.successors f.1).drop f.2)

def frames (g : LayerGraph) (t : Tour) : List (Nat × List Nat) := t.stack.map g.frame

def left (g : LayerGraph) (fresh : List Nat) (t : Tour) : Nat :=
  work (fresh.map fun s => (s, g.successors s)) + work (g.frames t)

theorem work_frames_erase {s : Nat} (h : s ∈ fresh) :
    work ((fresh.erase s).map fun s => (s, g.successors s)) + (g.successors s).length + 1 =
      work (fresh.map fun s => (s, g.successors s)) := by
  induction fresh with
  | nil => cases h
  | cons a fresh ih =>
    by_cases ha : a = s
    · subst ha
      simp only [List.erase_cons_head, List.map_cons, work]
      omega
    · have hrest := ih ((List.mem_cons.mp h).resolve_left (Ne.symm ha))
      rw [List.erase_cons_tail (by simpa using ha)]
      simp only [List.map_cons, work]
      omega

theorem opened_frames : opened (g.frames t) = t.stack.map (·.1) := by
  simp [opened, frames, frame]

structure Marked (g : LayerGraph) (mark : Nat → Mark) (t : Tour) (fresh : List Nat) : Prop where
  marks : t.marks = table g.size mark
  fresh : fresh = (List.range g.size).filter fun s => mark s = .fresh
  opened : ∀ s, mark s = .opened ↔ s ∈ t.stack.map (·.1)
  pushed_nodup : t.pushed.Nodup
  pushed_lt : ∀ s ∈ t.pushed, s < g.size
  mem_pushed : ∀ s, s ∈ t.pushed ↔ mark s ≠ .fresh

namespace Marked

variable (h : Marked g mark t fresh)

include h

theorem mem_fresh {s : Nat} (hs : s < g.size) : s ∈ fresh ↔ mark s = .fresh := by
  rw [h.fresh, List.mem_filter, List.mem_range]
  simp [hs]

theorem read {s : Nat} (hs : s < g.size) : t.marks[s]? = some (mark s) := by
  rw [h.marks, table_read hs]

theorem stack_lt {s : Nat} (hs : s ∈ t.stack.map (·.1)) : s < g.size := by
  refine h.pushed_lt s ((h.mem_pushed s).mpr ?_)
  rw [(h.opened s).mpr hs]
  decide

theorem move {stack : List (Nat × Nat)} (hslots : stack.map (·.1) = t.stack.map (·.1))
    (kept : List (Nat × Nat)) : Marked g mark { t with stack := stack, kept := kept } fresh where
  marks := h.marks
  fresh := h.fresh
  opened := fun s => by rw [hslots]; exact h.opened s
  pushed_nodup := h.pushed_nodup
  pushed_lt := h.pushed_lt
  mem_pushed := h.mem_pushed

theorem push (hslot : slot < g.size) (hmark : mark slot = .fresh) :
    ∃ t', t.push? slot = some t' ∧
      Marked g (Function.update mark slot .opened) t' (fresh.erase slot) ∧
        t'.stack = (slot, 0) :: t.stack ∧ t'.kept = t.kept := by
  have hnew : slot ∉ t.pushed := fun hm => (h.mem_pushed slot).mp hm hmark
  refine ⟨⟨table g.size (Function.update mark slot .opened), (slot, 0) :: t.stack, t.kept,
    slot :: t.pushed⟩, by rw [Tour.push?, h.marks, table_write hslot]; rfl, ?_, rfl, rfl⟩
  exact {
    marks := rfl
    fresh := by
      rw [h.fresh, (List.nodup_range.filter _).erase_eq_filter, List.filter_filter]
      refine List.filter_congr fun s _ => ?_
      by_cases hs : s = slot <;> simp [hs]
    opened := by
      intro s
      by_cases hs : s = slot
      · simp [hs]
      · simpa [hs] using h.opened s
    pushed_nodup := List.nodup_cons.mpr ⟨hnew, h.pushed_nodup⟩
    pushed_lt := by
      intro s hs
      rcases List.mem_cons.mp hs with rfl | hs
      · exact hslot
      · exact h.pushed_lt s hs
    mem_pushed := by
      intro s
      by_cases hs : s = slot
      · simp [hs]
      · simpa [hs] using h.mem_pushed s }

theorem pop (hstack : t.stack = (slot, cursor) :: rest) (hrest : slot ∉ rest.map (·.1)) :
    ∃ t', t.pop? slot rest = some t' ∧ Marked g (Function.update mark slot .done) t' fresh ∧
      t'.stack = rest ∧ t'.kept = t.kept := by
  have hslot : slot < g.size := h.stack_lt (by simp [hstack])
  have hmark : mark slot = .opened := (h.opened slot).mpr (by simp [hstack])
  refine ⟨⟨table g.size (Function.update mark slot .done), rest, t.kept, t.pushed⟩,
    by rw [Tour.pop?, h.marks, table_write hslot]; rfl, ?_, rfl, rfl⟩
  exact {
    marks := rfl
    fresh := by
      rw [h.fresh]
      refine List.filter_congr fun s _ => ?_
      by_cases hs : s = slot <;> simp [hs, hmark]
    opened := by
      intro s
      by_cases hs : s = slot
      · simpa [hs] using hrest
      · simpa [hs, hstack] using h.opened s
    pushed_nodup := h.pushed_nodup
    pushed_lt := h.pushed_lt
    mem_pushed := by
      intro s
      by_cases hs : s = slot
      · simp [hs, h.mem_pushed, hmark]
      · simpa [hs] using h.mem_pushed s }

end Marked

/-- A search on arrays stands where a search on slots stands, and no edge is kept twice, since the
kept edges of an open slot are before its cursor. -/
structure Follows (g : LayerGraph) (mark : Nat → Mark) (t : Tour) (fresh : List Nat) : Prop where
  marked : Marked g mark t fresh
  search : Search g fresh (g.frames t) t.kept
  kept_nodup : t.kept.Nodup
  looked : ∀ u v c, (u, v) ∈ t.kept → (u, c) ∈ t.stack → v ∉ (g.successors u).drop c

structure Later (g : LayerGraph) (fresh : List Nat) (t : Tour) (fresh' : List Nat) (t' : Tour) :
    Prop where
  same : g.explore fresh (g.frames t) t.kept = g.explore fresh' (g.frames t') t'.kept
  sub : ∀ s ∈ fresh', s ∈ fresh

theorem Later.refl : Later g fresh t fresh t := ⟨rfl, fun _ hs => hs⟩

theorem Later.trans {fresh' fresh'' : List Nat} {t' t'' : Tour} (h : Later g fresh t fresh' t')
    (h' : Later g fresh' t' fresh'' t'') : Later g fresh t fresh'' t'' :=
  ⟨h.same.trans h'.same, fun s hs => h.sub s (h'.sub s hs)⟩

def Turns (g : LayerGraph) (fresh : List Nat) (t : Tour) (next? : Option Tour) : Prop :=
  ∃ mark' t' fresh', next? = some t' ∧ Follows g mark' t' fresh' ∧ Later g fresh t fresh' t' ∧
    g.left fresh' t' + 1 = g.left fresh t

namespace Follows

variable (h : Follows g mark t fresh) (hstack : t.stack = (slot, cursor) :: rest)

include h hstack

omit h in
theorem frames_eq : g.frames t = (slot, (g.successors slot).drop cursor) :: rest.map g.frame := by
  rw [frames, hstack]
  rfl

theorem slot_lt : slot < g.size := h.marked.stack_lt (by simp [hstack])

theorem pop (hend : (g.successors slot)[cursor]? = none) :
    Turns g fresh t (t.turn? g.adjacency slot cursor rest) := by
  have hdrop : (g.successors slot).drop cursor = [] :=
    List.drop_eq_nil_iff.mpr (List.getElem?_eq_none_iff.mp hend)
  have hframes : g.frames t = (slot, []) :: rest.map g.frame := by
    rw [frames_eq hstack, hdrop]
  have hsearch := h.search
  rw [hframes] at hsearch
  -- No slot is on the stack twice, so this one is no longer open.
  have hrest : slot ∉ rest.map (·.1) := by
    have hnodup := h.search.opened_nodup
    rw [opened_frames, hstack, List.map_cons, List.nodup_cons] at hnodup
    exact hnodup.1
  obtain ⟨t', ht', hmarked, hstack', hkept⟩ := h.marked.pop hstack hrest
  have hframes' : g.frames t' = rest.map g.frame := by rw [frames, hstack']
  refine ⟨_, t', fresh, ?_, ⟨hmarked, ?_, ?_, ?_⟩, ⟨?_, fun s hs => hs⟩, ?_⟩
  · rw [Tour.turn?, successors_read (h.slot_lt hstack)]
    simpa [hend] using ht'
  · rw [hframes', hkept]
    exact hsearch.close
  · rw [hkept]
    exact h.kept_nodup
  · intro u v c hv hc
    rw [hkept] at hv
    exact h.looked u v c hv (by rw [hstack]; exact List.mem_cons_of_mem _ (hstack' ▸ hc))
  · rw [hframes, explore_close, hframes', hkept]
  · rw [left, left, hframes, hframes', work, List.length_nil]
    omega

section Next

variable {next : Nat} (hnext : (g.successors slot)[cursor]? = some next)

include hnext

omit h hstack in
theorem drop_eq : (g.successors slot).drop cursor =
    next :: (g.successors slot).drop (cursor + 1) := by
  obtain ⟨hlt, rfl⟩ := List.getElem?_eq_some_iff.mp hnext
  exact List.drop_eq_getElem_cons hlt

theorem not_kept : (slot, next) ∉ t.kept := by
  intro hm
  refine h.looked slot next cursor hm (by rw [hstack]; exact List.mem_cons_self) ?_
  rw [drop_eq hnext]
  exact List.mem_cons_self

theorem looked_cons (kept : List (Nat × Nat))
    (hkept : kept = t.kept ∨ kept = (slot, next) :: t.kept) (u v c : Nat)
    (hv : (u, v) ∈ kept) (hc : (u, c) ∈ (slot, cursor + 1) :: rest) :
    v ∉ (g.successors u).drop c := by
  have hnodup := h.search.opened_nodup
  rw [opened_frames, hstack, List.map_cons, List.nodup_cons] at hnodup
  have hold (he : (u, v) ∈ t.kept) : v ∉ (g.successors u).drop c := by
    rcases List.mem_cons.mp hc with hc | hc
    · cases hc
      intro hm
      refine h.looked slot v cursor he (by rw [hstack]; exact List.mem_cons_self) ?_
      rw [drop_eq hnext]
      exact List.mem_cons_of_mem _ hm
    · exact h.looked u v c he (by rw [hstack]; exact List.mem_cons_of_mem _ hc)
  rcases hkept with rfl | rfl
  · exact hold hv
  · rcases List.mem_cons.mp hv with he | he
    · -- The edge that is kept now is the one under the cursor, which occurs once.
      cases he
      rcases List.mem_cons.mp hc with hc | hc
      · cases hc
        have hsuccs := (g.successors_nodup slot).sublist (List.drop_sublist cursor _)
        rw [drop_eq hnext] at hsuccs
        exact (List.nodup_cons.mp hsuccs).1
      · exact absurd (List.mem_map_of_mem hc) hnodup.1
    · exact hold he

omit h hstack in
theorem next_lt : next < g.size := successor_lt (List.mem_of_getElem? hnext)

omit h in
theorem frames_next : g.frames t =
    (slot, next :: (g.successors slot).drop (cursor + 1)) :: rest.map g.frame := by
  rw [frames_eq hstack, drop_eq hnext]

theorem search_next : Search g fresh
    ((slot, next :: (g.successors slot).drop (cursor + 1)) :: rest.map g.frame) t.kept := by
  rw [← frames_next hstack hnext]
  exact h.search

theorem turn_eq : t.turn? g.adjacency slot cursor rest =
    Tour.look? { t with stack := (slot, cursor + 1) :: rest } slot next := by
  rw [Tour.turn?, successors_read (h.slot_lt hstack), Option.bind_eq_bind, Option.bind_some, hnext]

theorem isOpen_next : isOpen ((slot, (g.successors slot).drop (cursor + 1)) :: rest.map g.frame)
    next = true ↔ mark next = .opened := by
  rw [isOpen_iff, h.marked.opened next, ← opened_frames, frames_next hstack hnext]
  rfl

omit h in
theorem left_next (kept : List (Nat × Nat)) :
    g.left fresh { t with stack := (slot, cursor + 1) :: rest, kept := kept } + 1 =
      g.left fresh t := by
  rw [left, left, frames_next hstack hnext]
  simp only [frames, List.map_cons, frame, work, List.length_cons]
  omega

theorem skip (hmark : mark next = .opened) :
    Turns g fresh t (t.turn? g.adjacency slot cursor rest) := by
  have hfresh : next ∉ fresh := by
    rw [h.marked.mem_fresh (next_lt hnext), hmark]
    decide
  have hopen := (h.isOpen_next hstack hnext).mpr hmark
  refine ⟨mark, { t with stack := (slot, cursor + 1) :: rest }, fresh, ?_, ⟨?_, ?_, ?_, ?_⟩,
    ⟨?_, fun s hs => hs⟩, left_next hstack hnext t.kept⟩
  · rw [h.turn_eq hstack hnext]
    simp [Tour.look?, h.marked.read (next_lt hnext), hmark]
  · exact h.marked.move (by simp [hstack]) t.kept
  · exact (h.search_next hstack hnext).skip (isOpen_iff.mp hopen)
  · exact h.kept_nodup
  · exact h.looked_cons hstack hnext t.kept (.inl rfl)
  · rw [frames_next hstack hnext, explore_next, if_neg hfresh, if_pos hopen]
    rfl

theorem keep (hmark : mark next = .done) :
    Turns g fresh t (t.turn? g.adjacency slot cursor rest) := by
  have hfresh : next ∉ fresh := by
    rw [h.marked.mem_fresh (next_lt hnext), hmark]
    decide
  have hopen : ¬ isOpen ((slot, (g.successors slot).drop (cursor + 1)) :: rest.map g.frame)
      next = true := by
    rw [h.isOpen_next hstack hnext, hmark]
    decide
  refine ⟨mark, { t with
      stack := (slot, cursor + 1) :: rest
      kept := (slot, next) :: t.kept }, fresh, ?_, ⟨?_, ?_, ?_, ?_⟩, ⟨?_, fun s hs => hs⟩,
    left_next hstack hnext _⟩
  · rw [h.turn_eq hstack hnext]
    simp [Tour.look?, h.marked.read (next_lt hnext), hmark]
  · exact h.marked.move (by simp [hstack]) _
  · exact (h.search_next hstack hnext).keep hfresh fun hm => hopen (isOpen_iff.mpr hm)
  · exact List.nodup_cons.mpr ⟨h.not_kept hstack hnext, h.kept_nodup⟩
  · exact h.looked_cons hstack hnext _ (.inr rfl)
  · rw [frames_next hstack hnext, explore_next, if_neg hfresh, if_neg hopen]
    rfl

theorem descend (hmark : mark next = .fresh) :
    Turns g fresh t (t.turn? g.adjacency slot cursor rest) := by
  have hfresh : next ∈ fresh := (h.marked.mem_fresh (next_lt hnext)).mpr hmark
  have hmoved : Marked g mark { t with
      stack := (slot, cursor + 1) :: rest
      kept := (slot, next) :: t.kept } fresh :=
    h.marked.move (by simp [hstack]) _
  obtain ⟨t', ht', hmarked, hstack', hkept⟩ := hmoved.push (next_lt hnext) hmark
  have hframes' : g.frames t' = (next, g.successors next) ::
      (slot, (g.successors slot).drop (cursor + 1)) :: rest.map g.frame := by
    rw [frames, hstack']
    rfl
  refine ⟨_, t', _, ?_, ⟨hmarked, ?_, ?_, ?_⟩, ⟨?_, fun s hs => List.mem_of_mem_erase hs⟩, ?_⟩
  · rw [h.turn_eq hstack hnext]
    simp [Tour.look?, h.marked.read (next_lt hnext), hmark, ht']
  · rw [hframes', hkept]
    exact (h.search_next hstack hnext).descend hfresh
  · rw [hkept]
    exact List.nodup_cons.mpr ⟨h.not_kept hstack hnext, h.kept_nodup⟩
  · intro u v c hv hc
    rw [hkept] at hv
    rw [hstack'] at hc
    rcases List.mem_cons.mp hc with hc | hc
    · -- No edge of a fresh slot is kept.
      cases hc
      rcases List.mem_cons.mp hv with hv | hv
      · cases hv
        exact absurd hfresh (h.search.opened_met slot (by simp [opened_frames, hstack]))
      · exact absurd hfresh (h.search.kept_met next v hv).1
    · exact h.looked_cons hstack hnext _ (.inr rfl) u v c hv hc
  · rw [frames_next hstack hnext, explore_next, if_pos hfresh, hframes', hkept]
  · rw [left, left, frames_next hstack hnext, hframes',
      ← work_frames_erase hfresh]
    simp only [work, List.length_cons]
    omega

end Next

theorem turn : Turns g fresh t (t.turn? g.adjacency slot cursor rest) := by
  cases hnext : (g.successors slot)[cursor]? with
  | none => exact h.pop hstack hnext
  | some next =>
    cases hmark : mark next with
    | fresh => exact h.descend hstack hnext hmark
    | opened => exact h.skip hstack hnext hmark
    | done => exact h.keep hstack hnext hmark

end Follows

end LayerGraph

end FlowCanvas
