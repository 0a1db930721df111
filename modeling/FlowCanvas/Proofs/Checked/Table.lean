import Mathlib.Data.List.Induction
import Mathlib.Data.List.Nodup
import Mathlib.Logic.Function.Basic
import FlowCanvas.Proofs.Association

/-! Checked arrays. A read or a write beyond the end of an array gives nothing, and so does a
difference that would be negative. An array that a run fills is known as the table of a function:
a write changes the function at one index, and so on for a list of writes. -/

namespace FlowCanvas.Checked

variable {β γ σ : Type} {n i : Nat} {f g : Nat → β} {x : β}

def write? (xs : List β) (i : Nat) (x : β) : Option (List β) :=
  if i < xs.length then some (xs.set i x) else none

def modify? (xs : List β) (i : Nat) (change : β → β) : Option (List β) := do
  let x ← xs[i]?
  write? xs i (change x)

def minus? (m n : Nat) : Option Nat := if n ≤ m then some (m - n) else none

def writeAll? (xs : List β) (writes : List (Nat × β)) : Option (List β) :=
  writes.foldlM (fun xs w => write? xs w.1 w.2) xs

def distribute? (buckets : List (List β)) (items : List (Nat × β)) : Option (List (List β)) :=
  items.foldlM (fun buckets it => modify? buckets it.1 (· ++ [it.2])) buckets

def table (n : Nat) (f : Nat → β) : List β := (List.range n).map f

@[simp] theorem table_length (n : Nat) (f : Nat → β) : (table n f).length = n := by
  simp [table]

theorem table_read (h : i < n) : (table n f)[i]? = some (f i) := by
  simp [table, h]

theorem table_read_none (h : ¬ i < n) : (table n f)[i]? = none := by
  simpa [table] using h

theorem table_congr (h : ∀ i < n, f i = g i) : table n f = table n g :=
  List.map_congr_left fun i hi => h i (List.mem_range.mp hi)

theorem table_const (n : Nat) (x : β) : List.replicate n x = table n fun _ => x := by
  simp [table]

theorem table_write (h : i < n) (x : β) :
    write? (table n f) i x = some (table n (Function.update f i x)) := by
  rw [write?, if_pos (by simpa using h)]
  congr 1
  apply List.ext_getElem
  · simp
  · intro j hj _
    by_cases hji : j = i
    · simp [table, hji]
    · simp [table, hji, Ne.symm hji]

theorem table_modify (h : i < n) (change : β → β) :
    modify? (table n f) i change = some (table n (Function.update f i (change (f i)))) := by
  rw [modify?, table_read h]
  exact table_write h _

theorem minus?_eq {m n : Nat} (h : n ≤ m) : minus? m n = some (m - n) := if_pos h

theorem modify?_eq {xs : List β} (h : i < xs.length) (change : β → β) :
    modify? xs i change = some (xs.modify i change) := by
  simp [modify?, write?, h, List.modify_eq_set_getElem?]

theorem zipIdx_filter (p : β → Nat → Bool) (xs : List β) :
    (xs.zipIdx.filter fun x => p x.1 x.2).map (·.2) =
      (List.range xs.length).filter fun i => xs[i]?.any (p · i) := by
  induction xs using List.reverseRecOn with
  | nil => rfl
  | append_singleton xs x ih =>
    have hold : (List.range xs.length).filter (fun i => (xs ++ [x])[i]?.any (p · i)) =
        (List.range xs.length).filter fun i => xs[i]?.any (p · i) := by
      refine List.filter_congr fun i hi => ?_
      rw [List.getElem?_append_left (List.mem_range.mp hi)]
    rw [List.zipIdx_append, List.filter_append, List.map_append, ih, List.length_append,
      List.length_singleton, List.range_succ, List.filter_append, hold]
    congr 1
    by_cases hx : p x xs.length <;> simp [hx]

theorem mapM_some {xs : List β} {f? : β → Option γ} {f : β → γ}
    (h : ∀ x ∈ xs, f? x = some (f x)) : xs.mapM f? = some (xs.map f) := by
  induction xs with
  | nil => rfl
  | cons x xs ih =>
    rw [List.mapM_cons, h x List.mem_cons_self, ih fun y hy => h y (List.mem_cons_of_mem _ hy)]
    rfl

theorem foldlM_run (step? : σ → β → Option σ) (R : List β → σ → Prop) (xs : List β) (s : σ)
    (hstart : R [] s)
    (hstep : ∀ done x rest s, xs = done ++ x :: rest → R done s →
      ∃ s', step? s x = some s' ∧ R (done ++ [x]) s') :
    ∃ s', xs.foldlM step? s = some s' ∧ R xs s' := by
  suffices ∀ done rest s, xs = done ++ rest → R done s →
      ∃ s', rest.foldlM step? s = some s' ∧ R xs s' from this [] xs s rfl hstart
  intro done rest
  induction rest generalizing done with
  | nil =>
    intro s hxs hs
    exact ⟨s, rfl, by simpa [hxs] using hs⟩
  | cons x rest ih =>
    intro s hxs hs
    obtain ⟨s', hs', hR⟩ := hstep done x rest s hxs hs
    obtain ⟨s'', hs'', hend⟩ := ih (done ++ [x]) s' (by simp [hxs]) hR
    refine ⟨s'', ?_, hend⟩
    rw [List.foldlM_cons, hs']
    exact hs''

theorem foldlM_follows {τ : Type} (step? : τ → β → Option τ) (step : σ → β → σ) (image : σ → τ)
    (I : σ → Prop) (xs : List β) (s : σ) (hstart : I s)
    (hstep : ∀ s, ∀ x ∈ xs, I s → step? (image s) x = some (image (step s x)) ∧ I (step s x)) :
    xs.foldlM step? (image s) = some (image (xs.foldl step s)) ∧ I (xs.foldl step s) := by
  induction xs generalizing s with
  | nil => exact ⟨rfl, hstart⟩
  | cons x xs ih =>
    obtain ⟨hs, hI⟩ := hstep s x List.mem_cons_self hstart
    rw [List.foldlM_cons, hs, List.foldl_cons]
    exact ih (step s x) hI fun s y hy => hstep s y (List.mem_cons_of_mem _ hy)

theorem range_split {done rest : List Nat} (h : List.range n = done ++ i :: rest) :
    done = List.range i ∧ i < n := by
  have hlen := congrArg List.length h
  simp only [List.length_range, List.length_append, List.length_cons] at hlen
  have hi : i = done.length := by
    have hget := congrArg (·[done.length]?) h
    simp only [List.getElem?_append_right (Nat.le_refl _), Nat.sub_self,
      List.getElem?_cons_zero] at hget
    rw [List.getElem?_range (by omega)] at hget
    exact (Option.some.inj hget).symm
  refine ⟨?_, by omega⟩
  have htake := congrArg (List.take i) h
  rw [hi, List.take_left, ← hi, List.take_range, Nat.min_eq_left (by omega)] at htake
  exact htake.symm

theorem lookup_update {writes : List (Nat × β)} (hi : i ∉ writes.map (·.1)) (j : Nat) :
    (writes.lookup j).getD (Function.update f i x j) =
      (((i, x) :: writes).lookup j).getD (f j) := by
  by_cases hj : j = i
  · subst hj
    have hnone : (writes ++ []).lookup j = ([] : List (Nat × β)).lookup j :=
      lookup_append_of_not_mem hi
    rw [List.append_nil, List.lookup_nil] at hnone
    simp [hnone]
  · have hne : (j == i) = false := by simpa using hj
    rw [List.lookup_cons, hne, Function.update_of_ne hj]

theorem writeAll?_append (xs : List β) (writes more : List (Nat × β)) :
    writeAll? xs (writes ++ more) = writeAll? xs writes >>= (writeAll? · more) :=
  List.foldlM_append

theorem table_writeAll {writes : List (Nat × β)} (hnodup : (writes.map (·.1)).Nodup)
    (hlt : ∀ w ∈ writes, w.1 < n) : writeAll? (table n f) writes =
      some (table n fun i => (writes.lookup i).getD (f i)) := by
  induction writes generalizing f with
  | nil => rfl
  | cons w writes ih =>
    obtain ⟨hw, hnodup⟩ := List.nodup_cons.mp hnodup
    rw [writeAll?, List.foldlM_cons, table_write (hlt w List.mem_cons_self)]
    refine (ih hnodup fun v hv => hlt v (List.mem_cons_of_mem _ hv)).trans ?_
    congr 1
    exact table_congr fun j _ => lookup_update hw j

theorem lookup_map (change : β → γ) (xs : List (Nat × β)) (i : Nat) :
    (xs.map fun x => (x.1, change x.2)).lookup i = (xs.lookup i).map change := by
  induction xs with
  | nil => rfl
  | cons x xs ih =>
    rw [List.map_cons, List.lookup_cons, List.lookup_cons, ih]
    cases i == x.1 <;> rfl

theorem table_writeAll_lookup {writes : List (Nat × β)} (hnodup : (writes.map (·.1)).Nodup)
    (hlt : ∀ w ∈ writes, w.1 < n) (old : List (Nat × β)) :
    writeAll? (table n (old.lookup ·)) (writes.map fun w => (w.1, some w.2)) =
      some (table n ((writes ++ old).lookup ·)) := by
  have hkeys : (writes.map fun w => (w.1, some w.2)).map (·.1) = writes.map (·.1) := by
    rw [List.map_map]
    rfl
  rw [table_writeAll (hkeys ▸ hnodup)]
  · congr 1
    refine table_congr fun i _ => ?_
    rw [lookup_map, List.lookup_append]
    cases writes.lookup i <;> rfl
  · intro w hw
    obtain ⟨v, hv, rfl⟩ := List.mem_map.mp hw
    exact hlt v hv

theorem table_distribute {f : Nat → List β} {items : List (Nat × β)}
    (hlt : ∀ it ∈ items, it.1 < n) : distribute? (table n f) items =
      some (table n fun key => f key ++ (items.filter (·.1 == key)).map (·.2)) := by
  induction items generalizing f with
  | nil => simp [distribute?]
  | cons it items ih =>
    rw [distribute?, List.foldlM_cons, table_modify (hlt it List.mem_cons_self)]
    refine (ih fun v hv => hlt v (List.mem_cons_of_mem _ hv)).trans ?_
    congr 1
    refine table_congr fun key _ => ?_
    by_cases hkey : it.1 = key
    · simp [hkey]
    · have hne : (it.1 == key) = false := by simpa using hkey
      simp [hne, Function.update_of_ne (Ne.symm hkey)]

end FlowCanvas.Checked
