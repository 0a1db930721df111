import FlowCanvas.Sort.Run

/-!
Stable sorting, last part: partition around a pivot for long runs that are not sorted, and the sort
of a whole list. Up to twenty items are sorted by insertion.
-/

namespace FlowCanvas.Sort

variable {β : Type} (less : β → β → Bool)

def median (xs : Array β) (i j k : Nat) : Nat :=
  let before (i j : Nat) : Bool :=
    match xs[i]?, xs[j]? with
    | some x, some y => less x y
    | _, _ => false
  let x := before i j
  if x == before i k then if before j k != x then k else j else i

def spreadMedian (xs : Array β) (n i j k : Nat) : Nat :=
  if 8 ≤ n then
    let m := n / 8
    median less xs (spreadMedian xs m i (i + 4 * m) (i + 7 * m))
      (spreadMedian xs m j (j + 4 * m) (j + 7 * m)) (spreadMedian xs m k (k + 4 * m) (k + 7 * m))
  else median less xs i j k
termination_by n

def pivotPlace (xs : List β) : Nat :=
  let n := xs.length / 8
  spreadMedian less xs.toArray n 0 (4 * n) (7 * n)

/-- Partitions at most `limit` times. Nothing in the list is less than `bound`; if the pivot is not
greater, its equals are set apart. -/
def quick? : Nat → Option β → List β → Option (List β)
  | 0, _, xs => if xs.length ≤ 32 then small? less xs else byRuns? less (small? less) true xs
  | limit + 1, bound, xs =>
    if xs.length ≤ 32 then small? less xs
    else
      let before := xs.take (pivotPlace less xs)
      match xs.drop (pivotPlace less xs) with
      | [] => some before
      | pivot :: after =>
        let low := before.filter (less · pivot) ++ after.filter (less · pivot)
        if bound.any (fun b => !less b pivot) || low.isEmpty then
          (quick? limit none (before.filter (less pivot) ++ after.filter (less pivot))).map
            (before.filter (fun x => !less pivot x) ++
              pivot :: after.filter (fun x => !less pivot x) ++ ·)
        else do
          let high ← quick? limit (some pivot) (before.filter (fun x => !less x pivot) ++
            pivot :: after.filter fun x => !less x pivot)
          let low ← quick? limit bound low
          return low ++ high

/-- Sorts a list; items of which none is less than the other keep their order. More than twenty
items have no outcome where the comparison is seen not to be an order. -/
def stable? (xs : List β) : Option (List β) :=
  if xs.length ≤ 20 then some (insertAll less [] xs)
  else byRuns? less (fun ys => quick? less (2 * ys.length.log2) none ys) (xs.length ≤ 64) xs

theorem filters_perm (p : β → Bool) (before after : List β) (x : β) :
    (before.filter p ++ after.filter p ++
      (before.filter (fun y => !p y) ++ x :: after.filter fun y => !p y)).Perm
        (before ++ x :: after) := by
  classical
  have hb := List.filter_append_perm p before
  have ha := List.filter_append_perm p after
  rw [List.perm_iff_count]
  intro a
  have hb := hb.count_eq a
  have ha := ha.count_eq a
  simp only [List.count_append, List.count_cons] at hb ha ⊢
  omega

variable {less}

theorem quick?_perm {limit : Nat} {bound : Option β} {xs ys : List β}
    (h : quick? less limit bound xs = some ys) : ys.Perm xs := by
  induction limit generalizing bound xs ys with
  | zero =>
    unfold quick? at h
    split at h
    · exact small?_perm less h
    · exact byRuns?_perm (small?_perm less) h
  | succ limit ih =>
    unfold quick? at h
    split at h
    · exact small?_perm less h
    · have hx := List.take_append_drop (pivotPlace less xs) xs
      dsimp only at h
      split at h
      · rename_i hd
        rw [hd, List.append_nil] at hx
        cases h
        rw [hx]
      · rename_i pivot after hd
        rw [hd] at hx
        conv => rhs; rw [← hx]
        generalize xs.take (pivotPlace less xs) = before at h ⊢
        split at h
        · obtain ⟨zs, hz, rfl⟩ := Option.map_eq_some_iff.mp h
          refine ((ih hz).append_left _).trans (List.perm_append_comm.trans ?_)
          exact filters_perm (less pivot) before after pivot
        · simp only [bind, Option.bind_eq_some_iff] at h
          obtain ⟨high, hh, low, hl, h⟩ := h
          cases h
          refine ((ih hl).append (ih hh)).trans ?_
          exact filters_perm (less · pivot) before after pivot

theorem stable?_perm {xs ys : List β} (h : stable? less xs = some ys) : ys.Perm xs := by
  unfold stable? at h
  split at h
  · cases h
    exact insertAll_perm less [] xs
  · exact byRuns?_perm quick?_perm h

end FlowCanvas.Sort
