/-!
Stable sorting with a comparison of which nothing is known, first part: short lists and merging.
What comes out is what these very steps make of the list. Where they run into a contradiction, so
that `less` cannot be an order, nothing comes out; else no item is lost or doubled.
-/

namespace FlowCanvas.Sort

variable {β : Type} (less : β → β → Bool)

/-- Puts an item behind all those that are not greater. The list is in reverse. -/
def insert (x : β) : List β → List β
  | [] => [x]
  | y :: ys => if less x y then y :: insert x ys else x :: y :: ys

def insertAll (sorted xs : List β) : List β :=
  (xs.foldl (fun ys x => insert less x ys) sorted.reverse).reverse

/-- Four items in order: two pairs, the least and the greatest of their ends, and what is left. -/
def four (p q r s : β) : List β :=
  let (a, b) := if less q p then (q, p) else (p, q)
  let (c, d) := if less s r then (s, r) else (r, s)
  let (least, x, y, greatest) :=
    match less c a, less d b with
    | false, false => (a, b, c, d)
    | false, true => (a, c, d, b)
    | true, false => (c, a, b, d)
    | true, true => (c, a, d, b)
  if less y x then [least, y, x, greatest] else [least, x, y, greatest]

def heads (first : β → β → Bool) : Nat → List β → List β → List β × Nat × Nat
  | k + 1, x :: xs, y :: ys =>
    if first x y then
      let (zs, i, j) := heads first k xs (y :: ys)
      (x :: zs, i + 1, j)
    else
      let (zs, i, j) := heads first k (x :: xs) ys
      (y :: zs, i, j + 1)
  | _, _, _ => ([], 0, 0)

def between (xs : List β) (i j : Nat) : List β := (xs.take (xs.length - j)).drop i

def mergeForward (xs ys : List β) : List β := xs.merge ys fun x y => !less y x

def mergeBackward (xs ys : List β) : List β :=
  (ys.reverse.merge xs.reverse fun y x => !less y x).reverse

/-- Merges from both ends up to the middle. Where the two ways do not meet there, `less` is no
order. -/
def mergeInward? (xs ys : List β) : Option (List β) :=
  let k := (xs.length + ys.length) / 2
  let (front, i, j) := heads (fun x y => !less y x) k xs ys
  let (back, m, n) := heads (fun x y => less y x) k xs.reverse ys.reverse
  if i + m ≤ xs.length ∧ j + n ≤ ys.length then
    some (front ++ between xs i m ++ between ys j n ++ back.reverse)
  else none

def merge (xs ys : List β) : List β :=
  if xs.length ≤ ys.length then mergeForward less xs ys else mergeBackward less xs ys

/-- Sorts one half of a list of `n` items: four or eight at once, the others by insertion. -/
def half? (n : Nat) : List β → Option (List β)
  | p :: q :: r :: s :: t :: u :: v :: w :: xs =>
    if 16 ≤ n then
      (mergeInward? less (four less p q r s) (four less t u v w)).map (insertAll less · xs)
    else if 8 ≤ n then some (insertAll less (four less p q r s) (t :: u :: v :: w :: xs))
    else some (insertAll less [] (p :: q :: r :: s :: t :: u :: v :: w :: xs))
  | p :: q :: r :: s :: xs =>
    if 8 ≤ n then some (insertAll less (four less p q r s) xs)
    else some (insertAll less [] (p :: q :: r :: s :: xs))
  | xs => some (insertAll less [] xs)

def small? (xs : List β) : Option (List β) := do
  let n := xs.length
  let front ← half? less n (xs.take (n / 2))
  let back ← half? less n (xs.drop (n / 2))
  mergeInward? less front back

theorem insert_perm (x : β) (ys : List β) : (insert less x ys).Perm (x :: ys) := by
  induction ys with
  | nil => exact .refl _
  | cons y ys ih =>
    simp only [insert]
    split
    · exact (ih.cons y).trans (.swap x y ys)
    · exact .refl _

theorem insertAll_perm (sorted xs : List β) :
    (insertAll less sorted xs).Perm (sorted ++ xs) := by
  suffices ∀ ys : List β,
      (xs.foldl (fun ys x => insert less x ys) ys).Perm (ys ++ xs) by
    exact ((List.reverse_perm _).trans (this _)).trans ((List.reverse_perm _).append_right xs)
  induction xs with
  | nil => intro ys; simp
  | cons x xs ih =>
    intro ys
    refine (ih _).trans (((insert_perm less x ys).append_right xs).trans ?_)
    exact List.perm_middle.symm

theorem pair_perm (p q : β) :
    (let (a, b) := if less q p then (q, p) else (p, q); [a, b]).Perm [p, q] := by
  by_cases h : less q p
  · simpa [h] using List.Perm.swap p q []
  · simp [h]

theorem four_perm (p q r s : β) : (four less p q r s).Perm [p, q, r, s] := by
  have swap (a b c d : β) : [a, c, b, d].Perm [a, b, c, d] := (List.Perm.swap b c [d]).cons a
  unfold four
  split
  rename_i a b hab
  split
  rename_i c d hcd
  have h : [a, b, c, d].Perm [p, q, r, s] := by
    have hp := pair_perm less p q
    have hr := pair_perm less r s
    rw [hab] at hp
    rw [hcd] at hr
    exact hp.append hr
  refine List.Perm.trans ?_ h
  have close (l x y g : β) (h : [l, x, y, g].Perm [a, b, c, d]) :
      (if less y x then [l, y, x, g] else [l, x, y, g]).Perm [a, b, c, d] := by
    split
    · exact (swap l x y g).trans h
    · exact h
  split
  rename_i heq
  split at heq <;> cases heq <;> apply close
  · exact .refl _
  · exact (List.perm_append_comm : ([c, d] ++ [b]).Perm ([b] ++ [c, d])).cons a
  · exact (List.perm_append_comm : ([c] ++ [a, b]).Perm ([a, b] ++ [c])).append_right [d]
  · exact ((List.Perm.swap a c [d, b]).trans
      ((List.perm_append_comm : ([c, d] ++ [b]).Perm ([b] ++ [c, d])).cons a))

theorem heads_perm (first : β → β → Bool) (k : Nat) (xs ys : List β) :
    (heads first k xs ys).1.Perm
      (xs.take (heads first k xs ys).2.1 ++ ys.take (heads first k xs ys).2.2) := by
  fun_induction heads first k xs ys with
  | case1 k x xs y ys _ zs i j h ih =>
    rw [h] at ih
    exact ih.cons x
  | case2 k x xs y ys _ zs i j h ih =>
    rw [h] at ih
    exact (ih.cons y).trans List.perm_middle.symm
  | case3 => simp

theorem take_between (xs : List β) {i j : Nat} (h : i + j ≤ xs.length) :
    xs.take i ++ (between xs i j ++ (xs.reverse.take j).reverse) = xs := by
  have hi : xs.take i = (xs.take (xs.length - j)).take i := by
    rw [List.take_take, Nat.min_eq_left (by omega)]
  rw [List.take_reverse, List.reverse_reverse, ← List.append_assoc, hi, between,
    List.take_append_drop, List.take_append_drop]

theorem meet_perm {xs ys front back : List β} {i j m n : Nat}
    (hf : front.Perm (xs.take i ++ ys.take j))
    (hb : back.Perm (xs.reverse.take m ++ ys.reverse.take n))
    (hx : i + m ≤ xs.length) (hy : j + n ≤ ys.length) :
    (front ++ between xs i m ++ between ys j n ++ back.reverse).Perm (xs ++ ys) := by
  classical
  rw [List.perm_iff_count]
  intro a
  have hf := hf.count_eq a
  have hb := hb.count_eq a
  have hx := congrArg (List.count a) (take_between xs hx)
  have hy := congrArg (List.count a) (take_between ys hy)
  simp only [List.count_append, List.count_reverse] at hf hb hx hy ⊢
  omega

theorem mergeForward_perm (xs ys : List β) : (mergeForward less xs ys).Perm (xs ++ ys) :=
  List.merge_perm_append _

theorem mergeBackward_perm (xs ys : List β) : (mergeBackward less xs ys).Perm (xs ++ ys) :=
  ((List.reverse_perm _).trans (List.merge_perm_append _)).trans
    (((List.reverse_perm ys).append (List.reverse_perm xs)).trans List.perm_append_comm)

theorem mergeInward?_perm {xs ys zs : List β} (h : mergeInward? less xs ys = some zs) :
    zs.Perm (xs ++ ys) := by
  simp only [mergeInward?] at h
  split at h
  · rename_i hm
    cases h
    exact meet_perm (heads_perm _ _ _ _) (heads_perm _ _ _ _) hm.1 hm.2
  · cases h

theorem merge_perm (xs ys : List β) : (merge less xs ys).Perm (xs ++ ys) := by
  unfold merge
  split
  · exact mergeForward_perm less xs ys
  · exact mergeBackward_perm less xs ys

theorem half?_perm {n : Nat} {xs ys : List β} (hy : half? less n xs = some ys) : ys.Perm xs := by
  unfold half? at hy
  split at hy
  · rename_i p q r s t u v w xs
    have h := four_perm less p q r s
    split at hy
    · obtain ⟨zs, hz, rfl⟩ := Option.map_eq_some_iff.mp hy
      have hm := (mergeInward?_perm less hz).append_right xs
      refine (insertAll_perm less zs xs).trans (hm.trans ?_)
      exact (h.append (four_perm less t u v w)).append_right xs
    · split at hy
      · cases hy
        exact (insertAll_perm less _ _).trans (h.append_right _)
      · cases hy
        exact insertAll_perm less [] _
  · rename_i p q r s xs _
    split at hy
    · cases hy
      exact (insertAll_perm less _ xs).trans ((four_perm less p q r s).append_right xs)
    · cases hy
      exact insertAll_perm less [] _
  · cases hy
    exact insertAll_perm less [] _

theorem small?_perm {xs ys : List β} (h : small? less xs = some ys) : ys.Perm xs := by
  simp only [small?, bind, Option.bind_eq_some_iff] at h
  obtain ⟨front, hf, back, hb, h⟩ := h
  have hx := (half?_perm less hf).append (half?_perm less hb)
  refine (mergeInward?_perm less h).trans (hx.trans ?_)
  rw [List.take_append_drop]

end FlowCanvas.Sort
