import FlowCanvas.Sort.Merge

/-!
Stable sorting, second part: a list is cut into runs, and neighbouring runs are joined in the shape
of a balanced tree over the whole list. A run that is not sorted yet may stay so while its
neighbours are not sorted either.
-/

namespace FlowCanvas.Sort

variable {β : Type} (less : β → β → Bool)

structure Run (β : Type) where
  items : List β
  sorted : Bool

def stretch (next : β → β → Bool) (x : β) : List β → Nat
  | [] => 1
  | y :: ys => if next x y then stretch next y ys + 1 else 1

def opening (x : β) : List β → Bool × Nat
  | [] => (false, 1)
  | y :: ys =>
    if less y x then (true, stretch (fun a b => less b a) x (y :: ys))
    else (false, stretch (fun a b => !less b a) x (y :: ys))

/-- About the square root, by one step from the nearest power of two. -/
def roughRoot (n : Nat) : Nat :=
  let shift := (1 + n.log2) / 2
  ((1 <<< shift) + (n >>> shift)) / 2

def worthwhile (n : Nat) : Nat := if n ≤ 4096 then min (n - n / 2) 64 else roughRoot n

def firstRun (least : Nat) (eager : Bool) (x : β) (xs : List β) :
    Nat × (List β → Option (Run β)) :=
  let (falling, n) := opening less x xs
  if least ≤ n then (n - 1, fun ys => some ⟨if falling then ys.reverse else ys, true⟩)
  else if eager then (31, fun ys => (small? less ys).map (⟨·, true⟩))
  else (least - 1, fun ys => some ⟨ys, false⟩)

def runs? (least : Nat) (eager : Bool) : List β → Option (List (Run β))
  | [] => some []
  | x :: xs => do
    let (n, run?) := firstRun less least eager x xs
    let run ← run? (x :: xs.take n)
    let rest ← runs? least eager (xs.drop n)
    return run :: rest
termination_by xs => xs.length
decreasing_by simp only [List.length_drop, List.length_cons]; omega

namespace Run

variable (quick? : List β → Option (List β))

def ordered? (run : Run β) : Option (List β) :=
  if run.sorted then some run.items else quick? run.items

def join? (left right : Run β) : Option (Run β) :=
  if left.sorted || right.sorted then do
    let xs ← left.ordered? quick?
    let ys ← right.ordered? quick?
    return ⟨merge less xs ys, true⟩
  else some ⟨left.items ++ right.items, false⟩

end Run

variable (quick? : List β → Option (List β))

/-- How deep in a balanced tree over `n` items the border between two neighbouring runs lies. -/
def depth (n start border stop : Nat) : Nat :=
  let scale := (0x4000000000000000 + n - 1) / n
  63 - ((scale * (start + border)) ^^^ (scale * (border + stop))).log2

def collapse? (d : Nat) (run : Run β) :
    List (Run β × Nat) → Option (Run β × List (Run β × Nat))
  | [] => some (run, [])
  | (left, e) :: stack =>
    if d ≤ e then do
      let joined ← Run.join? less quick? left run
      collapse? d joined stack
    else some (run, (left, e) :: stack)

/-- Joins all runs of `n` items; `run` ends before the item `stop`, and runs before it wait. -/
def joinAll? (n stop : Nat) (run : Run β) (stack : List (Run β × Nat)) :
    List (Run β) → Option (Run β)
  | [] => (collapse? less quick? 0 run stack).map (·.1)
  | next :: rest => do
    let d := depth n (stop - run.items.length) stop (stop + next.items.length)
    let (left, stack) ← collapse? less quick? d run stack
    joinAll? n (stop + next.items.length) next ((left, d) :: stack) rest

/-- Sorts by runs. Runs that stay unsorted are left to `quick?`; if `eager`, there are none. -/
def byRuns? (eager : Bool) (xs : List β) : Option (List β) := do
  match ← runs? less (worthwhile xs.length) eager xs with
  | [] => return []
  | run :: rest =>
    let whole ← joinAll? less quick? xs.length run.items.length run [] rest
    whole.ordered? quick?

variable {less}

theorem firstRun_perm {least : Nat} {eager : Bool} {x : β} {xs ys : List β} {run : Run β}
    (h : (firstRun less least eager x xs).2 ys = some run) : run.items.Perm ys := by
  unfold firstRun at h
  split at h
  split at h
  · cases h
    dsimp only
    split
    · exact List.reverse_perm ys
    · exact .refl _
  · split at h
    · obtain ⟨zs, hz, rfl⟩ := Option.map_eq_some_iff.mp h
      exact small?_perm less hz
    · cases h
      exact .refl _

theorem runs?_perm {least : Nat} {eager : Bool} {xs : List β} {all : List (Run β)}
    (h : runs? less least eager xs = some all) : (all.flatMap (·.items)).Perm xs := by
  fun_induction runs? less least eager xs generalizing all with
  | case1 =>
    cases h
    exact .refl _
  | case2 x xs n run? hr ih =>
    simp only [bind, Option.bind_eq_some_iff] at h
    obtain ⟨run, hrun, rest, hrest, h⟩ := h
    cases h
    have hx : (firstRun less least eager x xs).2 (x :: xs.take n) = some run := by rwa [hr]
    refine ((firstRun_perm hx).append (ih hrest)).trans ?_
    rw [List.cons_append, List.take_append_drop]

variable {quick?} (hq : ∀ {xs ys}, quick? xs = some ys → ys.Perm xs)

include hq

theorem ordered?_perm {run : Run β} {ys : List β} (h : run.ordered? quick? = some ys) :
    ys.Perm run.items := by
  unfold Run.ordered? at h
  split at h
  · cases h
    exact .refl _
  · exact hq h

theorem join?_perm {left right run : Run β} (h : Run.join? less quick? left right = some run) :
    run.items.Perm (left.items ++ right.items) := by
  unfold Run.join? at h
  split at h
  · simp only [bind, Option.bind_eq_some_iff] at h
    obtain ⟨xs, hx, ys, hy, h⟩ := h
    cases h
    exact (merge_perm less xs ys).trans ((ordered?_perm hq hx).append (ordered?_perm hq hy))
  · cases h
    exact .refl _

abbrev waiting (run : Run β) (stack : List (Run β × Nat)) : List β :=
  run.items ++ stack.flatMap (·.1.items)

theorem collapse?_perm {d : Nat} {run : Run β} {stack : List (Run β × Nat)}
    {r : Run β × List (Run β × Nat)} (h : collapse? less quick? d run stack = some r) :
    (waiting r.1 r.2).Perm (waiting run stack) := by
  induction stack generalizing run with
  | nil =>
    cases h
    exact .refl _
  | cons top stack ih =>
    obtain ⟨left, e⟩ := top
    unfold collapse? at h
    split at h
    · simp only [bind, Option.bind_eq_some_iff] at h
      obtain ⟨joined, hj, h⟩ := h
      refine (ih h).trans ?_
      simp only [waiting, List.flatMap_cons]
      rw [← List.append_assoc]
      exact ((join?_perm hq hj).trans List.perm_append_comm).append_right _
    · cases h
      exact .refl _

omit hq in
theorem collapse?_zero {run : Run β} {stack : List (Run β × Nat)}
    {r : Run β × List (Run β × Nat)} (h : collapse? less quick? 0 run stack = some r) :
    r.2 = [] := by
  induction stack generalizing run with
  | nil =>
    cases h
    rfl
  | cons top stack ih =>
    simp only [collapse?, Nat.zero_le, if_true, bind, Option.bind_eq_some_iff] at h
    obtain ⟨joined, _, h⟩ := h
    exact ih h

theorem joinAll?_perm {n stop : Nat} {run whole : Run β} {stack : List (Run β × Nat)}
    {rest : List (Run β)} (h : joinAll? less quick? n stop run stack rest = some whole) :
    whole.items.Perm (waiting run stack ++ rest.flatMap (·.items)) := by
  induction rest generalizing stop run stack with
  | nil =>
    obtain ⟨r, hr, rfl⟩ := Option.map_eq_some_iff.mp h
    have hp := collapse?_perm hq hr
    simp only [waiting, collapse?_zero hr, List.flatMap_nil, List.append_nil] at hp ⊢
    exact hp
  | cons next rest ih =>
    simp only [joinAll?, bind, Option.bind_eq_some_iff] at h
    obtain ⟨⟨left, waits⟩, hc, h⟩ := h
    refine (ih h).trans ?_
    have hp := collapse?_perm hq hc
    simp only [waiting, List.flatMap_cons, List.append_assoc] at hp ⊢
    refine List.Perm.trans ?_ ((hp.append_right (next.items ++ rest.flatMap (·.items))).trans ?_)
    · classical
      rw [List.perm_iff_count]
      intro a
      simp only [List.count_append]
      omega
    · simp only [List.append_assoc]
      exact .refl _

theorem byRuns?_perm {eager : Bool} {xs ys : List β}
    (h : byRuns? less quick? eager xs = some ys) : ys.Perm xs := by
  simp only [byRuns?, bind, Option.bind_eq_some_iff] at h
  obtain ⟨all, ha, h⟩ := h
  have hp := runs?_perm ha
  split at h
  · cases h
    exact hp
  · simp only [Option.bind_eq_some_iff] at h
    obtain ⟨whole, hw, h⟩ := h
    refine (ordered?_perm hq h).trans ((joinAll?_perm hq hw).trans ?_)
    simpa [waiting] using hp

end FlowCanvas.Sort
