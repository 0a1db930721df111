import Mathlib.Data.List.FinRange
import Mathlib.Data.List.Sym
import Mathlib.Data.Sym.Sym2.Order
import FlowCanvas.Arrangement.Finding

/-! What findings stand for. A violation says by their places which nodes or boxes break a rule, so
that things of one id are told apart, and two boxes that overlap are a pair in no order. A check of
any arrangement, however it came about, has one finding for each violation and none besides. -/

namespace FlowCanvas

variable {α : Type}

def placesWhere {β : Type} (p : β → Bool) (xs : List β) : List (Fin xs.length) :=
  (List.finRange xs.length).filter fun i => p (xs.get i)

section Places

variable {β : Type} {p : β → Bool} {xs : List β}

theorem mem_placesWhere {i : Fin xs.length} : i ∈ placesWhere p xs ↔ p (xs.get i) = true := by
  simp [placesWhere]

theorem placesWhere_sorted : (placesWhere p xs).Pairwise (· < ·) :=
  (List.pairwise_lt_finRange xs.length).filter _

theorem placesWhere_nodup : (placesWhere p xs).Nodup := placesWhere_sorted.imp ne_of_lt

theorem filter_placesWhere : xs.filter p = (placesWhere p xs).map xs.get := by
  conv_lhs => rw [← List.map_get_finRange xs, List.filter_map]
  rfl

end Places

namespace Arrangement

/-- Something in an arrangement that breaks a rule: a node off the grid, two boxes that overlap, a
box that sticks out of a group, a group that is too small, a tool over a group. -/
inductive Violation (a : Arrangement α)
  | offGrid (node : Fin a.nodes.length)
  | overlap (boxes : Sym2 (Fin a.boxes.length))
  | escape (box group : Fin a.boxes.length)
  | small (group : Fin a.boxes.length)
  | covered (tool group : Fin a.boxes.length)

variable [Scalar α] (s : LayoutSettings α) (a : Arrangement α)

def About (d : Diagram α) : Prop :=
  d.nodes.map (·.id) = a.nodes.map (·.id) ∧ a.boxes.length = a.nodes.length

structure Meet (i j : Fin a.boxes.length) : Prop where
  free : (a.boxes.get i).parent = none ∧ (a.boxes.get j).parent = none
  plain : (a.boxes.get i).kind ≠ .tool ∧ (a.boxes.get j).kind ≠ .tool
  intersects : (a.boxes.get i).rect.intersects (a.boxes.get j).rect = true

theorem meet_symm : Std.Symm a.Meet where
  symm _ _ h := ⟨h.free.symm, h.plain.symm, (Rect.intersects_comm _ _).trans h.intersects⟩

namespace Violation

variable {a}

def Holds : a.Violation → Prop
  | .offGrid i => Grid.isOn (a.nodes.get i).position.x s.gridSize = false ∨
      Grid.isOn (a.nodes.get i).position.y s.gridSize = false
  | .overlap p => ¬ p.IsDiag ∧ p ∈ Sym2.fromRel a.meet_symm
  | .escape i j => (a.boxes.get i).parent = some (a.boxes.get j).id ∧
      (∀ k < j, (a.boxes.get k).id ≠ (a.boxes.get j).id) ∧
      (a.boxes.get j).rect.contains (a.boxes.get i).rect = false
  | .small i => (a.boxes.get i).kind = .group ∧
      ((a.boxes.get i).rect.width < s.minGroupWidth ∨
        (a.boxes.get i).rect.height < s.minGroupHeight)
  | .covered i j => (a.boxes.get i).kind = .tool ∧ (a.boxes.get j).kind = .group ∧
      (a.boxes.get i).rect.intersects (a.boxes.get j).rect = true

instance : DecidableRel a.Meet := fun i j =>
  decidable_of_iff
    (((a.boxes.get i).parent = none ∧ (a.boxes.get j).parent = none) ∧
      ((a.boxes.get i).kind ≠ .tool ∧ (a.boxes.get j).kind ≠ .tool) ∧
      (a.boxes.get i).rect.intersects (a.boxes.get j).rect = true)
    ⟨fun h => ⟨h.1, h.2.1, h.2.2⟩, fun h => ⟨h.free, h.plain, h.intersects⟩⟩

instance (v : a.Violation) : Decidable (v.Holds s) :=
  match v with
  | .offGrid _ => inferInstanceAs (Decidable (_ ∨ _))
  | .overlap p => inferInstanceAs (Decidable (¬ p.IsDiag ∧ p ∈ Sym2.fromRel a.meet_symm))
  | .escape _ _ => inferInstanceAs (Decidable (_ ∧ (∀ _, _ → _) ∧ _))
  | .small _ => inferInstanceAs (Decidable (_ ∧ (_ ∨ _)))
  | .covered _ _ => inferInstanceAs (Decidable (_ ∧ _ ∧ _))

/-- What is reported of a violation. Of two boxes that overlap, the earlier one is named first. -/
def finding : a.Violation → Finding α
  | .offGrid i => .offGrid (a.nodes.get i).id s.gridSize
  | .overlap p => .topLevelOverlap (a.boxes.get p.inf).id (a.boxes.get p.sup).id
  | .escape i j => .outsideGroup (a.boxes.get i).id (a.boxes.get j).id
  | .small i => .groupTooSmall (a.boxes.get i).id
  | .covered i j => .toolOverGroup (a.boxes.get i).id (a.boxes.get j).id

end Violation

/-! The violations of each kind, and that their findings are what a check of that kind lists. -/

open Violation

def offGrids : List (Fin a.nodes.length) := placesWhere (fun n => !isOnGrid s n.position) a.nodes

def meetings : List (Sym2 (Fin a.boxes.length)) :=
  (placesWhere (fun b => b.parent.isNone && b.kind ≠ .tool) a.boxes).sym2.filter fun p =>
    (Violation.overlap p).Holds s

def escapeAt? (i : Fin a.boxes.length) : Option a.Violation :=
  (a.boxes.get i).parent.bind fun id =>
    (Fin.find? fun j => (a.boxes.get j).id == id).bind fun j =>
      if (a.boxes.get j).rect.contains (a.boxes.get i).rect then none else some (.escape i j)

def smalls : List (Fin a.boxes.length) :=
  placesWhere (fun b => isSmall s b && b.kind = .group) a.boxes

def coverings : List (Fin a.boxes.length × Fin a.boxes.length) :=
  (placesWhere (·.kind = .tool) a.boxes ×ˢ placesWhere (·.kind = .group) a.boxes).filter fun p =>
    (a.boxes.get p.1).rect.intersects (a.boxes.get p.2).rect

def violations : List a.Violation :=
  (offGrids s a).map .offGrid ++ (meetings s a).map .overlap ++
    (List.finRange a.boxes.length).filterMap a.escapeAt? ++ (smalls s a).map .small ++
    a.coverings.map fun p => .covered p.1 p.2

section Listed

theorem offGrid_eq : offGrid s a = (offGrids s a).map fun i => finding s (.offGrid i) := by
  rw [offGrid, filter_placesWhere, List.map_map]
  rfl

theorem overlaps_places {is : List (Fin a.boxes.length)} (hsorted : is.Pairwise (· < ·))
    (htop : ∀ i ∈ is, (a.boxes.get i).parent = none ∧ (a.boxes.get i).kind ≠ .tool) :
    overlaps (is.map a.boxes.get) =
      (is.sym2.filter fun p => (Violation.overlap p).Holds s).map fun p =>
        finding s (.overlap p) := by
  induction is with
  | nil => rfl
  | cons i is ih =>
    obtain ⟨hlt, hsorted⟩ := List.pairwise_cons.mp hsorted
    obtain ⟨hi, htop⟩ := List.forall_mem_cons.mp htop
    have hself : ¬ (Violation.overlap s(i, i)).Holds s := fun h => h.1 rfl
    have hpair : ∀ j ∈ is, decide ((Violation.overlap s(i, j)).Holds s) =
        (a.boxes.get i).rect.intersects (a.boxes.get j).rect := by
      intro j hj
      have hne : ¬ s(i, j).IsDiag := (hlt j hj).ne
      have hj := htop j hj
      rw [Bool.eq_iff_iff, decide_eq_true_eq]
      exact ⟨fun h => h.2.intersects, fun h => ⟨hne, ⟨hi.1, hj.1⟩, ⟨hi.2, hj.2⟩, h⟩⟩
    have hname : ∀ j ∈ is, finding s (.overlap s(i, j)) =
        .topLevelOverlap (a.boxes.get i).id (a.boxes.get j).id := by
      intro j hj
      have hle := (hlt j hj).le
      rw [finding, Sym2.inf_mk, Sym2.sup_mk, inf_eq_left.mpr hle, sup_eq_right.mpr hle]
    rw [List.map_cons, overlaps, ih hsorted htop, List.sym2, List.filter_append, List.map_append,
      List.map_cons, List.filter_cons_of_neg (by simpa using hself), List.filter_map,
      List.filter_map, List.map_map, List.map_map]
    congr 1
    calc
      _ = (is.filter fun j => (Violation.overlap s(i, j)).Holds s).map fun j =>
          finding s (.overlap s(i, j)) := by
        rw [List.filter_congr hpair]
        exact List.map_congr_left fun j hj => (hname j (List.mem_of_mem_filter hj)).symm
      _ = _ := rfl

theorem overlaps_eq :
    overlaps a.topLevel = (meetings s a).map fun p => finding s (.overlap p) := by
  rw [topLevel, filter_placesWhere, meetings]
  refine overlaps_places s a placesWhere_sorted fun i hi => ?_
  simpa using mem_placesWhere.mp hi

omit [Scalar α] in
theorem box?_place (id : String) :
    a.box? id = (Fin.find? fun j => (a.boxes.get j).id == id).map a.boxes.get := by
  rw [Fin.find?_eq_find?_finRange]
  conv_lhs => rw [box?, ← List.map_get_finRange a.boxes, List.find?_map]
  rfl

theorem escape?_place (i : Fin a.boxes.length) :
    a.escape? (a.boxes.get i) = (a.escapeAt? i).map (finding s) := by
  rw [escape?, escapeAt?]
  cases (a.boxes.get i).parent with
  | none => rfl
  | some id =>
    rw [Option.bind_some, Option.bind_some, box?_place]
    cases hj : Fin.find? fun j => (a.boxes.get j).id == id with
    | none => rfl
    | some j =>
      have hid : (a.boxes.get j).id = id := by simpa using Fin.eq_true_of_find?_eq_some hj
      rw [Option.map_some, Option.bind_some, Option.bind_some]
      split
      · rfl
      · rw [Option.map_some, finding, hid]

theorem escapes_eq : a.boxes.filterMap a.escape? =
    ((List.finRange a.boxes.length).filterMap a.escapeAt?).map (finding s) := by
  conv_lhs => rw [← List.map_get_finRange a.boxes, List.filterMap_map]
  rw [List.map_filterMap]
  exact List.filterMap_congr fun i _ => escape?_place s a i

theorem tooSmall_eq : tooSmall s a = (smalls s a).map fun i => finding s (.small i) := by
  rw [tooSmall, groups, List.filter_filter, filter_placesWhere, List.map_map]
  rfl

theorem overGroups_eq :
    a.overGroups = a.coverings.map fun p => finding s (.covered p.1 p.2) := by
  have hproduct (is js : List (Fin a.boxes.length)) :
      is ×ˢ js = is.flatMap fun i => js.map fun j => (i, j) := rfl
  rw [overGroups, tools, groups, filter_placesWhere, filter_placesWhere, coverings, hproduct]
  simp only [List.filter_flatMap, List.map_flatMap, List.flatMap_map, List.filter_map, List.map_map]
  rfl

theorem check_violations {d : Diagram α} (h : a.isOf d = true) :
    a.check s d = (violations s a).map (finding s) := by
  rw [check, if_pos h, offGrid_eq, overlaps_eq, escapes_eq, tooSmall_eq, overGroups_eq]
  simp only [violations, List.map_append, List.map_map]
  rfl

end Listed

section Exact

variable {s a}

theorem mem_offGrids {i : Fin a.nodes.length} :
    i ∈ offGrids s a ↔ (Violation.offGrid i).Holds s := by
  simp [offGrids, mem_placesWhere, Holds, isOnGrid]

theorem mem_meetings {p : Sym2 (Fin a.boxes.length)} :
    p ∈ meetings s a ↔ (Violation.overlap p).Holds s := by
  rw [meetings, List.mem_filter, decide_eq_true_eq, and_iff_right_iff_imp]
  intro h
  induction p with
  | _ i j =>
    obtain ⟨hfree, hplain, -⟩ : a.Meet i j := h.2
    simp only [List.mk_mem_sym2_iff, mem_placesWhere, Bool.and_eq_true, Option.isNone_iff_eq_none,
      decide_eq_true_eq]
    exact ⟨⟨hfree.1, hplain.1⟩, hfree.2, hplain.2⟩

theorem escapeAt?_eq_some {i : Fin a.boxes.length} {v : a.Violation} :
    a.escapeAt? i = some v ↔ ∃ j, v = .escape i j ∧ v.Holds s := by
  simp only [escapeAt?, Option.bind_eq_some_iff, Fin.find?_eq_some_iff, beq_iff_eq,
    Option.ite_none_left_eq_some, Option.some.injEq, beq_eq_false_iff_ne]
  constructor
  · rintro ⟨id, hparent, j, ⟨rfl, hfirst⟩, hout, rfl⟩
    exact ⟨j, rfl, hparent, hfirst, by simpa using hout⟩
  · rintro ⟨j, rfl, hparent, hfirst, hout⟩
    exact ⟨_, hparent, j, ⟨rfl, hfirst⟩, by simpa using hout, rfl⟩

theorem mem_smalls {i : Fin a.boxes.length} : i ∈ smalls s a ↔ (Violation.small i).Holds s := by
  simp [smalls, mem_placesWhere, Holds, isSmall, and_comm]

theorem mem_coverings {i j : Fin a.boxes.length} :
    (i, j) ∈ a.coverings ↔ (Violation.covered i j).Holds s := by
  simp [coverings, mem_placesWhere, Holds, and_assoc]

theorem mem_violations {v : a.Violation} : v ∈ violations s a ↔ v.Holds s := by
  cases v with
  | offGrid i => simp [violations, mem_offGrids, escapeAt?_eq_some (s := s)]
  | overlap p => simp [violations, mem_meetings, escapeAt?_eq_some (s := s)]
  | escape i j => simp [violations, escapeAt?_eq_some (s := s)]
  | small i => simp [violations, mem_smalls, escapeAt?_eq_some (s := s)]
  | covered i j => simp [violations, mem_coverings (s := s), escapeAt?_eq_some (s := s)]

theorem violations_nodup : (violations s a).Nodup := by
  have hoffGrids : ((offGrids s a).map Violation.offGrid).Nodup :=
    placesWhere_nodup.map fun i j => Violation.offGrid.inj
  have hmeetings : ((meetings s a).map Violation.overlap).Nodup :=
    (placesWhere_nodup.sym2.filter _).map fun p q => Violation.overlap.inj
  have hescapes : ((List.finRange a.boxes.length).filterMap a.escapeAt?).Nodup := by
    refine (List.nodup_finRange _).filterMap fun i j v hi hj => ?_
    obtain ⟨k, rfl, -⟩ := (escapeAt?_eq_some (s := s)).mp hi
    obtain ⟨l, hv, -⟩ := (escapeAt?_eq_some (s := s)).mp hj
    exact (Violation.escape.inj hv).1
  have hsmalls : ((smalls s a).map Violation.small).Nodup :=
    placesWhere_nodup.map fun i j => Violation.small.inj
  have hcoverings : (a.coverings.map fun p => Violation.covered p.1 p.2).Nodup := by
    refine ((placesWhere_nodup.product placesWhere_nodup).filter _).map fun p q hpq => ?_
    exact Prod.ext_iff.mpr (Violation.covered.inj hpq)
  -- The parts have nothing in common, because each of them holds violations of its own kind.
  rw [violations]
  refine (((hoffGrids.append hmeetings ?_).append hescapes ?_).append hsmalls ?_).append
    hcoverings ?_
  all_goals
    intro v hv hw
    cases v <;> simp [escapeAt?_eq_some (s := s)] at hv hw

omit [Scalar α] in
theorem isOf_iff {d : Diagram α} : a.isOf d = true ↔ a.About d := by
  simp [isOf, About]

end Exact

/-- A check reports each violation once and nothing else, and it is clean if and only if the nodes
are those of the diagram and nothing breaks a rule. Which of two boxes comes first does not matter. -/
theorem check_exact (d : Diagram α) :
    (¬ a.About d → a.check s d = [.identityMismatch]) ∧
      (a.About d → ∃ vs : List a.Violation, vs.Nodup ∧ (∀ v, v ∈ vs ↔ v.Holds s) ∧
        a.check s d = vs.map (finding s)) ∧
      (a.check s d = [] ↔ a.About d ∧ ∀ v : a.Violation, ¬ v.Holds s) ∧
      ∀ b c : Box α, b.rect.intersects c.rect = c.rect.intersects b.rect := by
  have hmismatch (h : ¬ a.About d) : a.check s d = [.identityMismatch] := by
    rw [check, if_neg (mt isOf_iff.mp h)]
  have hlisted (h : a.About d) := check_violations s a (isOf_iff.mpr h)
  refine ⟨hmismatch, fun h => ⟨violations s a, violations_nodup, fun v => mem_violations,
    hlisted h⟩, ?_, fun b c => b.rect.intersects_comm c.rect⟩
  by_cases h : a.About d
  · rw [hlisted h, List.map_eq_nil_iff, List.eq_nil_iff_forall_not_mem]
    simp only [mem_violations, h, true_and]
  · rw [hmismatch h]
    simp [h]

/-- Three boxes of one id overlap in pairs, one node is off the grid, and a group is too small, with
a tool over it and a box in it that sticks out. -/
theorem check_exact_tampered :
    let s : LayoutSettings Float32 := .standard
    let placed (id : String) (kind : NodeKind) (x : Float32) : Node Float32 :=
      { Node.new id kind with position := ⟨x, 0⟩ }
    let d : Diagram Float32 := ⟨[placed "a" .step 3, placed "a" .step 20, placed "a" .step 40,
      placed "g" .group 0, placed "b" .step 0, placed "t" .tool 0], []⟩
    let a : Arrangement Float32 := ⟨d.nodes, [⟨"a", .step, none, ⟨0, 0, 240, 100⟩⟩,
      ⟨"a", .step, none, ⟨20, 0, 240, 100⟩⟩, ⟨"a", .step, none, ⟨40, 0, 240, 100⟩⟩,
      ⟨"g", .group, none, ⟨400, 0, 100, 200⟩⟩, ⟨"b", .step, some "g", ⟨420, 0, 240, 100⟩⟩,
      ⟨"t", .tool, none, ⟨410, 20, 180, 60⟩⟩], Rect.empty⟩
    a.About d ∧ (∃ vs : List a.Violation, vs.Nodup ∧ (∀ v, v ∈ vs ↔ v.Holds s) ∧
      a.check s d = vs.map (finding s)) ∧
      (a.check s d).length = 7 ∧
      ¬ a.About Diagram.empty ∧ a.check s Diagram.empty = [.identityMismatch] := by
  intro s placed d a
  have habout : a.About d := ⟨rfl, rfl⟩
  have hother : ¬ a.About Diagram.empty := fun h =>
    List.cons_ne_nil _ _ h.1.symm
  have hlength : (a.check s d).length = 7 := by decide +kernel
  exact ⟨habout, (check_exact s a d).2.1 habout, hlength, hother,
    (check_exact s a Diagram.empty).1 hother⟩

end Arrangement

end FlowCanvas
