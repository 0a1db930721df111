import FlowCanvas.Proofs.Checked.Table
import FlowCanvas.Proofs.Frame.Index

/-! Links between nodes on checked arrays. Every node has a cell for the index of its group. Links
are kept one by one, and with those kept so far every way up ends within as many steps as there are
nodes; so the test for a cycle ends, and so does every walk along the final links. -/

namespace FlowCanvas

variable {α : Type}

namespace Checked

/-- Whether the way up from an index meets a node, of which as many as the steps are looked at.
There is no result if the steps do not suffice. -/
def meets? (parents : List (Option Nat)) (child : Nat) : Nat → Nat → Option Bool
  | 0, _ => none
  | steps + 1, i =>
    if i = child then some true
    else do
      let link ← parents[i]?
      match link with
      | none => some false
      | some p => meets? parents child steps p

def climb? (parents : List (Option Nat)) : Nat → Nat → Option (List Nat)
  | 0, i => if parents[i]?.join.isNone then some [] else none
  | steps + 1, i =>
    match parents[i]?.join with
    | none => some []
    | some p => do
      let above ← climb? parents steps p
      some (p :: above)

def link? (d : Diagram α) (parents : List (Option Nat)) (i : Nat) :
    Option (List (Option Nat)) := do
  let (first, n) ← d.marked[i]?
  if !first || n.isTool then some parents
  else
    match n.parent.bind d.index? with
    | none => some parents
    | some p => do
      let g ← d.nodes[p]?
      if !g.isGroup then some parents
      else do
        let cycle ← meets? parents i d.nodes.length p
        if cycle then some parents else write? parents i (some p)

def parents? (d : Diagram α) : Option (List (Option Nat)) :=
  (List.range d.nodes.length).foldlM (link? d) (List.replicate d.nodes.length none)

def children? (parents : List (Option Nat)) : Option (List (List Nat)) :=
  distribute? (List.replicate parents.length [])
    (parents.zipIdx.filterMap fun x => x.1.map fun p => (p, x.2))

end Checked

open Checked

namespace Frames

open Diagram

variable {d : Diagram α} {links : List (String × String)} {i c steps : Nat} {n m : Node α}
  {id : String} {ps : List String}

abbrev groupTable (d : Diagram α) : List (Option Nat) := table d.nodes.length (groupAt? d)

abbrev childTable (d : Diagram α) : List (List Nat) := table d.nodes.length (childrenAt d)

def groupIn? (d : Diagram α) (links : List (String × String)) (i : Nat) : Option Nat :=
  (d.first? i).bind fun n => (links.lookup n.id).bind d.index?

theorem groupIn?_of_first (hi : d.IsFirst i n) :
    groupIn? d links i = (links.lookup n.id).bind d.index? := by
  rw [groupIn?, first?_eq_some.mpr hi, Option.bind_some]

theorem Kept.first {done : List (Node α)} (h : Kept d.elements done links) {p : String}
    (hp : links.lookup id = some p) : ∃ k g, d.IsFirst k g ∧ g.id = p := by
  obtain ⟨n, -, -, hcand⟩ := h.asked id p hp
  obtain ⟨-, -, g, hg, -⟩ := candidate?_eq_some.mp hcand
  obtain ⟨hmem, hid⟩ := (build_wellFormed d).element?_eq_some.mp hg
  obtain ⟨k, hk⟩ := mem_elements_iff.mp hmem
  exact ⟨k, g, hk, hid⟩

section Climbs

variable {done : List (Node α)} (hkept : Kept d.elements done links) (hi : d.IsFirst i n)

include hkept hi

theorem meets?_eq (hc : d.IsFirst c m) (h : Climbs links n.id ps) (hsteps : ps.length < steps) :
    meets? (table d.nodes.length (groupIn? d links)) c steps i =
      some ((n.id :: ps).contains m.id) := by
  -- Different elements have different ids, so indices are compared as ids are.
  have hsame {j : Nat} {k : Node α} (hj : d.IsFirst j k) : j = c ↔ m.id = k.id := by
    constructor
    · rintro rfl
      rw [hj.node_unique hc]
    · exact fun he => hj.index_unique hc he.symm
  generalize hid : n.id = id at h
  induction h generalizing i n steps with
  | top hlink =>
    subst hid
    obtain ⟨steps, rfl⟩ := Nat.exists_eq_add_one.mpr (Nat.zero_lt_of_lt hsteps)
    have hread : (table d.nodes.length (groupIn? d links))[i]? = some none := by
      rw [table_read hi.lt, groupIn?_of_first hi, hlink, Option.bind_none]
    by_cases he : i = c
    · have hid := (hsame hi).mp he
      simp [meets?, he, hid]
    · have hid : ¬ m.id = n.id := fun h => he ((hsame hi).mpr h)
      simp [meets?, he, hid, hread]
  | @up id p ps hlink _ ih =>
    subst hid
    obtain ⟨steps, rfl⟩ := Nat.exists_eq_add_one.mpr (Nat.zero_lt_of_lt hsteps)
    obtain ⟨k, g, hk, rfl⟩ := hkept.first hlink
    have hread : (table d.nodes.length (groupIn? d links))[i]? = some (some k) := by
      rw [table_read hi.lt, groupIn?_of_first hi, hlink, Option.bind_some, hk.index?_eq]
    have hrest := ih hk (Nat.lt_of_succ_lt_succ hsteps) rfl
    by_cases he : i = c
    · have hid := (hsame hi).mp he
      simp [meets?, he, hid]
    · have hid : (m.id == n.id) = false := by simpa using fun h => he ((hsame hi).mpr h)
      simp only [meets?, if_neg he, hread, Option.bind_eq_bind, Option.bind_some, hrest,
        List.contains_cons, hid, Bool.false_or]

theorem climb?_eq (h : Climbs links n.id ps) (hsteps : ps.length ≤ steps) :
    climb? (table d.nodes.length (groupIn? d links)) steps i = some (ps.map d.placeOf) := by
  generalize hid : n.id = id at h
  induction h generalizing i n steps with
  | top hlink =>
    subst hid
    have hread : (table d.nodes.length (groupIn? d links))[i]? = some none := by
      rw [table_read hi.lt, groupIn?_of_first hi, hlink, Option.bind_none]
    cases steps <;> simp [climb?, hread]
  | @up id p ps hlink _ ih =>
    subst hid
    obtain ⟨k, g, hk, rfl⟩ := hkept.first hlink
    have hread : (table d.nodes.length (groupIn? d links))[i]? = some (some k) := by
      rw [table_read hi.lt, groupIn?_of_first hi, hlink, Option.bind_some, hk.index?_eq]
    cases steps with
    | zero => simp at hsteps
    | succ steps =>
      have hrest := ih hk (Nat.le_of_succ_le_succ hsteps) rfl
      simp [climb?, hread, hrest, hk.placeOf_eq]

end Climbs

def linksOf (d : Diagram α) (seen : List Nat) : List (String × String) :=
  (seen.filterMap d.first?).foldl (keep d.elements) []

theorem linksOf_all (d : Diagram α) : linksOf d (List.range d.nodes.length) = (build d).links := by
  rw [linksOf, ← elements_eq_filterMap]
  rfl

theorem linksOf_append (d : Diagram α) (seen : List Nat) (i : Nat) : linksOf d (seen ++ [i]) =
    match d.first? i with
    | some n => keep d.elements (linksOf d seen) n
    | none => linksOf d seen := by
  rw [linksOf, List.filterMap_append, List.foldl_append]
  cases hi : d.first? i <;> simp [hi, linksOf]

theorem linksOf_kept (d : Diagram α) {i : Nat} (hi : i ≤ d.nodes.length) :
    Kept d.elements ((List.range i).filterMap d.first?).reverse (linksOf d (List.range i)) := by
  have hstart : Kept d.elements [] [] := ⟨fun id => ⟨[], .top rfl⟩, by simp⟩
  have hsub : ((List.range i).filterMap d.first?).Sublist d.elements := by
    rw [elements_eq_filterMap]
    refine List.Sublist.filterMap _ ?_
    rw [← Nat.min_eq_left hi, ← List.take_range]
    exact List.take_sublist _ _
  have h := hstart.foldl ((List.range i).filterMap d.first?)
    (by simpa using d.elements_nodup.sublist (hsub.map _))
  simpa [linksOf] using h

theorem marked_read (hi : i < d.nodes.length) :
    ∃ n, d.nodes[i]? = some n ∧ d.marked[i]? = some ((d.first? i).isSome, n) := by
  have hlen : i < d.marked.length := by rwa [← marked_nodes, List.length_map] at hi
  obtain ⟨⟨first, n⟩, hmark⟩ : ∃ m, d.marked[i]? = some m := ⟨_, List.getElem?_eq_getElem hlen⟩
  refine ⟨n, ?_, ?_⟩
  · rw [← marked_nodes, List.getElem?_map, hmark, Option.map_some]
  · rw [first?, hmark]
    cases first <;> rfl

theorem groupIn?_cons {k : Nat} {g : Node α} (hi : d.IsFirst i n) (hk : d.IsFirst k g) :
    groupIn? d ((n.id, g.id) :: links) = Function.update (groupIn? d links) i (some k) := by
  funext j
  by_cases hj : j = i
  · subst hj
    rw [groupIn?_of_first hi, List.lookup_cons_self, Option.bind_some, hk.index?_eq,
      Function.update_self]
  · rw [Function.update_of_ne hj]
    cases hm : d.first? j with
    | none => rw [groupIn?, groupIn?, hm, Option.bind_none, Option.bind_none]
    | some m =>
      have hfirst := first?_eq_some.mp hm
      have hne : m.id ≠ n.id := fun he => hj (hfirst.index_unique hi he)
      rw [groupIn?_of_first hfirst, groupIn?_of_first hfirst, lookup_link_of_ne hne]

theorem keep_length_le (elements : List (Node α)) (links : List (String × String)) (n : Node α) :
    (keep elements links n).length ≤ links.length + 1 := by
  unfold keep
  split
  · omega
  · split
    · omega
    · exact Nat.le_refl _

theorem linksOf_length_le (d : Diagram α) (seen : List Nat) :
    (linksOf d seen).length ≤ seen.length := by
  induction seen using List.reverseRecOn with
  | nil => exact Nat.le_refl _
  | append_singleton seen i ih =>
    rw [linksOf_append, List.length_append, List.length_singleton]
    split
    · exact (keep_length_le _ _ _).trans (Nat.succ_le_succ ih)
    · exact ih.trans (Nat.le_succ _)

theorem candidate?_of_index {k : Nat} {g : Node α} (htool : n.isTool = false)
    (hparent : n.parent = some g.id) (hk : d.IsFirst k g) :
    candidate? d.elements n = if g.isGroup then some g.id else none := by
  have hfind : find? d.elements g.id = some g := (build_wellFormed d).element?_of_mem hk.mem
  simp [candidate?, htool, hparent, hfind]

theorem element?_eq_none (h : d.index? id = none) : (build d).element? id = none := by
  cases hn : (build d).element? id with
  | none => rfl
  | some n =>
    obtain ⟨hmem, rfl⟩ := (build_wellFormed d).element?_eq_some.mp hn
    obtain ⟨k, hk⟩ := mem_elements_iff.mp hmem
    rw [hk.index?_eq] at h
    cases h

theorem candidate?_of_dangling (h : n.parent.bind d.index? = none) :
    candidate? d.elements n = none := by
  cases hcand : candidate? d.elements n with
  | none => rfl
  | some p =>
    obtain ⟨-, hparent, g, hg, -⟩ := candidate?_eq_some.mp hcand
    rw [hparent, Option.bind_some] at h
    rw [show find? d.elements p = none from element?_eq_none h] at hg
    cases hg

theorem link?_eq (hi : i < d.nodes.length) :
    link? d (table d.nodes.length (groupIn? d (linksOf d (List.range i)))) i =
      some (table d.nodes.length (groupIn? d (linksOf d (List.range i ++ [i])))) := by
  obtain ⟨n, hn, hmark⟩ := marked_read hi
  rw [linksOf_append]
  cases hfirst : d.first? i with
  | none => simp [link?, hmark, hfirst]
  | some m =>
    have him := first?_eq_some.mp hfirst
    obtain rfl : n = m := Option.some.inj (hn.symm.trans him.1)
    have hkept := linksOf_kept d hi.le
    cases htool : n.isTool with
    | true => simp [link?, hmark, hfirst, htool, keep, candidate?]
    | false =>
      cases hparent : n.parent.bind d.index? with
      | none =>
        simp [link?, hmark, hfirst, htool, hparent, keep, candidate?_of_dangling hparent]
      | some k =>
        obtain ⟨p, hp, hindex⟩ := Option.bind_eq_some_iff.mp hparent
        obtain ⟨g, hk, rfl⟩ := index?_eq_some.mp hindex
        have hcand := candidate?_of_index htool hp hk
        cases hgroup : g.isGroup with
        | false => simp [link?, hmark, hfirst, htool, hparent, hk.1, hgroup, keep, hcand]
        | true =>
          obtain ⟨ps, hps⟩ := hkept.ends g.id
          -- There are no more links yet than nodes before this one.
          have hsteps : ps.length < d.nodes.length := by
            have hlinks := linksOf_length_le d (List.range i)
            rw [List.length_range] at hlinks
            exact (hps.length_le.trans hlinks).trans_lt hi
          have hmeets := meets?_eq hkept hk him hps hsteps
          have hcycle : closesCycle (linksOf d (List.range i)) n.id g.id =
              (g.id :: ps).contains n.id := by rw [closesCycle, hps.above_eq]
          rw [if_pos hgroup] at hcand
          simp only [link?, hmark, hfirst, htool, hparent, hk.1, hgroup, hmeets, keep, hcand,
            hcycle, Option.bind_eq_bind, Option.bind_some, Option.isSome_some, Bool.not_true,
            Bool.or_false, Bool.false_eq_true, if_false]
          split
          · rfl
          · rw [table_write hi, groupIn?_cons him hk]

theorem parents?_eq (d : Diagram α) : parents? d = some (groupTable d) := by
  obtain ⟨parents, hrun, rfl⟩ := foldlM_run (link? d)
    (fun seen parents => parents = table d.nodes.length (groupIn? d (linksOf d seen)))
    (List.range d.nodes.length) (List.replicate d.nodes.length none)
    (by
      rw [table_const]
      exact table_congr fun i _ => by simp [groupIn?, linksOf]) (by
      rintro seen i rest parents hsplit rfl
      obtain ⟨rfl, hi⟩ := range_split hsplit
      exact ⟨_, link?_eq hi, rfl⟩)
  rw [linksOf_all] at hrun
  exact hrun

theorem climb?_frames (hi : d.IsFirst i n) :
    climb? (groupTable d) d.nodes.length i =
      some (((build d).ancestors n.id).map d.placeOf) := by
  have hkept := (build_wellFormed d).kept
  obtain ⟨ps, hps⟩ := hkept.ends n.id
  have hlinks := linksOf_length_le d (List.range d.nodes.length)
  rw [linksOf_all, List.length_range] at hlinks
  rw [ancestors, hps.above_eq]
  exact climb?_eq hkept hi hps (hps.length_le.trans hlinks)

example : climb? [some 1, some 0] 2 0 = none := by decide

theorem climb?_other (hi : d.first? i = none) :
    climb? (groupTable d) d.nodes.length i = some [] := by
  have hread : (groupTable d)[i]?.join = none := by
    by_cases hlt : i < d.nodes.length
    · rw [table_read hlt, groupAt?, hi, Option.bind_none]
      rfl
    · rw [table_read_none hlt]
      rfl
  cases d.nodes.length <;> simp [climb?, hread]

theorem items_of_key (links : List (Option Nat × Nat)) (key : Nat) :
    ((links.filterMap fun x => x.1.map fun p => (p, x.2)).filter (·.1 == key)).map (·.2) =
      (links.filter fun x => x.1 == some key).map (·.2) := by
  induction links with
  | nil => rfl
  | cons x links ih =>
    obtain ⟨link, i⟩ := x
    cases link with
    | none => simpa using ih
    | some p =>
      by_cases hp : p = key
      · simpa [hp] using ih
      · simpa [hp] using ih

theorem children?_eq (d : Diagram α) : children? (groupTable d) = some (childTable d) := by
  rw [children?, table_length, table_const, table_distribute]
  · congr 1
    refine table_congr fun p _ => ?_
    rw [List.nil_append, items_of_key, zipIdx_filter fun link _ => link == some p, table_length,
      childrenAt_eq]
    refine List.filter_congr fun i hi => ?_
    rw [table_read (List.mem_range.mp hi)]
    by_cases hgroup : groupAt? d i = some p <;> simp [hgroup]
  · intro it hit
    obtain ⟨⟨link, i⟩, hx, hmap⟩ := List.mem_filterMap.mp hit
    obtain ⟨p, hp, rfl⟩ := Option.map_eq_some_iff.mp hmap
    have hread := List.mem_zipIdx_iff_getElem?.mp hx
    have hlt : i < d.nodes.length := by
      have hlen := (List.getElem?_eq_some_iff.mp hread).1
      rwa [table_length] at hlen
    rw [table_read hlt, show link = some p from hp] at hread
    obtain ⟨-, g, -, hg, -⟩ := groupAt?_firsts (Option.some.inj hread)
    exact hg.lt

end Frames

end FlowCanvas
