import Mathlib.Data.Nat.Find
import Mathlib.Logic.Relation
import FlowCanvas.Proofs.Frame.Forest

/-! Which links are kept. Elements name groups, each at most one, so from an element there is one
way on. Links are decided in the order of the elements: when the last element of a cycle has its
turn, all other links of the cycle are kept, and climbing from its group comes back to it. An
element that is not the last of a cycle is not come back to. So every cycle loses the link of its
last element, and no other link is lost. -/

namespace FlowCanvas

open Relation

/-- An element on a cycle, none of whose successors has a later place. -/
def LastOfCycle {β : Type} (r : β → β → Prop) (place : β → Nat) (a : β) : Prop :=
  TransGen r a a ∧ ∀ b, TransGen r a b → place b ≤ place a

section RightUnique

variable {β : Type} {r : β → β → Prop} (hr : Relator.RightUnique r) {place : β → Nat} {a b c : β}

include hr

theorem leads_back (ha : TransGen r a a) (h : TransGen r a b) : TransGen r b a := by
  have hnext {b c : β} (hb : TransGen r b a) (hc : r b c) : ReflTransGen r c a := by
    obtain ⟨d, hd, hda⟩ := TransGen.head'_iff.mp hb
    rwa [hr hc hd]
  have hback {c : β} (hc : ReflTransGen r c a) : TransGen r c a := by
    rcases reflTransGen_iff_eq_or_transGen.mp hc with rfl | hc
    · exact ha
    · exact hc
  induction h with
  | single h => exact hback (hnext ha h)
  | tail _ h ih => exact hback (hnext ih h)

theorem exists_last (ha : TransGen r a a) {n : Nat} (hn : ∀ b, TransGen r a b → place b ≤ n) :
    ∃ b, TransGen r a b ∧ LastOfCycle r place b := by
  classical
  let P (k : Nat) : Prop := ∃ b, TransGen r a b ∧ place b = k
  have hmax : P (Nat.findGreatest P n) := Nat.findGreatest_spec (hn a ha) ⟨a, ha, rfl⟩
  obtain ⟨b, hb, hk⟩ := hmax
  refine ⟨b, hb, (leads_back hr ha hb).trans hb, ?_⟩
  intro c hc
  rw [hk]
  exact Nat.le_findGreatest (hn c (hb.trans hc)) ⟨c, hb.trans hc, rfl⟩

end RightUnique

namespace Frames

variable {α : Type} {links : List (String × String)} {elements done rest : List (Node α)}
  {place : String → Nat} {n : Node α} {id a b p q : String} {ps qs : List String}

def Names (elements : List (Node α)) (a b : String) : Prop :=
  ∃ n ∈ elements, n.id = a ∧ candidate? elements n = some b

theorem names_unique (hn : (elements.map (·.id)).Nodup) :
    Relator.RightUnique (Names elements) := by
  rintro a b c ⟨n, hn', rfl, hb⟩ ⟨m, hm, hid, hc⟩
  obtain rfl := List.inj_on_of_nodup_map hn hm hn' hid
  exact Option.some.inj (hb.symm.trans hc)

theorem names_iff (hn : (elements.map (·.id)).Nodup) (hmem : n ∈ elements) :
    Names elements n.id p ↔ candidate? elements n = some p := by
  constructor
  · rintro ⟨m, hm, hid, hp⟩
    rwa [List.inj_on_of_nodup_map hn hm hmem hid] at hp
  · exact fun h => ⟨n, hmem, rfl, h⟩

theorem Climbs.next (h : Climbs links id ps) (ha : a ∈ id :: ps) (hb : links.lookup a = some b) :
    b ∈ ps := by
  induction h with
  | top h =>
    rw [List.mem_singleton.mp ha, h] at hb
    cases hb
  | @up id p ps h _ ih =>
    rcases List.mem_cons.mp ha with rfl | ha
    · obtain rfl : p = b := Option.some.inj (h.symm.trans hb)
      exact List.mem_cons_self
    · exact List.mem_cons_of_mem _ (ih ha)

theorem Climbs.end_unique (h : Climbs links id ps) (ha : a ∈ id :: ps) (hb : b ∈ id :: ps)
    (hla : links.lookup a = none) (hlb : links.lookup b = none) : a = b := by
  have hlast : ∀ c ∈ id :: ps, links.lookup c = none → c = ps.getLastD id := by
    clear ha hb
    induction h with
    | top _ =>
      intro c hc _
      exact List.mem_singleton.mp hc
    | @up id p ps h _ ih =>
      intro c hc hlc
      rw [List.getLastD_cons]
      rcases List.mem_cons.mp hc with rfl | hc
      · rw [h] at hlc
        cases hlc
      · exact ih c hc hlc
  rw [hlast a ha hla, hlast b hb hlb]

theorem Climbs.names (h : Climbs links id ps)
    (hlinks : ∀ a b, links.lookup a = some b → Names elements a b) (hp : p ∈ ps) :
    TransGen (Names elements) id p := by
  induction h with
  | top _ => cases hp
  | @up id q ps h _ ih =>
    have hfirst := hlinks _ _ h
    rcases List.mem_cons.mp hp with rfl | hp
    · exact .single hfirst
    · exact .head hfirst (ih hp)

/-- The links after some elements had their turn: those elements that are not the last of a cycle
have the link they ask for. -/
structure Decided (elements : List (Node α)) (place : String → Nat) (done : List (Node α))
    (links : List (String × String)) : Prop extends Kept elements done links where
  exact : ∀ n ∈ done, ∀ p, links.lookup n.id = some p ↔
    candidate? elements n = some p ∧ ¬ LastOfCycle (Names elements) place n.id

/-- An element has its turn when those in places before its own had theirs. -/
structure Turn (elements : List (Node α)) (place : String → Nat) (done : List (Node α))
    (n : Node α) : Prop where
  mem : n ∈ elements
  done_mem : ∀ m ∈ done, m ∈ elements
  done_lt : ∀ m ∈ done, place m.id < place n.id
  of_lt : ∀ m ∈ elements, place m.id < place n.id → m ∈ done
  place_ne : ∀ m ∈ elements, m.id ≠ n.id → place m.id ≠ place n.id

theorem Turn.fresh (ht : Turn elements place done n) : n.id ∉ done.map (·.id) := by
  intro hmem
  obtain ⟨m, hm, hid⟩ := List.mem_map.mp hmem
  exact absurd (hid ▸ ht.done_lt m hm) (Nat.lt_irrefl _)

theorem Decided.lookup_fresh (h : Decided elements place done links)
    (ht : Turn elements place done n) : links.lookup n.id = none := by
  cases hl : links.lookup n.id with
  | none => rfl
  | some q =>
    obtain ⟨m, hm, hid, -⟩ := h.asked _ _ hl
    exact absurd (hid ▸ List.mem_map_of_mem hm) ht.fresh

section Back

variable (h : Decided elements place done links) (ht : Turn elements place done n)
  (hids : (elements.map (·.id)).Nodup) (hcand : candidate? elements n = some p)
  (hclimb : Climbs links p qs)

include h ht hids hcand hclimb

theorem Decided.last_of_back (hback : n.id ∈ p :: qs) :
    LastOfCycle (Names elements) place n.id := by
  have hlinks (a b : String) (hab : links.lookup a = some b) : Names elements a b := by
    obtain ⟨m, hm, rfl, hc⟩ := h.asked a b hab
    exact ⟨m, ht.done_mem m hm, rfl, hc⟩
  have hnp : Names elements n.id p := ⟨n, ht.mem, rfl, hcand⟩
  have hfree := h.lookup_fresh ht
  have hcycle : TransGen (Names elements) n.id n.id := by
    rcases List.mem_cons.mp hback with hp | hq
    · exact .single (hp ▸ hnp)
    · exact .head hnp (hclimb.names hlinks hq)
  -- What is reached from the element is met on the way up, which ends at the element.
  have hreached : ∀ b, TransGen (Names elements) n.id b → b ∈ p :: qs := by
    intro b hb
    induction hb with
    | single hb =>
      rw [names_unique hids hb hnp]
      exact List.mem_cons_self
    | @tail b c _ hbc ih =>
      cases hl : links.lookup b with
      | some q =>
        rw [names_unique hids hbc (hlinks b q hl)]
        exact List.mem_cons_of_mem _ (hclimb.next ih hl)
      | none =>
        rw [hclimb.end_unique ih hback hl hfree] at hbc
        rw [names_unique hids hbc hnp]
        exact List.mem_cons_self
  refine ⟨hcycle, fun b hb => ?_⟩
  cases hl : links.lookup b with
  | some q =>
    obtain ⟨m, hm, rfl, -⟩ := h.asked _ _ hl
    exact Nat.le_of_lt (ht.done_lt m hm)
  | none => rw [hclimb.end_unique (hreached b hb) hback hl hfree]

theorem Decided.back_of_last (hlast : LastOfCycle (Names elements) place n.id) :
    n.id ∈ p :: qs := by
  have hnp : Names elements n.id p := ⟨n, ht.mem, rfl, hcand⟩
  have hback : ReflTransGen (Names elements) p n.id := by
    obtain ⟨q, hq, hqn⟩ := TransGen.head'_iff.mp hlast.1
    rwa [names_unique hids hnp hq]
  have hreached : TransGen (Names elements) n.id p := .single hnp
  clear hcand hnp
  induction hback using ReflTransGen.head_induction_on generalizing qs with
  | refl => exact List.mem_cons_self
  | @head b c hbc hcn ih =>
    by_cases hb : b = n.id
    · rw [hb]
      exact List.mem_cons_self
    · obtain ⟨m, hm, rfl, hc⟩ := id hbc
      have hne := ht.place_ne m hm hb
      have hle := hlast.2 _ hreached
      have hmdone := ht.of_lt m hm (by omega)
      have hnot : ¬ LastOfCycle (Names elements) place m.id := by
        intro hm'
        have hge := hm'.2 n.id (TransGen.head' hbc hcn)
        omega
      have hl := (h.exact m hmdone c).mpr ⟨hc, hnot⟩
      cases hclimb with
      | top h' =>
        rw [hl] at h'
        cases h'
      | up h' hclimb =>
        obtain rfl := Option.some.inj (h'.symm.trans hl)
        exact List.mem_cons_of_mem _ (ih hclimb (hreached.tail hbc))

theorem Decided.closesCycle_iff : closesCycle links n.id p = true ↔
    LastOfCycle (Names elements) place n.id := by
  rw [closesCycle, hclimb.above_eq, List.contains_iff_mem]
  exact ⟨h.last_of_back ht hids hcand hclimb, h.back_of_last ht hids hcand hclimb⟩

end Back

theorem lookup_keep_of_ne {m : Node α} (h : m.id ≠ n.id) :
    (keep elements links n).lookup m.id = links.lookup m.id := by
  unfold keep
  split
  · rfl
  · split
    · rfl
    · exact lookup_link_of_ne h

theorem Decided.step (h : Decided elements place done links) (ht : Turn elements place done n)
    (hids : (elements.map (·.id)).Nodup) :
    Decided elements place (n :: done) (keep elements links n) := by
  refine ⟨h.toKept.step ht.fresh, ?_⟩
  intro m hm p
  rcases List.mem_cons.mp hm with rfl | hm
  · have hfree := h.lookup_fresh ht
    cases hcand : candidate? elements m with
    | none => simp [keep, hcand, hfree]
    | some q =>
      obtain ⟨qs, hqs⟩ := h.ends q
      have hcloses := h.closesCycle_iff ht hids hcand hqs
      by_cases hlast : LastOfCycle (Names elements) place m.id
      · simp [keep, hcand, hcloses.mpr hlast, hfree, hlast]
      · have hopen : closesCycle links m.id q = false := by
          rw [← Bool.not_eq_true, hcloses]
          exact hlast
        simp [keep, hcand, hopen, hlast]
  · have hne : m.id ≠ n.id := by
      intro hid
      exact ht.fresh (hid ▸ List.mem_map_of_mem hm)
    rw [lookup_keep_of_ne hne]
    exact h.exact m hm p

theorem turn_of_pairwise (helements : elements = done.reverse ++ n :: rest)
    (hplace : elements.Pairwise fun n m => place n.id < place m.id) :
    Turn elements place done n := by
  rw [helements, List.pairwise_append] at hplace
  obtain ⟨-, hrest, hcross⟩ := hplace
  have hdone : ∀ m ∈ done, place m.id < place n.id :=
    fun m hm => hcross m (List.mem_reverse.mpr hm) n List.mem_cons_self
  have hcases : ∀ m ∈ elements, m ∈ done ∨ m = n ∨ place n.id < place m.id := by
    intro m hm
    rw [helements, List.mem_append, List.mem_reverse, List.mem_cons] at hm
    rcases hm with hm | rfl | hm
    · exact Or.inl hm
    · exact Or.inr (Or.inl rfl)
    · exact Or.inr (Or.inr ((List.pairwise_cons.mp hrest).1 m hm))
  refine ⟨by simp [helements], fun m hm => by simp [helements, hm], hdone, ?_, ?_⟩
  · intro m hm hlt
    rcases hcases m hm with hm | rfl | hgt
    · exact hm
    · exact absurd hlt (Nat.lt_irrefl _)
    · omega
  · intro m hm hne
    rcases hcases m hm with hm | rfl | hgt
    · exact Nat.ne_of_lt (hdone m hm)
    · exact absurd rfl hne
    · exact Nat.ne_of_gt hgt

theorem Decided.foldl (h : Decided elements place done links)
    (hids : (elements.map (·.id)).Nodup) (helements : elements = done.reverse ++ rest)
    (hplace : elements.Pairwise fun n m => place n.id < place m.id) :
    Decided elements place (rest.reverse ++ done) (rest.foldl (keep elements) links) := by
  induction rest generalizing done links with
  | nil => simpa using h
  | cons n rest ih =>
    have hstep := h.step (turn_of_pairwise helements hplace) hids
    have hrest := ih hstep (by simp [helements])
    simpa using hrest

theorem parent?_exact {d : Diagram α}
    (hplace : d.elements.Pairwise fun n m => place n.id < place m.id) (hn : n ∈ d.elements) :
    (build d).parent? n.id = some p ↔
      candidate? d.elements n = some p ∧ ¬ LastOfCycle (Names d.elements) place n.id := by
  have hstart : Decided d.elements place [] [] :=
    { ends := fun id => ⟨[], .top rfl⟩, asked := by simp, exact := by simp }
  have hsplit : d.elements = [].reverse ++ d.elements := rfl
  have hend := hstart.foldl d.elements_nodup hsplit hplace
  exact hend.exact n (by simpa using hn) p

end Frames

end FlowCanvas
