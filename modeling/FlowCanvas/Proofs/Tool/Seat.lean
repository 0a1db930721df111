import FlowCanvas.Tool

/-! Seats of tools. A seat tells where the position of a tool comes from: a slot at its anchor that
is over no group, a free cell, a free place near its first one, or beyond everything. A tool that
settles anywhere but beyond everything is clear of the groups and of the tools before it, and only
one that stays at its anchor may lie over a step. -/

namespace FlowCanvas.Scene

variable {α : Type} [Scalar α] (scene : Scene α) (s : LayoutSettings α)

theorem clear_iff {placed : List (Rect α)} {r : Rect α} :
    scene.clear s placed r = true ↔
      (∀ g ∈ scene.groups, r.intersects g = false) ∧
        ∀ t ∈ placed, r.crowds t s.tools.separation = false := by
  simp [clear, overGroup]

theorem not_blocked_iff {r : Rect α} : scene.blocked r = false ↔
    (∀ g ∈ scene.groups, r.intersects g = false) ∧ ∀ p ∈ scene.steps, r.intersects p = false := by
  simp [blocked, overGroup, overStep]

theorem freeCell?_spec (placed : List (Rect α)) (attempts k : Nat) {p : Point α}
    (hp : (scene.freeCell? s placed attempts k).1 = some p) :
    ∃ j, p = scene.cell s j ∧ scene.blocked (Rect.ofCorner p s.toolSize) = false := by
  induction attempts generalizing k with
  | zero => cases hp
  | succ attempts ih =>
    simp only [freeCell?] at hp
    split at hp
    · exact ih (k + 1) hp
    · rename_i hfree
      cases hp
      rw [Bool.not_eq_true, Bool.or_eq_false_iff] at hfree
      exact ⟨k, rfl, hfree.1⟩

theorem settle_cases (placed : List (Rect α)) (t : ToolPlace α) :
    (scene.clear s placed (Rect.ofCorner t.position s.toolSize) = true ∧
        scene.settle s placed t = t) ∨
      (∃ p ∈ nudges s t.position, scene.clear s placed (Rect.ofCorner p s.toolSize) = true ∧
        scene.blocked (Rect.ofCorner p s.toolSize) = false ∧
        scene.settle s placed t = { t with seat := .nudge, position := p }) ∨
      scene.settle s placed t =
        { t with seat := .beyond, position := scene.beyond s placed t.position.y } := by
  unfold settle
  split
  · rename_i hclear
    exact Or.inl ⟨hclear, rfl⟩
  · dsimp only
    split
    · rename_i p hp
      have hfree := List.find?_some hp
      rw [Bool.and_eq_true, Bool.not_eq_true'] at hfree
      exact Or.inr (Or.inl ⟨p, List.mem_of_find?_eq_some hp, hfree.1, hfree.2, rfl⟩)
    · exact Or.inr (Or.inr rfl)

section Run

variable (f : Frames α) (edges : List Edge)

/-- The places whose positions come from where their seats tell. -/
inductive Seated : ToolPlace α → Prop
  | anchor {tool : String} {p : Point α} (h : scene.anchored? s f edges tool = some p) :
    Seated ⟨tool, .anchor, p⟩
  | cell {tool : String} {k : Nat}
    (h : scene.blocked (Rect.ofCorner (scene.cell s k) s.toolSize) = false) :
    Seated ⟨tool, .cell, scene.cell s k⟩
  | nudge {tool : String} {first p : Point α} (hnear : p ∈ nudges s first)
    (h : scene.blocked (Rect.ofCorner p s.toolSize) = false) : Seated ⟨tool, .nudge, p⟩
  | beyond {tool : String} (placed : List (Rect α)) (y : α) :
    Seated ⟨tool, .beyond, scene.beyond s placed y⟩

variable {f edges} {t : ToolPlace α}

theorem Seated.off_steps (h : scene.Seated s f edges t) (hnear : t.seat ≠ .beyond)
    (hanchor : scene.anchored? s f edges t.id ≠ some t.position) :
    ∀ p ∈ scene.steps, (Rect.ofCorner t.position s.toolSize).intersects p = false := by
  cases h with
  | anchor h => exact absurd h hanchor
  | cell h => exact (scene.not_blocked_iff.mp h).2
  | nudge _ h => exact (scene.not_blocked_iff.mp h).2
  | beyond placed y => exact absurd rfl hnear

theorem seat_seated (placed : List (Rect α)) (k : Nat) (tool : String) :
    scene.Seated s f edges (scene.seat s f edges placed k tool).1 := by
  unfold seat
  split
  · rename_i p hp
    exact .anchor hp
  · split
    · rename_i p next hp
      obtain ⟨j, rfl, hfree⟩ :=
        freeCell?_spec scene s placed s.tools.fallbackAttempts k (p := p) (by rw [hp])
      exact .cell hfree
    · exact .beyond placed _

theorem seats_seated (tools : List String) (placed : List (Rect α)) (k : Nat) :
    ∀ t ∈ scene.seats s f edges placed k tools, scene.Seated s f edges t := by
  induction tools generalizing placed k with
  | nil => exact List.forall_mem_nil _
  | cons tool rest ih =>
    intro t ht
    rcases List.mem_cons.mp ht with rfl | ht
    · exact seat_seated scene s placed k tool
    · exact ih _ _ t ht

theorem settle_seated (placed : List (Rect α)) (h : scene.Seated s f edges t) :
    scene.Seated s f edges (scene.settle s placed t) := by
  rcases scene.settle_cases s placed t with ⟨-, hstay⟩ | ⟨p, hp, -, hfree, hnudge⟩ | hbeyond
  · rw [hstay]
    exact h
  · rw [hnudge]
    exact .nudge hp hfree
  · rw [hbeyond]
    exact .beyond placed _

theorem clear_of_settle (placed : List (Rect α)) (t : ToolPlace α)
    (hnear : (scene.settle s placed t).seat ≠ .beyond) :
    scene.clear s placed (Rect.ofCorner (scene.settle s placed t).position s.toolSize) = true := by
  rcases scene.settle_cases s placed t with ⟨hclear, hstay⟩ | ⟨p, -, hclear, -, hnudge⟩ | hbeyond
  · rw [hstay]
    exact hclear
  · rw [hnudge]
    exact hclear
  · rw [hbeyond] at hnear
    exact absurd rfl hnear

theorem settleAll_split {ts before after : List (ToolPlace α)} {placed : List (Rect α)}
    (h : scene.settleAll s placed ts = before ++ t :: after) :
    ∃ u ∈ ts, t = scene.settle s
      (placed ++ before.map fun u => Rect.ofCorner u.position s.toolSize) u := by
  induction ts generalizing placed before with
  | nil => cases before <;> cases h
  | cons u ts ih =>
    rw [settleAll] at h
    cases before with
    | nil =>
      obtain ⟨rfl, -⟩ := List.cons.inj h
      exact ⟨u, List.mem_cons_self, by simp⟩
    | cons first before =>
      obtain ⟨rfl, hrest⟩ := List.cons.inj h
      obtain ⟨v, hv, rfl⟩ := ih hrest
      exact ⟨v, List.mem_cons_of_mem _ hv, by simp⟩

/-- A tool that is not put beyond everything is over no group and crowds none of the tools before
it, and it is over no step unless it has the first slot at its anchor that is over no group. -/
theorem placeTools_rest {before after : List (ToolPlace α)}
    (h : scene.placeTools s f edges = before ++ t :: after) :
    let r := Rect.ofCorner t.position s.toolSize
    scene.Seated s f edges t ∧
      (t.seat ≠ .beyond →
        (∀ g ∈ scene.groups, r.intersects g = false) ∧
          (∀ u ∈ before,
            r.crowds (Rect.ofCorner u.position s.toolSize) s.tools.separation = false) ∧
          (scene.anchored? s f edges t.id ≠ some t.position →
            ∀ p ∈ scene.steps, r.intersects p = false)) := by
  intro r
  obtain ⟨first, hfirst, hsettle⟩ := settleAll_split scene s h
  have hseated : scene.Seated s f edges t := by
    rw [hsettle]
    exact settle_seated scene s _ (seats_seated scene s _ [] 0 first hfirst)
  refine ⟨hseated, fun hnear => ?_⟩
  have hclear := clear_of_settle scene s _ first (hsettle ▸ hnear)
  rw [← hsettle] at hclear
  obtain ⟨hgroups, htools⟩ := (scene.clear_iff s).mp hclear
  refine ⟨hgroups, fun u hu => ?_, hseated.off_steps scene s hnear⟩
  exact htools _ (List.mem_append_right _ (List.mem_map_of_mem hu))

end Run

/-- Two tools at one step, beside which there are another step and, below, a group. The first tool
stays at its anchor over the other step, and the second one is nudged to below the group. -/
theorem placeTools_rest_nudged :
    let s : LayoutSettings Float32 := .standard
    let d : Diagram Float32 :=
      ⟨[.new "a" .step, .new "b" .step, .new "t" .tool, .new "u" .tool],
        [.new "a" "t" .tool, .new "a" "u" .tool]⟩
    let a : Rect Float32 := ⟨20, 20, 240, 100⟩
    let b : Rect Float32 := ⟨340, 20, 240, 100⟩
    let g : Rect Float32 := ⟨320, 160, 400, 60⟩
    let scene : Scene Float32 := ⟨[("a", a), ("b", b)], [g], [a, b], none⟩
    let t := Rect.ofCorner ⟨320, 20⟩ s.toolSize
    let u := Rect.ofCorner ⟨320, 260⟩ s.toolSize
    scene.placeTools s (Frames.build d) d.edges =
        [⟨"t", .anchor, ⟨320, 20⟩⟩, ⟨"u", .nudge, ⟨320, 260⟩⟩] ∧
      t.intersects b = true ∧ u.intersects g = false ∧ u.crowds t s.tools.separation = false ∧
        u.intersects a = false ∧ u.intersects b = false := by
  intro s d a b g scene t u
  have hplaces : scene.placeTools s (Frames.build d) d.edges =
      [⟨"t", .anchor, ⟨320, 20⟩⟩] ++ ⟨"u", .nudge, ⟨320, 260⟩⟩ :: [] := by
    have hinj (x y : ToolPlace Float32)
        (h : (x.id, x.seat, x.position) = (y.id, y.seat, y.position)) : x = y := by
      cases x
      cases y
      simpa using h
    refine (List.map_inj_right hinj).mp ?_
    decide +kernel
  have hover : t.intersects b = true := by decide +kernel
  have hslot : scene.anchored? s (Frames.build d) d.edges "u" ≠ some ⟨320, 260⟩ := by
    decide +kernel
  obtain ⟨-, hrest⟩ := placeTools_rest scene s hplaces
  have hnear : Seat.nudge ≠ Seat.beyond := by decide
  obtain ⟨hgroups, htools, hsteps⟩ := hrest hnear
  have hg : u.intersects g = false := hgroups g (List.mem_singleton_self g)
  have ht : u.crowds t s.tools.separation = false :=
    htools ⟨"t", .anchor, ⟨320, 20⟩⟩ (List.mem_singleton_self _)
  have ha : u.intersects a = false := hsteps hslot a (by simp [scene])
  have hb : u.intersects b = false := hsteps hslot b (by simp [scene])
  exact ⟨hplaces, hover, hg, ht, ha, hb⟩

end FlowCanvas.Scene
