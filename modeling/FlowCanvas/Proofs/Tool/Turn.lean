import FlowCanvas.Tool

/-! Tools in turn. Where a tool goes depends on the scene, on its anchor and on the tools that were
placed before it. So the first of some tools go where they would go without the others. -/

namespace FlowCanvas.Scene

variable {α : Type} [Scalar α] (scene : Scene α) (s : LayoutSettings α)

section Anchor

variable {f f' : Frames α} {edges edges' : List Edge}

theorem seat_congr {tool : String}
    (h : scene.anchor? f' edges' tool = scene.anchor? f edges tool)
    (placed : List (Rect α)) (k : Nat) :
    scene.seat s f' edges' placed k tool = scene.seat s f edges placed k tool := by
  rw [seat, anchored?, h, seat, anchored?]

theorem seats_congr {tools : List String}
    (h : ∀ tool ∈ tools, scene.anchor? f' edges' tool = scene.anchor? f edges tool)
    (placed : List (Rect α)) (k : Nat) :
    scene.seats s f' edges' placed k tools = scene.seats s f edges placed k tools := by
  induction tools generalizing placed k with
  | nil => rfl
  | cons tool rest ih =>
    have hrest := ih fun t ht => h t (List.mem_cons_of_mem _ ht)
    simp only [seats, seat_congr scene s (h tool List.mem_cons_self), hrest]

end Anchor

variable (f : Frames α) (edges : List Edge)

theorem seats_first (placed : List (Rect α)) (k : Nat) (tools more : List String) :
    scene.seats s f edges placed k tools <+: scene.seats s f edges placed k (tools ++ more) := by
  induction tools generalizing placed k with
  | nil => exact List.nil_prefix
  | cons tool rest ih =>
    simp only [List.cons_append, seats]
    exact List.cons_prefix_cons.mpr ⟨rfl, ih _ _⟩

theorem settleAll_first (placed : List (Rect α)) {ts us : List (ToolPlace α)} (h : ts <+: us) :
    scene.settleAll s placed ts <+: scene.settleAll s placed us := by
  induction ts generalizing placed us with
  | nil => exact List.nil_prefix
  | cons t ts ih =>
    obtain ⟨more, rfl⟩ := h
    simp only [List.cons_append, settleAll]
    exact List.cons_prefix_cons.mpr ⟨rfl, ih _ (List.prefix_append ts more)⟩

def placesOf (tools : List String) : List (ToolPlace α) :=
  scene.settleAll s [] (scene.seats s f edges [] 0 tools)

theorem placesOf_ids (tools : List String) :
    (scene.placesOf s f edges tools).map (·.id) = tools := by
  rw [placesOf, settleAll_ids, seats_ids]

theorem placesOf_first {tools more : List String} (h : f.tools.map (·.id) = tools ++ more) :
    scene.placesOf s f edges tools <+: scene.placeTools s f edges := by
  rw [placeTools, h]
  exact settleAll_first scene s [] (seats_first scene s f edges [] 0 tools more)

theorem find?_placeTools {tools more : List String} (h : f.tools.map (·.id) = tools ++ more)
    {tool : String} (htool : tool ∈ tools) :
    (scene.placeTools s f edges).find? (·.id == tool) =
      (scene.placesOf s f edges tools).find? (·.id == tool) := by
  cases hfind : (scene.placesOf s f edges tools).find? (·.id == tool) with
  | some place => exact (placesOf_first scene s f edges h).find?_eq_some hfind
  | none =>
    rw [← placesOf_ids scene s f edges tools] at htool
    obtain ⟨place, hplace, hid⟩ := List.mem_map.mp htool
    simpa [hid] using List.find?_eq_none.mp hfind place hplace

end FlowCanvas.Scene
