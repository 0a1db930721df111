import FlowCanvas.Proofs.Json.Origin
import FlowCanvas.Proofs.Number.Defined
import FlowCanvas.Proofs.Settings.Read

/-! Merging texts into settings. A patch overwrites what it holds and leaves the rest, so a second
time it changes nothing, whatever the settings were before. Starting from the standard settings, the
grid stays positive, there is a fallback column, and the preview has the background of the theme. -/

namespace FlowCanvas

section Results

variable {ε β γ : Type} {x : Except ε β}

theorem bind_eq_ok {f : β → Except ε γ} {c : γ} (h : x.bind f = .ok c) :
    ∃ b, x = .ok b ∧ f b = .ok c := by
  cases x with
  | error e => cases h
  | ok b => exact ⟨b, rfl, h⟩

theorem map_eq_ok {f : β → γ} {c : γ} (h : x.map f = .ok c) : ∃ b, x = .ok b ∧ f b = c := by
  cases x with
  | error e => cases h
  | ok b => exact ⟨b, rfl, Except.ok.inj h⟩

theorem getD_getD_self (o : Option β) (b : β) : o.getD (o.getD b) = o.getD b := by
  cases o <;> rfl

end Results

section Again

variable {α : Type}

theorem ThemePatch.apply_apply (p : ThemePatch α) (t : Theme α) :
    p.apply (p.apply t) = p.apply t := by
  simp only [ThemePatch.apply, getD_getD_self]

theorem ToolPatch.apply_apply (p : ToolPatch α) (t : ToolSettings α) :
    p.apply (p.apply t) = p.apply t := by
  simp only [ToolPatch.apply, getD_getD_self]

variable [Scalar α]

theorem checkDirection_again {d d' : Direction} {token : Option String}
    (h : checkDirection d token = .ok d') : checkDirection d' token = .ok d' := by
  cases token with
  | none => rfl
  | some t => exact h

theorem checkGrid_again {x x' : α} {o : Option α} (h : checkGrid x o = .ok x') :
    checkGrid x' o = .ok x' := by
  cases o with
  | none => rfl
  | some g => exact h

theorem LayoutPatch.apply_again {p : LayoutPatch α} {s s' : LayoutSettings α}
    (h : p.apply s = .ok s') : p.apply s' = .ok s' := by
  obtain ⟨direction, hdirection, h⟩ := bind_eq_ok h
  obtain ⟨grid, hgrid, rfl⟩ := map_eq_ok h
  have htools : (p.tools.map fun t => t.apply ((p.tools.map fun t => t.apply s.tools).getD
      s.tools)).getD ((p.tools.map fun t => t.apply s.tools).getD s.tools) =
        (p.tools.map fun t => t.apply s.tools).getD s.tools := by
    cases p.tools with
    | none => rfl
    | some t => exact t.apply_apply s.tools
  simp only [apply, checkDirection_again hdirection, checkGrid_again hgrid, getD_getD_self, htools,
    Except.bind, Except.map]

/-- A named theme starts anew and the variables then overwrite it. An unknown one leaves what the
variables had overwritten before. -/
theorem Settings.restyle_again (s : Settings α) (name : Option String)
    (p : Option (ThemePatch α)) :
    (((s.useTheme name).useVariables p).useTheme name).useVariables p =
      (s.useTheme name).useVariables p := by
  cases name with
  | none =>
    cases p with
    | none => rfl
    | some v => simp only [useTheme, useVariables, v.apply_apply, getD_getD_self]
  | some n =>
    cases p with
    | none => simp only [useTheme, useVariables, getD_getD_self]
    | some v =>
      simp only [useTheme, useVariables]
      -- Either the theme starts anew both times, or the variables are applied to their own result.
      cases (Theme.named? n : Option (Theme α)) with
      | none => simp only [Option.getD_none, ThemePatch.apply, getD_getD_self]
      | some t => rfl

theorem Settings.restyle_layout (s : Settings α) (layout : LayoutSettings α) (name : Option String)
    (p : Option (ThemePatch α)) :
    (({ s with layout }.useTheme name).useVariables p) =
      { (s.useTheme name).useVariables p with layout } := by
  cases name <;> cases p <;> rfl

theorem Settings.restyle_layout_eq (s : Settings α) (name : Option String)
    (p : Option (ThemePatch α)) : ((s.useTheme name).useVariables p).layout = s.layout := by
  cases name <;> cases p <;> rfl

theorem Patch.apply_again {p : Patch α} {s s' : Settings α} (h : p.apply s = .ok s') :
    p.apply s' = .ok s' := by
  unfold apply at h ⊢
  cases hlayout : p.layout with
  | none =>
    rw [hlayout] at h
    cases h
    dsimp only
    rw [Settings.restyle_again]
  | some l =>
    rw [hlayout] at h
    obtain ⟨layout, hl, rfl⟩ := map_eq_ok h
    dsimp only
    rw [Settings.restyle_layout, Settings.restyle_again, l.apply_again hl]
    rfl

end Again

theorem Settings.merge_again {s s' : Settings Float32} {text : String}
    (h : s.merge text = .ok s') : s'.merge text = .ok s' := by
  unfold merge at h ⊢
  cases hread : Patch.read? text with
  | none => rw [hread] at h; cases h
  | some p =>
    rw [hread] at h
    exact Patch.apply_again h

section Reading

variable {β : Type} {P : Number → Prop} {fs : List (String × Json)} {key : String} {j : Json}

def FieldsOf (P : Number → Prop) (fs : List (String × Json)) : Prop :=
  ∀ f ∈ fs, f.2.AllNumbers P

theorem fieldsOf_record? {known : List String} (hj : j.AllNumbers P)
    (h : j.record? known = some fs) : FieldsOf P fs := by
  cases j with
  | object gs =>
    change (if _ then some gs else none) = some fs at h
    split at h
    · cases h
      exact fun f hf m hm => hj m (Json.fieldNumbers_subset_of_mem hf hm)
    · cases h
  | array items =>
    rw [Json.record?] at h
    split at h
    · cases h
      exact fun f hf m hm => hj m (Json.itemNumbers_subset_of_mem (List.of_mem_zip hf).2 hm)
    · cases h
  | _ => cases h

theorem exists_of_part? {read : Json → Option β} {y : β}
    (h : part? fs key read = some (some y)) : ∃ v, fs.lookup key = some v ∧ read v = some y := by
  cases hlookup : fs.lookup key with
  | none =>
    rw [part?, optional, hlookup] at h
    cases h
  | some v =>
    rcases part?_of_lookup hlookup h with ⟨-, hnone⟩ | ⟨y', hy, he⟩
    · cases hnone
    · cases he
      exact ⟨v, rfl, hy⟩

theorem exists_of_single? {x : Float32} (hj : j.AllNumbers P) (h : j.single? = some x) :
    ∃ m, P m ∧ m.toSingle = x := by
  cases j with
  | number n =>
    cases h
    exact ⟨n, hj n List.mem_cons_self, rfl⟩
  | _ => cases h

theorem allNumbers_of_part? {known : List String} {read : Json → Option β} {y : β}
    (hj : j.AllNumbers P) (hfs : j.record? known = some fs)
    (h : part? fs key read = some (some y)) : ∃ v, v.AllNumbers P ∧ read v = some y := by
  obtain ⟨v, hv, hread⟩ := exists_of_part? h
  exact ⟨v, fieldsOf_record? hj hfs _ (mem_of_lookup hv), hread⟩

theorem exists_of_bind {γ : Type} {x : Option β} {f : β → Option γ} {z : γ}
    (h : (x >>= f) = some z) : ∃ y, x = some y ∧ f y = some z :=
  Option.bind_eq_some_iff.mp h

theorem LayoutPatch.part_gridSize {p : LayoutPatch Float32} (h : ofJson? j = some p) :
    ∃ fs, j.record? keys = some fs ∧ part? fs "gridSize" Json.single? = some p.gridSize := by
  obtain ⟨fs, hfs, h⟩ := exists_of_bind h
  refine ⟨fs, hfs, ?_⟩
  -- One part after the other, up to the patch that is made of them.
  repeat
    with_reducible replace h := exists_of_bind h
    obtain ⟨_, _, h⟩ := h
  cases h
  assumption

theorem Patch.part_layout {p : Patch Float32} (h : ofJson? j = some p) :
    ∃ fs, j.record? keys = some fs ∧ part? fs "layout" LayoutPatch.ofJson? = some p.layout := by
  obtain ⟨fs, hfs, h⟩ := exists_of_bind h
  refine ⟨fs, hfs, ?_⟩
  repeat
    with_reducible replace h := exists_of_bind h
    obtain ⟨_, _, h⟩ := h
  cases h
  assumption

def Patch.GridDefined (p : Patch Float32) : Prop :=
  ∀ l, p.layout = some l → ∀ x, l.gridSize = some x → Binary.Defined (Binary.ofSingle x)

theorem Patch.gridDefined {p : Patch Float32} {text : String} (h : read? text = some p) :
    p.GridDefined := by
  unfold read? at h
  split at h
  · rename_i j hvalue
    intro l hl x hx
    obtain ⟨fs, hfs, hlayout⟩ := part_layout h
    rw [hl] at hlayout
    obtain ⟨v, hv, hpatch⟩ :=
      allNumbers_of_part? (Json.Strict.allNumbers_value? hvalue) hfs hlayout
    obtain ⟨gs, hgs, hgrid⟩ := LayoutPatch.part_gridSize hpatch
    rw [hx] at hgrid
    obtain ⟨u, hu, hsingle⟩ := allNumbers_of_part? hv hgs hgrid
    obtain ⟨m, ⟨n, hm⟩, rfl⟩ := exists_of_single? hu hsingle
    exact Json.Numeral.strict?_defined hm
  · cases h

end Reading

section Soundness

/-- What is asked of settings: a grid above zero, a fallback column at least, and one background. -/
structure Settings.Sound {α : Type} [Scalar α] (s : Settings α) : Prop where
  grid : Scalar.zero < s.layout.gridSize
  columns : 1 ≤ s.layout.tools.fallbackColumns
  background : s.preview.background = s.theme.background

variable {s s' : Settings Float32}

theorem checkGrid_positive {x x' : Float32} {o : Option Float32} (hx : Scalar.zero < x)
    (ho : ∀ y, o = some y → Binary.Defined (Binary.ofSingle y)) (h : checkGrid x o = .ok x') :
    Scalar.zero < x' := by
  cases o with
  | none =>
    cases h
    exact hx
  | some y =>
    rw [checkGrid] at h
    split at h
    · cases h
    · rename_i hy
      cases h
      exact (ho _ rfl).zero_lt_single hy

theorem ToolPatch.one_le_fallbackColumns {α : Type} (p : ToolPatch α) {t : ToolSettings α}
    (h : 1 ≤ t.fallbackColumns) : 1 ≤ (p.apply t).fallbackColumns := by
  cases hcolumns : p.fallbackColumns with
  | none =>
    rw [apply, hcolumns]
    exact h
  | some n =>
    rw [apply, hcolumns]
    exact Nat.le_max_right n 1

theorem Settings.restyle_background {α : Type} [Scalar α] {s : Settings α}
    (h : s.preview.background = s.theme.background) (name : Option String)
    (p : Option (ThemePatch α)) :
    ((s.useTheme name).useVariables p).preview.background =
      ((s.useTheme name).useVariables p).theme.background := by
  have htheme : (s.useTheme name).preview.background = (s.useTheme name).theme.background := by
    cases name with
    | none => exact h
    | some n => rfl
  cases p with
  | none => exact htheme
  | some v => exact congrArg v.background.getD htheme

theorem LayoutPatch.apply_eq_ok {α : Type} [Scalar α] {p : LayoutPatch α} {s s' : LayoutSettings α}
    (h : p.apply s = .ok s') : checkGrid s.gridSize p.gridSize = .ok s'.gridSize ∧
      s'.tools = (p.tools.map fun t => t.apply s.tools).getD s.tools := by
  obtain ⟨direction, -, h⟩ := bind_eq_ok h
  obtain ⟨grid, hgrid, rfl⟩ := map_eq_ok h
  exact ⟨hgrid, rfl⟩

theorem Settings.Sound.apply {p : Patch Float32} (hs : s.Sound) (hp : p.GridDefined)
    (h : p.apply s = .ok s') : s'.Sound := by
  have hbackground := Settings.restyle_background hs.background p.theme p.themeVariables
  have hlayout := s.restyle_layout_eq p.theme p.themeVariables
  unfold Patch.apply at h
  cases hpatch : p.layout with
  | none =>
    rw [hpatch] at h
    cases h
    exact ⟨hlayout ▸ hs.grid, hlayout ▸ hs.columns, hbackground⟩
  | some l =>
    rw [hpatch] at h
    dsimp only at h
    rw [hlayout] at h
    obtain ⟨layout, hl, rfl⟩ := map_eq_ok h
    obtain ⟨hgrid, htools⟩ := LayoutPatch.apply_eq_ok hl
    have hcolumns : 1 ≤ layout.tools.fallbackColumns := by
      rw [htools]
      cases l.tools with
      | none => exact hs.columns
      | some t => exact t.one_le_fallbackColumns hs.columns
    exact ⟨checkGrid_positive hs.grid (hp l hpatch) hgrid, hcolumns, hbackground⟩

theorem Settings.Sound.merge {text : String} (hs : s.Sound) (h : s.merge text = .ok s') :
    s'.Sound := by
  unfold Settings.merge at h
  cases hread : Patch.read? text with
  | none => rw [hread] at h; cases h
  | some p =>
    rw [hread] at h
    exact hs.apply (Patch.gridDefined hread) h

theorem Settings.standard_sound : (Settings.standard : Settings Float32).Sound where
  grid := by decide
  columns := by decide
  background := Settings.standard_background

/-- What settings become when a text is merged. A text that is rejected leaves them as they were. -/
def Settings.offer (s : Settings Float32) (text : String) : Settings Float32 :=
  match s.merge text with
  | .ok s' => s'
  | .error _ => s

theorem Settings.Sound.offer (hs : s.Sound) (text : String) : (s.offer text).Sound := by
  unfold Settings.offer
  split
  · exact hs.merge ‹_›
  · exact hs

theorem Settings.Sound.foldl (hs : s.Sound) (texts : List String) :
    (texts.foldl Settings.offer s).Sound := by
  induction texts generalizing s with
  | nil => exact hs
  | cons text texts ih => exact ih (hs.offer text)

/-- However many texts are merged into the standard settings, they stay sound. In any settings at
all, a text that has been merged can be merged again and changes nothing. -/
theorem Settings.merge_sound_and_idempotent :
    (∀ texts : List String, (texts.foldl Settings.offer Settings.standard).Sound) ∧
      ∀ (s s' : Settings Float32) (text : String), s.merge text = .ok s' →
        s'.merge text = .ok s' :=
  ⟨fun texts => Settings.standard_sound.foldl texts, fun _ _ _ h => merge_again h⟩

theorem Settings.merge_sound_unknown_theme :
    let rejected := "\x7b\"theme\":\"classic\",\"layout\":\x7b\"gridSize\":-1\x7d\x7d"
    let text := "\x7b\"theme\":\"sepia\",\"themeVariables\":\x7b\"background\":\"#111\"\x7d," ++
      "\"layout\":\x7b\"gridSize\":0.5,\"tools\":\x7b\"fallbackColumns\":0\x7d\x7d\x7d"
    (standard.merge rejected).isOk = false ∧ ([rejected, text].foldl offer standard).Sound ∧
      ∃ s', standard.merge text = .ok s' ∧ s'.merge text = .ok s' ∧
        s'.layout.tools.fallbackColumns = 1 ∧ s'.preview.background = "#111" := by
  intro rejected text
  have hrejected : (standard.merge rejected).isOk = false := by decide +kernel
  have htext : ((standard.merge text).toOption.any fun s =>
      s.layout.tools.fallbackColumns = 1 ∧ s.preview.background = "#111") = true := by
    decide +kernel
  obtain ⟨hsound, hagain⟩ := merge_sound_and_idempotent
  cases hmerge : standard.merge text with
  | error e =>
    rw [hmerge] at htext
    cases htext
  | ok s' =>
    rw [hmerge] at htext
    exact ⟨hrejected, hsound _, s', rfl, hagain _ _ _ hmerge, of_decide_eq_true htext⟩

end Soundness

end FlowCanvas
