import FlowCanvas.Proofs.Json.Plain
import FlowCanvas.Settings.Patch

/-! Reading a patch. Each part is looked up under its key, so the order of the fields does not
matter and a plain value is read as its canonical form is. What is read with no other fields than
the known ones can all be looked at, and it is not deep. -/

namespace FlowCanvas

namespace Json

/-- Whether an object has no other fields than the `known` ones. What is not an object has none, but
a sequence is not the form that is meant. -/
def hasOnly (known : List String) : Json → Bool
  | .object fields => fields.all fun f => known.contains f.1
  | .array _ => false
  | _ => true

def member (key : String) : Json → Json
  | .object fields => (fields.lookup key).getD .null
  | _ => .null

/-- All of the value can be looked at, and no more than `d` containers are open in it at once. -/
structure Within (d : Nat) (j : Json) : Prop where
  readable : j.isReadable = true
  depth : j.depth ≤ d

end Json

open Json (Within Plain canonicalFields)

variable {β : Type} {fs gs : List (String × Json)} {key : String} {j : Json}

section Canonical

/-- Some plain fields and the same ones in canonical form, in whatever order. -/
structure Canonized (fs gs : List (String × Json)) : Prop where
  lookup : ∀ key, gs.lookup key = (fs.lookup key).map Json.canonical
  plain : ∀ key j, fs.lookup key = some j → j.Plain

theorem fields?_of_nodup (known : List String) (h : (fs.map (·.1)).Nodup) :
    (Json.object fs).fields? known = some fs := by
  have honce : (known.all fun k => fs.countP (·.1 == k) ≤ 1) = true := by
    rw [List.all_eq_true]
    intro k _
    have hcount := List.nodup_iff_count_le_one.mp h k
    rw [List.count, List.countP_map] at hcount
    exact decide_eq_true hcount
  rw [Json.fields?, if_pos honce]

theorem record?_of_nodup (known : List String) (h : (fs.map (·.1)).Nodup) :
    (Json.object fs).record? known = some fs := fields?_of_nodup known h

theorem canonized_object (h : (Json.object fs).Plain) : Canonized fs (canonicalFields fs) where
  lookup := Json.lookup_canonicalFields h.nodup
  plain := fun _ _ hj => h.of_mem (mem_of_lookup hj)

theorem canonized_zip {js : List Json} (h : (Json.array js).Plain) (known : List String) :
    Canonized (known.zip js) (known.zip (Json.canonicalItems js)) where
  lookup := fun key => by
    rw [Json.canonicalItems_eq_map, List.zip_map_right]
    exact lookup_rename Function.injective_id Json.canonical _ key
  plain := fun _ _ hj => h.of_mem_items (List.of_mem_zip (mem_of_lookup hj)).2

theorem nullable_of_ne_null (read : Json → Option β) (h : j ≠ .null) :
    nullable read j = (read j).map some := by
  rw [nullable]
  exact h

/-- A reader that takes the canonical form of a plain value for the value. -/
def Steady (read : Json → Option β) : Prop := ∀ j : Json, j.Plain → read j.canonical = read j

theorem Steady.nullable {read : Json → Option β} (h : Steady read) :
    Steady (FlowCanvas.nullable read) := by
  intro j hj
  by_cases hnull : j = .null
  · rw [hnull]
    rfl
  · rw [nullable_of_ne_null read (hj.canonical_ne_null hnull), nullable_of_ne_null read hnull,
      h j hj]

theorem Steady.part? {read : Json → Option β} (h : Steady read) (hfs : Canonized fs gs)
    (key : String) : FlowCanvas.part? gs key read = FlowCanvas.part? fs key read := by
  rw [FlowCanvas.part?, optional, hfs.lookup, FlowCanvas.part?, optional]
  cases hlookup : fs.lookup key with
  | none => rfl
  | some j => exact h.nullable j (hfs.plain key j hlookup)

theorem steady_text? : Steady Json.text? := by
  intro j _
  cases j with
  | number n =>
    rw [Json.canonical]
    split <;> rfl
  | _ => rfl

theorem steady_single? : Steady Json.single? := by
  intro j hj
  cases j with
  | number n => rw [Json.canonical, if_pos (hj.portable n List.mem_cons_self)]
  | _ => rfl

theorem steady_count? : Steady Json.count? := by
  intro j hj
  cases j with
  | number n => rw [Json.canonical, if_pos (hj.portable n List.mem_cons_self)]
  | _ => rfl

theorem Engine.ofJson?_object (h : ∀ s, fs ≠ [(s, .null)]) : ofJson? (.object fs) = none := by
  rw [ofJson?]
  · nofun
  · rintro s hs
    cases hs
    exact h s rfl

theorem steady_engine : Steady Engine.ofJson? := by
  intro j hj
  cases j with
  | number n => rw [Json.canonical, if_pos (hj.portable n List.mem_cons_self)]
  | object fs =>
    by_cases hnamed : ∃ s, fs = [(s, .null)]
    · obtain ⟨s, rfl⟩ := hnamed
      rfl
    · have hfs : ∀ s, fs ≠ [(s, .null)] := fun s hs => hnamed ⟨s, hs⟩
      have hcanonical : ∀ s, canonicalFields fs ≠ [(s, .null)] := by
        -- The canonical fields are the same ones in another order, so one null field among them
        -- was the only field before.
        intro s hs
        have hperm := Json.canonicalFields_perm hj.nodup
        rw [hs] at hperm
        obtain ⟨f, hf, hnull⟩ := List.map_eq_singleton_iff.mp (List.perm_singleton.mp hperm.symm)
        have hplain : f.2.Plain := hj.of_mem (hf ▸ List.mem_singleton_self f)
        by_cases hv : f.2 = .null
        · exact hfs f.1 (hv ▸ hf)
        · exact hplain.canonical_ne_null hv (congrArg Prod.snd hnull)
      rw [Json.canonical, Engine.ofJson?_object hcanonical, Engine.ofJson?_object hfs]
  | _ => rfl

theorem steady_record {known : List String} {read : Json → Option β}
    {parts : List (String × Json) → Option β} (hread : ∀ j, read j = (j.record? known).bind parts)
    (hparts : ∀ fs gs, Canonized fs gs → parts gs = parts fs) : Steady read := by
  intro j hj
  rw [hread, hread]
  cases j with
  | object fs =>
    -- Without repeated keys both forms are records, and the parts are looked up in either.
    have hleft : (Json.object fs).canonical.record? known = some (canonicalFields fs) :=
      record?_of_nodup known (Json.nodup_canonicalFields hj.nodup)
    rw [hleft, record?_of_nodup known hj.nodup]
    exact hparts _ _ (canonized_object hj)
  | array js =>
    have hlength : (Json.canonicalItems js).length = js.length := by
      rw [Json.canonicalItems_eq_map, List.length_map]
    rw [Json.canonical, Json.record?, Json.record?, hlength]
    split
    · exact hparts _ _ (canonized_zip hj known)
    · rfl
  | number n => rw [Json.canonical, if_pos (hj.portable n List.mem_cons_self)]
  | _ => rfl

theorem ThemePatch.steady : Steady ThemePatch.ofJson? :=
  steady_record (fun _ => rfl) fun fs gs h => by
    simp only [steady_text?.part? h, steady_single?.part? h]

theorem ToolPatch.steady : Steady ToolPatch.ofJson? :=
  steady_record (fun _ => rfl) fun fs gs h => by
    simp only [steady_count?.part? h, steady_single?.part? h]

theorem LayoutPatch.steady : Steady LayoutPatch.ofJson? :=
  steady_record (fun _ => rfl) fun fs gs h => by
    simp only [steady_text?.part? h, steady_engine.part? h, steady_single?.part? h,
      steady_count?.part? h, ToolPatch.steady.part? h]

theorem Patch.steady : Steady Patch.ofJson? :=
  steady_record (fun _ => rfl) fun fs gs h => by
    simp only [steady_text?.part? h, ThemePatch.steady.part? h, LayoutPatch.steady.part? h]

end Canonical

section Depth

variable {γ : Type} {d : Nat} {read : Json → Option β} {known : List String}

theorem Json.within_null (d : Nat) : Json.null.Within d := ⟨rfl, Nat.zero_le d⟩

theorem Json.Within.mono {e : Nat} (h : j.Within d) (hle : d ≤ e) : j.Within e :=
  ⟨h.readable, Nat.le_trans h.depth hle⟩

def Takes (d : Nat) (read : Json → Option β) : Prop := ∀ j y, read j = some y → j.Within d

theorem takes_text? (d : Nat) : Takes d Json.text? := by
  rintro j y h
  cases j with
  | text s => exact ⟨rfl, Nat.zero_le d⟩
  | _ => cases h

theorem takes_single? (d : Nat) : Takes d Json.single? := by
  rintro j y h
  cases j with
  | number n => exact ⟨rfl, Nat.zero_le d⟩
  | _ => cases h

theorem takes_count? (d : Nat) : Takes d Json.count? := by
  rintro j y h
  cases j with
  | number n => exact ⟨rfl, Nat.zero_le d⟩
  | _ => cases h

theorem takes_engine (d : Nat) : Takes (d + 1) Engine.ofJson? := by
  rintro j y h
  unfold Engine.ofJson? at h
  split at h
  · exact ⟨rfl, Nat.zero_le _⟩
  · exact ⟨rfl, Nat.le_add_left 1 d⟩
  · cases h

def Covered (d : Nat) (fs : List (String × Json)) (keys : List String) : Prop :=
  ∀ key ∈ keys, ∀ v, fs.lookup key = some v → v.Within d

theorem covered_nil : Covered d fs [] := nofun

theorem part?_of_lookup {read : Json → Option β} {v : Json} {x : Option β}
    (hv : fs.lookup key = some v) (h : part? fs key read = some x) :
    (v = .null ∧ x = none) ∨ ∃ y, read v = some y ∧ x = some y := by
  rw [part?, optional, hv] at h
  dsimp only at h
  by_cases hnull : v = .null
  · rw [hnull] at h
    cases h
    exact .inl ⟨hnull, rfl⟩
  · rw [nullable_of_ne_null read hnull] at h
    obtain ⟨y, hy, rfl⟩ := Option.map_eq_some_iff.mp h
    exact .inr ⟨y, hy, rfl⟩

theorem covered_cons {f : Option β → Option γ} {z : γ} (h : (part? fs key read).bind f = some z)
    (hread : ∀ v y, fs.lookup key = some v → read v = some y → v.Within d)
    (hrest : ∀ x, f x = some z → Covered d fs known) : Covered d fs (key :: known) := by
  obtain ⟨x, hpart, hz⟩ := Option.bind_eq_some_iff.mp h
  refine List.forall_mem_cons.mpr ⟨fun v hv => ?_, hrest x hz⟩
  rcases part?_of_lookup hv hpart with ⟨rfl, -⟩ | ⟨y, hy, -⟩
  · exact Json.within_null d
  · exact hread v y hv hy

theorem Takes.covered {f : Option β → Option γ} {z : γ} (htakes : Takes d read)
    (h : (part? fs key read).bind f = some z) (hrest : ∀ x, f x = some z → Covered d fs known) :
    Covered d fs (key :: known) :=
  covered_cons h (fun v y _ => htakes v y) hrest

theorem within_record (hkeys : (Json.object fs).hasOnly known = true)
    (hnodup : (fs.map (·.1)).Nodup) (h : Covered d fs known) :
    (Json.object fs).Within (d + 1) := by
  have hfield : ∀ f ∈ fs, f.2.Within d := by
    intro f hf
    have hknown : f.1 ∈ known := List.contains_iff_mem.mp (List.all_eq_true.mp hkeys f hf)
    exact h f.1 hknown f.2 (lookup_eq_of_mem hnodup hf)
  exact ⟨Json.fieldsReadable_iff.mpr fun f hf => (hfield f hf).readable,
    Nat.succ_le_succ (Json.fieldsDepth_le_iff.mpr fun f hf => (hfield f hf).depth)⟩

theorem object_of_record? (hkeys : j.hasOnly known = true)
    (h : j.record? known = some fs) : j = .object fs := by
  cases j with
  | object gs =>
    rw [Json.record?, Json.fields?] at h
    · split at h
      · cases h
        rfl
      · cases h
    · nofun
  | array items => cases hkeys
  | _ => cases h

theorem Json.member_of_lookup {v : Json} (h : fs.lookup key = some v) :
    (Json.object fs).member key = v := by
  rw [member, h, Option.getD_some]

theorem ThemePatch.within {p : ThemePatch Float32} (h : ofJson? j = some p)
    (hkeys : j.hasOnly keys = true) (hunrepeated : j.isUnrepeated = true) : j.Within 1 := by
  obtain ⟨fs, hfs, hparts⟩ := Option.bind_eq_some_iff.mp h
  obtain rfl := object_of_record? hkeys hfs
  have htext := takes_text? 0
  refine within_record hkeys (Json.fieldsUnrepeated_iff.mp hunrepeated).1 ?_
  exact htext.covered hparts fun _ h => (takes_single? 0).covered h fun _ h =>
    htext.covered h fun _ h => htext.covered h fun _ h => htext.covered h fun _ h =>
    htext.covered h fun _ h => htext.covered h fun _ h => htext.covered h fun _ h =>
    htext.covered h fun _ h => htext.covered h fun _ h => htext.covered h fun _ h =>
    htext.covered h fun _ _ => covered_nil

theorem ToolPatch.within {p : ToolPatch Float32} (h : ofJson? j = some p)
    (hkeys : j.hasOnly keys = true) (hunrepeated : j.isUnrepeated = true) : j.Within 1 := by
  obtain ⟨fs, hfs, hparts⟩ := Option.bind_eq_some_iff.mp h
  obtain rfl := object_of_record? hkeys hfs
  have hsingle := takes_single? 0
  have hcount := takes_count? 0
  refine within_record hkeys (Json.fieldsUnrepeated_iff.mp hunrepeated).1 ?_
  exact hsingle.covered hparts fun _ h => hsingle.covered h fun _ h => hcount.covered h fun _ h =>
    hcount.covered h fun _ h => hcount.covered h fun _ _ => covered_nil

theorem LayoutPatch.within {p : LayoutPatch Float32} (h : ofJson? j = some p)
    (hkeys : j.hasOnly keys = true) (htools : (j.member "tools").hasOnly ToolPatch.keys = true)
    (hunrepeated : j.isUnrepeated = true) : j.Within 2 := by
  obtain ⟨fs, hfs, hparts⟩ := Option.bind_eq_some_iff.mp h
  obtain rfl := object_of_record? hkeys hfs
  obtain ⟨hnodup, hfields⟩ := Json.fieldsUnrepeated_iff.mp hunrepeated
  have hsingle := takes_single? 1
  have htool : ∀ v y, fs.lookup "tools" = some v → ToolPatch.ofJson? v = some y → v.Within 1 := by
    intro v y hv hy
    rw [Json.member_of_lookup hv] at htools
    exact ToolPatch.within hy htools (hfields _ (mem_of_lookup hv))
  refine within_record hkeys hnodup ?_
  exact (takes_text? 1).covered hparts fun _ h => (takes_engine 0).covered h fun _ h =>
    hsingle.covered h fun _ h => hsingle.covered h fun _ h => hsingle.covered h fun _ h =>
    hsingle.covered h fun _ h => hsingle.covered h fun _ h => hsingle.covered h fun _ h =>
    hsingle.covered h fun _ h => hsingle.covered h fun _ h => hsingle.covered h fun _ h =>
    hsingle.covered h fun _ h => hsingle.covered h fun _ h => hsingle.covered h fun _ h =>
    hsingle.covered h fun _ h => (takes_count? 1).covered h fun _ h =>
    covered_cons h htool fun _ _ => covered_nil

namespace Patch

/-- Every object has the keys of its place only. -/
structure OwnKeys (j : Json) : Prop where
  patch : j.hasOnly keys = true
  theme : (j.member "themeVariables").hasOnly ThemePatch.keys = true
  layout : (j.member "layout").hasOnly LayoutPatch.keys = true
  tools : ((j.member "layout").member "tools").hasOnly ToolPatch.keys = true

instance : DecidablePred OwnKeys := fun j =>
  decidable_of_iff (j.hasOnly keys = true ∧
      (j.member "themeVariables").hasOnly ThemePatch.keys = true ∧
      (j.member "layout").hasOnly LayoutPatch.keys = true ∧
      ((j.member "layout").member "tools").hasOnly ToolPatch.keys = true)
    ⟨fun h => ⟨h.1, h.2.1, h.2.2.1, h.2.2.2⟩, fun h => ⟨h.patch, h.theme, h.layout, h.tools⟩⟩

theorem within {p : Patch Float32} (h : ofJson? j = some p) (hkeys : OwnKeys j)
    (hunrepeated : j.isUnrepeated = true) : j.Within 3 := by
  obtain ⟨fs, hfs, hparts⟩ := Option.bind_eq_some_iff.mp h
  obtain rfl := object_of_record? hkeys.patch hfs
  obtain ⟨hnodup, hfields⟩ := Json.fieldsUnrepeated_iff.mp hunrepeated
  have htheme : ∀ v y, fs.lookup "themeVariables" = some v → ThemePatch.ofJson? v = some y →
      v.Within 2 := by
    intro v y hv hy
    have hown := hkeys.theme
    rw [Json.member_of_lookup hv] at hown
    exact (ThemePatch.within hy hown (hfields _ (mem_of_lookup hv))).mono (by decide)
  have hlayout : ∀ v y, fs.lookup "layout" = some v → LayoutPatch.ofJson? v = some y →
      v.Within 2 := by
    intro v y hv hy
    have hown := hkeys.layout
    have htools := hkeys.tools
    rw [Json.member_of_lookup hv] at hown htools
    exact LayoutPatch.within hy hown htools (hfields _ (mem_of_lookup hv))
  refine within_record hkeys.patch hnodup ?_
  exact (takes_text? 2).covered hparts fun _ h => covered_cons h htheme fun _ h =>
    covered_cons h hlayout fun _ _ => covered_nil

end Patch

end Depth

end FlowCanvas
