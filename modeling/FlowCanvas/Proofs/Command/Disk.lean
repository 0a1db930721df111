import Mathlib.Data.List.Infix
import Mathlib.Data.Set.Insert
import FlowCanvas.Command.Disk

/-! Writing to a disk. A path is followed through directories only, so whatever lies on the way to
where it leads is there already: a file that is written there adds or removes nothing else, no path
leads elsewhere for it, and what has been written is found under the path. -/

namespace FlowCanvas.Command.Disk

variable {disk disk' : Disk} {names other : List String} {path part : String} {content : Content}

section Places

def Above (disk : Disk) (names : List String) : Prop :=
  names <+: disk.home ∨ ∃ f ∈ disk.files, names <+: f.1

instance (disk : Disk) : DecidablePred disk.Above := fun names =>
  inferInstanceAs (Decidable (names <+: disk.home ∨ ∃ f ∈ disk.files, names <+: f.1))

theorem Above.shorten (h : disk.Above names) (hinit : other <+: names) : disk.Above other := by
  rcases h with h | ⟨f, hf, h⟩
  · exact .inl (hinit.trans h)
  · exact .inr ⟨f, hf, hinit.trans h⟩

theorem place_of_file (h : disk.files.lookup names = some content) :
    disk.place names = .file content := by
  rw [place, h]

theorem place_of_no_file (h : disk.files.lookup names = none) :
    disk.place names = if disk.Above names then .directory else .nothing := by
  rw [place, h]
  refine if_congr ?_ rfl rfl
  simp only [Above, Bool.or_eq_true, List.isPrefixOf_iff_prefix, List.any_eq_true]

theorem above_of_directory (h : disk.place names = .directory) : disk.Above names := by
  cases hfile : disk.files.lookup names with
  | some content =>
    rw [place_of_file hfile] at h
    cases h
  | none =>
    rw [place_of_no_file hfile] at h
    by_contra hnot
    rw [if_neg hnot] at h
    cases h

/-- All that lies on the way to some names is there, whether or not the last one is. -/
def Rooted (disk : Disk) (names : List String) : Prop :=
  ∀ other, other <+: names → other ≠ names → disk.Above other

theorem Above.rooted (h : disk.Above names) : disk.Rooted names := fun _ hinit _ =>
  h.shorten hinit

theorem Above.rooted_append (h : disk.Above names) (part : String) :
    disk.Rooted (names ++ [part]) := by
  intro other hinit hne
  rcases List.prefix_concat_iff.mp hinit with rfl | hinit
  · exact absurd rfl hne
  · exact h.shorten hinit

end Places

section Following

theorem directory_of_step (h : disk.step names part = .ok other) :
    disk.place names = .directory := by
  unfold step at h
  split at h
  · cases h
  · cases h
  · assumption

theorem rooted_of_step (h : disk.step names part = .ok other) : disk.Rooted other := by
  have hplace := directory_of_step h
  have habove := above_of_directory hplace
  rw [step, hplace] at h
  dsimp only at h
  split at h
  · cases h
    exact habove.rooted
  · split at h
    · cases h
      exact (habove.shorten names.dropLast_prefix).rooted
    · split at h
      · cases h
      · cases h
        exact habove.rooted_append part

theorem rooted_of_foldlM {parts : List String} (h : parts.foldlM disk.step names = .ok other)
    (hnames : disk.Rooted names) : disk.Rooted other := by
  induction parts generalizing names with
  | nil =>
    cases h
    exact hnames
  | cons part parts ih =>
    rw [List.foldlM_cons] at h
    cases hstep : disk.step names part with
    | error e => rw [hstep] at h; cases h
    | ok next =>
      rw [hstep] at h
      exact ih h (rooted_of_step hstep)

def Leads (disk : Disk) (path : String) (names : List String) : Prop :=
  disk.follow path (Path.parts path) = .ok names

theorem follow_eq_ok {parts : List String} (h : disk.follow path parts = .ok names) :
    parts.foldlM disk.step (disk.start path) = .ok names := by
  unfold follow at h
  split at h
  · cases h
  · split at h
    · cases h
    · exact h

theorem rooted_start (disk : Disk) (path : String) : disk.Rooted (disk.start path) := by
  have habove : disk.Above (disk.start path) := by
    unfold start
    split
    · exact .inl (List.nil_prefix)
    · exact .inl (List.prefix_rfl)
  exact habove.rooted

theorem Leads.rooted (h : disk.Leads path names) : disk.Rooted names :=
  rooted_of_foldlM (follow_eq_ok h) (disk.rooted_start path)

structure SameTree (before after : Disk) : Prop where
  home : after.home = before.home
  directory : ∀ names, after.place names = .directory ↔ before.place names = .directory

theorem SameTree.refl (disk : Disk) : SameTree disk disk := ⟨rfl, fun _ => .rfl⟩

theorem SameTree.symm (h : SameTree disk disk') : SameTree disk' disk :=
  ⟨h.home.symm, fun names => (h.directory names).symm⟩

theorem SameTree.step (h : SameTree disk disk') (hstep : disk.step names part = .ok other) :
    disk'.step names part = .ok other := by
  have hplace := directory_of_step hstep
  rw [Disk.step, hplace] at hstep
  rw [Disk.step, (h.directory names).mpr hplace]
  exact hstep

theorem SameTree.foldlM (h : SameTree disk disk') {parts : List String}
    (hparts : parts.foldlM disk.step names = .ok other) :
    parts.foldlM disk'.step names = .ok other := by
  induction parts generalizing names with
  | nil => exact hparts
  | cons part parts ih =>
    rw [List.foldlM_cons] at hparts ⊢
    cases hstep : disk.step names part with
    | error e => rw [hstep] at hparts; cases hparts
    | ok next =>
      rw [hstep] at hparts
      rw [h.step hstep]
      exact ih hparts

theorem SameTree.leads (h : SameTree disk disk') (hpath : disk.Leads path names) :
    disk'.Leads path names := by
  have hparts := h.foldlM (follow_eq_ok hpath)
  unfold Leads follow at hpath ⊢
  split at hpath
  · cases hpath
  · split at hpath
    · cases hpath
    · rename_i hempty hlong
      rw [if_neg hempty, if_neg hlong, start, h.home]
      exact hparts

theorem SameTree.leads_iff (h : SameTree disk disk') :
    disk'.Leads path names ↔ disk.Leads path names :=
  ⟨h.symm.leads, h.leads⟩

/-- Two disks that differ in nothing but what some paths lead to. -/
def SameBut (before after : Disk) (paths : Set String) : Prop :=
  ∀ names, after.place names = before.place names ∨ ∃ path ∈ paths, before.Leads path names

variable {paths paths' : Set String}

theorem SameBut.refl (disk : Disk) (paths : Set String) : disk.SameBut disk paths :=
  fun _ => .inl rfl

theorem SameBut.mono (h : disk.SameBut disk' paths) (hpaths : paths ⊆ paths') :
    disk.SameBut disk' paths' := by
  intro names
  rcases h names with h | ⟨path, hpath, hleads⟩
  · exact .inl h
  · exact .inr ⟨path, hpaths hpath, hleads⟩

theorem SameBut.trans {last : Disk} (h : disk.SameBut disk' paths) (htree : SameTree disk disk')
    (hlast : disk'.SameBut last paths) : disk.SameBut last paths := by
  intro names
  rcases hlast names with hsame | ⟨path, hpath, hleads⟩
  · rw [hsame]
    exact h names
  · exact .inr ⟨path, hpath, htree.leads_iff.mp hleads⟩

end Following

section Writing

theorem place_put_self (disk : Disk) (names : List String) (content : Content) :
    (disk.put names content).place names = .file content :=
  place_of_file (by rw [lookup_put, if_pos rfl])

theorem above_put (h : disk.Rooted names) (hne : other ≠ names) :
    (disk.put names content).Above other ↔ disk.Above other := by
  constructor
  · rintro (hhome | ⟨f, hf, hinit⟩)
    · exact .inl hhome
    · rcases List.mem_cons.mp hf with rfl | hf
      · exact h other hinit hne
      · exact .inr ⟨f, List.mem_of_mem_filter hf, hinit⟩
  · rintro (hhome | ⟨f, hf, hinit⟩)
    · exact .inl hhome
    · -- A file that is replaced had the same names, so what is above it is above the new one.
      by_cases hf' : f.1 = names
      · exact .inr ⟨(names, content), List.mem_cons_self, hf' ▸ hinit⟩
      · have hkept : f ∈ disk.files.filter fun f => f.1 != names :=
          List.mem_filter.mpr ⟨hf, bne_iff_ne.mpr hf'⟩
        exact .inr ⟨f, List.mem_cons_of_mem _ hkept, hinit⟩

theorem place_put_of_ne (h : disk.Rooted names) (hne : other ≠ names) :
    (disk.put names content).place other = disk.place other := by
  have hsame : (disk.put names content).files.lookup other = disk.files.lookup other := by
    rw [lookup_put, if_neg hne]
  cases hfile : disk.files.lookup other with
  | some found => rw [place_of_file (hsame.trans hfile), place_of_file hfile]
  | none =>
    rw [place_of_no_file (hsame.trans hfile), place_of_no_file hfile]
    simp only [above_put h hne]

theorem sameTree_put (h : disk.Rooted names) (hplace : disk.place names ≠ .directory) :
    SameTree disk (disk.put names content) where
  home := rfl
  directory := fun other => by
    by_cases hne : other = names
    · rw [hne, place_put_self]
      exact ⟨nofun, fun h => absurd h hplace⟩
    · rw [place_put_of_ne h hne]

theorem write_eq_ok (h : disk.write path content = .ok disk') :
    ∃ names, disk.Leads path names ∧ disk.place names ≠ .directory ∧
      disk' = disk.put names content := by
  unfold write at h
  split at h
  · cases habove : disk.follow path (Path.above path) <;> rw [habove] at h <;> cases h
  · cases hfollow : disk.follow path (Path.parts path) with
    | error e => rw [hfollow] at h; cases h
    | ok names =>
      rw [hfollow, Except.bind] at h
      split at h
      · cases h
      · cases h
        exact ⟨names, hfollow, ‹_›, rfl⟩

structure Wrote (path : String) (content : Content) (before after : Disk) : Prop where
  tree : SameTree before after
  elsewhere : before.SameBut after {path}
  content : after.content path = .ok content

theorem wrote_of_write (h : disk.write path content = .ok disk') :
    Wrote path content disk disk' := by
  obtain ⟨names, hleads, hplace, rfl⟩ := write_eq_ok h
  have htree : SameTree disk (disk.put names content) := sameTree_put hleads.rooted hplace
  refine ⟨htree, fun other => ?_, ?_⟩
  · by_cases hne : other = names
    · exact .inr ⟨path, rfl, hne ▸ hleads⟩
    · exact .inl (place_put_of_ne hleads.rooted hne)
  · have hfollow : (disk.put names content).follow path (Path.parts path) = .ok names :=
      htree.leads hleads
    rw [Disk.content, hfollow, Except.bind, place_put_self]

end Writing

end FlowCanvas.Command.Disk
