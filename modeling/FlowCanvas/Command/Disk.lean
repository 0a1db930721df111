import FlowCanvas.Command.Content
import FlowCanvas.Command.Path

/-!
Files as a command sees them: contents under paths, in directories that are there because files are
in them or because a command works there. A path is followed part by part; writing a file needs its
directory to be there. Only texts can be read.
-/

namespace FlowCanvas.Command

/-- Files by path and the directory a command works in, both by their names from the root on. -/
structure Disk where
  home : List String
  files : List (List String × Content)

inductive DiskError
  | missing
  | notDirectory
  | isDirectory
  | nameTooLong
  | notText

inductive Place
  | file (content : Content)
  | directory
  | nothing

namespace DiskError

def message : DiskError → String
  | .missing => "No such file or directory (os error 2)"
  | .notDirectory => "Not a directory (os error 20)"
  | .isDirectory => "Is a directory (os error 21)"
  | .nameTooLong => "File name too long (os error 36)"
  | .notText => "stream did not contain valid UTF-8"

end DiskError

namespace Disk

def nameLimit : Nat := 255

def pathLimit : Nat := 4095

variable (disk : Disk)

def place (names : List String) : Place :=
  match disk.files.lookup names with
  | some content => .file content
  | none =>
    if names.isPrefixOf disk.home || disk.files.any fun (path, _) => names.isPrefixOf path then
      .directory
    else .nothing

def step (names : List String) (part : String) : Except DiskError (List String) :=
  match disk.place names with
  | .file _ => .error .notDirectory
  | .nothing => .error .missing
  | .directory =>
    if Path.stays part then .ok names
    else if part = ".." then .ok names.dropLast
    else if nameLimit < part.utf8ByteSize then .error .nameTooLong
    else .ok (names ++ [part])

def start (path : String) : List String := if Path.isAbsolute path then [] else disk.home

def follow (path : String) (parts : List String) : Except DiskError (List String) :=
  if path.isEmpty then .error .missing
  else if pathLimit < path.utf8ByteSize then .error .nameTooLong
  else parts.foldlM disk.step (disk.start path)

def content (path : String) : Except DiskError Content :=
  (disk.follow path (Path.parts path)).bind fun names =>
    match disk.place names with
    | .file content => .ok content
    | .directory => .error .isDirectory
    | .nothing => .error .missing

def read (path : String) : Except DiskError String :=
  (disk.content path).bind fun
    | .text t => .ok t
    | .image _ => .error .notText

def put (names : List String) (content : Content) : Disk :=
  { disk with files := (names, content) :: disk.files.filter fun (path, _) => path != names }

/-- A path that ends in a slash is taken for a directory before its last name is looked up. -/
def write (path : String) (content : Content) : Except DiskError Disk :=
  if Path.endsInSlash path then
    (disk.follow path (Path.above path)).bind fun _ => .error .isDirectory
  else
    (disk.follow path (Path.parts path)).bind fun names =>
      match disk.place names with
      | .directory => .error .isDirectory
      | _ => .ok (disk.put names content)

def ofFiles (home : List String) (files : List (String × String)) : Disk :=
  ⟨home, files.map fun (name, text) => (home ++ Path.parts name, .text text)⟩

def nameOf (names : List String) : String := "/".intercalate names

/-- The texts in the working directory that are not as they were on another disk. -/
def changes (before after : Disk) : List (String × String) :=
  after.files.filterMap fun (names, content) =>
    match content with
    | .text t =>
      if after.home.isPrefixOf names && !(before.files.lookup names).any (·.isText t) then
        some (nameOf (names.drop after.home.length), t)
      else none
    | .image _ => none

theorem lookup_filter_ne {names other : List String} (h : other ≠ names)
    (files : List (List String × Content)) :
    List.lookup other (files.filter fun (path, _) => path != names) = List.lookup other files := by
  induction files with
  | nil => rfl
  | cons e files ih =>
    obtain ⟨path, content⟩ := e
    by_cases hp : path = names
    · have ho : (other == path) = false := by simpa [hp] using h
      simp only [List.filter_cons, hp, bne_self_eq_false, Bool.false_eq_true, if_false, ih,
        List.lookup_cons]
      rw [← hp, ho]
    · have hq : (path != names) = true := by simpa using hp
      simp only [List.filter_cons, hq, if_true, List.lookup_cons, ih]

theorem lookup_put (names other : List String) (content : Content) :
    (disk.put names content).files.lookup other =
      if other = names then some content else disk.files.lookup other := by
  unfold put
  by_cases h : other = names
  · simp [h]
  · have ho : (other == names) = false := by simpa using h
    simp only [List.lookup_cons, ho, if_neg h, lookup_filter_ne h disk.files]

end Disk

end FlowCanvas.Command
