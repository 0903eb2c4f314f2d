import Mathlib.Data.Finset.Basic
import Mathlib.Data.Finset.Lattice.Lemmas
import Mathlib.Data.List.Infix
import Mathlib.Data.String.Basic
import Tentacle.GoValues

/-!
# Directories and files

A tree of directories and files under cleaned absolute paths, with the operations of `os` and
`path/filepath` on it: `Join`, `MkdirAll`, `WriteFile` and `Walk`. Every entry of the tree has
its directory in the tree. There are no links, and every caller may read and write.
-/

namespace FileTree

open GoValues

/-- A cleaned absolute path, by its elements. -/
abbrev Path := List String

def parts (text : String) : List String := (text.toList.splitOn '/').map String.ofList

/-- One element of `filepath.Clean`. -/
def cleanPart (path : Path) (part : String) : Path :=
  if part = "" ∨ part = "." then path
  else if part = ".." then path.dropLast
  else path ++ [part]

def join (base : Path) (elems : List String) : Path := (elems.flatMap parts).foldl cleanPart base

/-- The names that a file system takes: at most 255 bytes, and none of them zero. -/
def acceptsName (name : String) : Bool := name.utf8ByteSize ≤ 255 && !name.toList.contains '\x00'

def acceptsLast (path : Path) : Bool := path.getLast?.any acceptsName

/-- Directories and files under any paths. -/
structure Entries (T : Type) where
  dirs : Finset Path := ∅
  files : GoMap Path T := ∅

@[ext] structure Disk (T : Type) extends Entries T where
  root_mem : [] ∈ dirs
  parent_mem : ∀ path ∈ dirs, path.dropLast ∈ dirs
  file_parent_mem : ∀ path ∈ files, path.dropLast ∈ dirs
  file_not_mem : ∀ path ∈ files, path ∉ dirs

variable {T : Type}

namespace Entries

/-- What `MkdirAll` leaves when it succeeds. -/
def makeDir (disk : Entries T) (path : Path) : Entries T :=
  { disk with dirs := disk.dirs ∪ path.inits.toFinset }

/-- A file, with the directories that it is copied in. -/
def writeFile (disk : Entries T) (file : Path × T) : Entries T :=
  { dirs := disk.dirs ∪ file.1.dropLast.inits.toFinset
    files := disk.files.insert file.1 file.2 }

def writeFiles (disk : Entries T) (files : List (Path × T)) : Entries T :=
  files.foldl writeFile disk

/-- What `RemoveAll` leaves when it succeeds. -/
def removeAll (disk : Entries T) (path : Path) : Entries T where
  dirs := disk.dirs.filter (¬ path <+: ·)
  files := (disk.files.keys.filter (path.isPrefixOf ·)).foldl (fun files p => files.erase p)
    disk.files

end Entries

namespace Disk

/-- `os.Mkdir`, where a directory may be there already. -/
def mkdir (disk : Disk T) (path : Path) : Option (Disk T) :=
  if path ∈ disk.dirs then some disk
  else if h : path ∉ disk.files ∧ path.dropLast ∈ disk.dirs ∧ acceptsLast path then
    some { disk with
      dirs := insert path disk.dirs
      root_mem := Finset.mem_insert_of_mem disk.root_mem
      parent_mem := by
        intro p hp
        obtain rfl | hp := Finset.mem_insert.mp hp
        · exact Finset.mem_insert_of_mem h.2.1
        · exact Finset.mem_insert_of_mem (disk.parent_mem p hp)
      file_parent_mem := fun p hp => Finset.mem_insert_of_mem (disk.file_parent_mem p hp)
      file_not_mem := by
        intro p hp hmem
        obtain rfl | hmem := Finset.mem_insert.mp hmem
        · exact h.1 hp
        · exact disk.file_not_mem p hp hmem }
  else none

def mkdirAll (disk : Disk T) (path : Path) : Option (Disk T) := path.inits.foldlM mkdir disk

def writeFile (disk : Disk T) (path : Path) (text : T) : Option (Disk T) :=
  if h : path.dropLast ∈ disk.dirs ∧ path ∉ disk.dirs ∧ acceptsLast path then
    some { disk with
      files := disk.files.insert path text
      file_parent_mem := by
        intro p hp
        obtain rfl | hp := (AList.mem_insert _).mp hp
        · exact h.1
        · exact disk.file_parent_mem p hp
      file_not_mem := by
        intro p hp
        obtain rfl | hp := (AList.mem_insert _).mp hp
        · exact h.2.1
        · exact disk.file_not_mem p hp }
  else none

/-- The files that `filepath.Walk` comes to, in its order, which is that of the elements of
their paths. -/
def walk (disk : Disk T) (root : Path) : Option (List (Sigma fun _ : Path => T)) :=
  if root ∈ disk.dirs ∨ root ∈ disk.files then
    some ((disk.files.entries.filter fun e => root.isPrefixOf e.1).mergeSort
      fun a b => decide (a.1 ≤ b.1))
  else none

/-- A directory with nothing in it. -/
structure EmptyDir (disk : Disk T) (root : Path) : Prop where
  mem : root ∈ disk.dirs
  no_dirs : ∀ path ∈ disk.dirs, root <+: path → path = root
  no_files : ∀ path ∈ disk.files, ¬ root <+: path

/-- The file may be written: its directory is there, and it is not a directory itself. -/
@[mk_iff writable_iff] structure Writable (disk : Disk T) (path : Path) : Prop where
  parent : path.dropLast ∈ disk.dirs
  not_dir : path ∉ disk.dirs
  named : acceptsLast path = true

/-- With a directory all those above it are there. -/
theorem mem_dirs_of_isPrefix {disk : Disk T} {path p : Path} (hpath : path ∈ disk.dirs)
    (h : p <+: path) : p ∈ disk.dirs := by
  induction path using List.reverseRecOn with
  | nil => rwa [List.prefix_nil.mp h]
  | append_singleton path name ih =>
    obtain rfl | h := List.prefix_concat_iff.mp h
    · exact hpath
    · have hparent := disk.parent_mem _ hpath
      rw [List.dropLast_concat] at hparent
      exact ih hparent h

theorem mkdir_of_mem {disk : Disk T} {path : Path} (h : path ∈ disk.dirs) :
    disk.mkdir path = some disk := if_pos h

/-- A directory can be made in one that is there, under a name that no file has. -/
theorem mkdir_eq_some {disk : Disk T} {path : Path} (hfile : path ∉ disk.files)
    (hparent : path.dropLast ∈ disk.dirs) (hname : acceptsLast path = true) :
    ∃ disk', disk.mkdir path = some disk' ∧ disk'.files = disk.files ∧
      disk'.dirs = insert path disk.dirs := by
  by_cases hmem : path ∈ disk.dirs
  · exact ⟨disk, mkdir_of_mem hmem, rfl, (Finset.insert_eq_of_mem hmem).symm⟩
  · rw [mkdir, if_neg hmem, dif_pos ⟨hfile, hparent, hname⟩]
    exact ⟨_, rfl, rfl, rfl⟩

/-- On the entries alone it is one more directory. -/
theorem toEntries_mkdir {disk disk' : Disk T} {path : Path} (h : disk.mkdir path = some disk') :
    disk'.files = disk.files ∧ disk'.dirs = insert path disk.dirs := by
  by_cases hmem : path ∈ disk.dirs
  · rw [mkdir_of_mem hmem] at h
    cases h
    exact ⟨rfl, (Finset.insert_eq_of_mem hmem).symm⟩
  · rw [mkdir, if_neg hmem] at h
    split at h
    · cases h
      exact ⟨rfl, rfl⟩
    · cases h

/-- `MkdirAll` makes the directories that are not in place. -/
theorem toEntries_mkdirAll {disk disk' : Disk T} {path : Path}
    (h : disk.mkdirAll path = some disk') : disk'.toEntries = disk.toEntries.makeDir path := by
  have hmade : ∀ (paths : List Path) (disk : Disk T), paths.foldlM mkdir disk = some disk' →
      disk'.files = disk.files ∧ disk'.dirs = disk.dirs ∪ paths.toFinset := by
    intro paths
    induction paths with
    | nil =>
      intro disk h
      cases h
      simp
    | cons p paths ih =>
      intro disk h
      rw [List.foldlM_cons] at h
      obtain ⟨next, hnext, h⟩ := Option.bind_eq_some_iff.mp h
      obtain ⟨hfiles, hdirs⟩ := toEntries_mkdir hnext
      obtain ⟨hfiles', hdirs'⟩ := ih next h
      refine ⟨hfiles'.trans hfiles, ?_⟩
      rw [hdirs', hdirs, List.toFinset_cons, Finset.insert_union, Finset.union_insert]
  obtain ⟨hfiles, hdirs⟩ := hmade path.inits disk h
  rw [Entries.makeDir, ← hfiles, ← hdirs]

/-- `MkdirAll` finds the directories above in place. -/
theorem mkdirAll_concat {disk : Disk T} {parent : Path} (h : parent ∈ disk.dirs) (name : String) :
    disk.mkdirAll (parent ++ [name]) = disk.mkdir (parent ++ [name]) := by
  have habove : ∀ paths : List Path, (∀ p ∈ paths, p ∈ disk.dirs) →
      paths.foldlM mkdir disk = some disk := by
    intro paths hpaths
    induction paths with
    | nil => rfl
    | cons p paths ih =>
      rw [List.foldlM_cons, mkdir_of_mem (hpaths p (.head _))]
      exact ih fun p hp => hpaths p (.tail _ hp)
  have hinits : (parent ++ [name]).inits = parent.inits ++ [parent ++ [name]] := by
    rw [List.inits_append]
    rfl
  rw [mkdirAll, hinits, List.foldlM_append, habove]
  · exact bind_pure (disk.mkdir (parent ++ [name]))
  · intro p hp
    exact mem_dirs_of_isPrefix h ((List.mem_inits p parent).mp hp)

/-- A file is written exactly where it can be, and nothing else changes. -/
theorem writeFile_eq_some_iff {disk disk' : Disk T} {path : Path} {text : T} :
    disk.writeFile path text = some disk' ↔ disk.Writable path ∧ disk'.dirs = disk.dirs ∧
      disk'.files = disk.files.insert path text := by
  rw [writeFile]
  split
  next h =>
    have hw : disk.Writable path := ⟨h.1, h.2.1, h.2.2⟩
    rw [Option.some.injEq, Disk.ext_iff]
    simp only [hw, true_and, eq_comm]
  next h =>
    constructor
    · intro he
      cases he
    · intro hw
      exact absurd ⟨hw.1.parent, hw.1.not_dir, hw.1.named⟩ h

theorem Writable.exists_writeFile {disk : Disk T} {path : Path} (h : disk.Writable path)
    (text : T) : ∃ disk', disk.writeFile path text = some disk' := by
  rw [writeFile, dif_pos ⟨h.parent, h.not_dir, h.named⟩]
  exact ⟨_, rfl⟩

/-- A walk finds each file below its root once. -/
theorem walk_eq_some {disk : Disk T} {root : Path} (h : root ∈ disk.dirs) :
    ∃ found, disk.walk root = some found ∧ (found.map Sigma.fst).Nodup ∧
      ∀ e, e ∈ found ↔ disk.files.lookup e.1 = some e.2 ∧ root <+: e.1 := by
  refine ⟨_, if_pos (.inl h), ?_, ?_⟩
  · rw [((List.mergeSort_perm _ _).map _).nodup_iff]
    exact List.Nodup.sublist (List.filter_sublist.map _) disk.files.nodupKeys
  · intro e
    rw [List.mem_mergeSort, List.mem_filter, List.isPrefixOf_iff_prefix, mem_entries_iff]

end Disk

/-! ## Names -/

theorem join_plain {name : String} (hslash : '/' ∉ name.toList) (hname : name ≠ "")
    (hdot : name ≠ ".") (hdots : name ≠ "..") (base : Path) (elems : List String) :
    join base (name :: elems) = join (base ++ [name]) elems := by
  have hparts : parts name = [name] := by
    rw [parts, List.splitOn_eq_singleton hslash]
    simp
  rw [join, List.flatMap_cons, hparts, List.singleton_append, List.foldl_cons, ← join]
  simp [cleanPart, hname, hdot, hdots]

/-- The last piece of a text that ends without a separator. -/
theorem splitOn_append {a : Char} {ys : List Char} (h : a ∉ ys) (xs : List Char) :
    ∃ init last, (xs ++ ys).splitOn a = init ++ [last ++ ys] := by
  induction xs with
  | nil => exact ⟨[], [], List.splitOn_eq_singleton h⟩
  | cons x xs ih =>
    obtain ⟨init, last, hsplit⟩ := ih
    rw [List.cons_append, List.splitOn_cons_eq_if_modifyHead, hsplit]
    split
    · exact ⟨[] :: init, last, rfl⟩
    · cases init with
      | nil => exact ⟨[], x :: last, rfl⟩
      | cons first init => exact ⟨(x :: first) :: init, last, rfl⟩

/-- A file name with a suffix stays the last element of its path. -/
theorem join_suffix {suffix : String} (hslash : '/' ∉ suffix.toList)
    (hlen : 2 < suffix.toList.length) (base : Path) (elems : List String) (name : String) :
    ∃ parent last, join base (elems ++ [name ++ suffix]) = parent ++ [last ++ suffix] := by
  obtain ⟨init, last, hsplit⟩ := splitOn_append hslash name.toList
  have hparts : parts (name ++ suffix) =
      init.map String.ofList ++ [String.ofList last ++ suffix] := by
    rw [parts, String.toList_append, hsplit]
    simp [String.ofList_append]
  have hne : ∀ text : String, text.toList.length ≤ 2 → String.ofList last ++ suffix ≠ text := by
    rintro text htext rfl
    rw [String.toList_append, List.length_append] at htext
    omega
  rw [join, List.flatMap_append, List.flatMap_singleton, hparts, ← List.append_assoc,
    List.foldl_append, List.foldl_cons, List.foldl_nil, cleanPart,
    if_neg (not_or.mpr ⟨hne "" (by decide), hne "." (by decide)⟩), if_neg (hne ".." (by decide))]
  exact ⟨_, String.ofList last, rfl⟩

end FileTree
