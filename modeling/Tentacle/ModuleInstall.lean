import Tentacle.FileTree
import Tentacle.Orchestrator

/-!
# Installed versions of a module

On bare metal the orchestrator keeps every version of a module in a directory of its own. A version
counts as installed when the directory is there, and `reconcileModule` installs a version only if it
does not count as installed. `installVersion` makes the directory first: what goes wrong later leaves
it behind, unless the branch removes it. Two branches do not, the removal may fail, a crash may come
before it, and the command that copies the files succeeds whatever it copies.

Along every run in which none of this happens, a version that counts as installed was installed, with
all the files of its package.
-/

namespace ModuleInstall

open GoValues FileTree
open Orchestrator (ModuleRegistryEntry)

structure OrchestratorConfig where
  versionsDir : Path
  ghOrg : String
  /-- What `getArch` returns. -/
  arch : String
  deriving DecidableEq, Repr

variable {T : Type}

def versionDir (config : OrchestratorConfig) (modID version : String) : Path :=
  join config.versionsDir [modID, version]

def isVersionInstalled (config : OrchestratorConfig) (disk : Entries T) (modID version : String) :
    Bool := versionDir config modID version ∈ disk.dirs

def getDownloadURL (config : OrchestratorConfig) (entry : ModuleRegistryEntry) (version : String) :
    String :=
  let base := "https://github.com/" ++ config.ghOrg ++ "/" ++ entry.repo ++ "/releases/download/v" ++
    version
  match entry.runtime with
  | "go" => base ++ "/" ++ entry.moduleID ++ "-linux-" ++ config.arch
  | "deno" => base ++ "/" ++ entry.repo ++ "-src.tar.gz"
  | "deno-web" => base ++ "/" ++ entry.repo ++ "-build.tar.gz"
  | _ => ""

/-! ## One installation -/

/-- What `tar` leaves in the temporary directory: the files of the directory with the name of the
repository and of the directory `build`, if there are such directories. -/
structure Tarball (T : Type) where
  repoDir : Option (GoMap Path T) := none
  buildDir : Option (GoMap Path T) := none

/-- The directory that is copied, and where to. -/
def Tarball.layout (tarball : Tarball T) (dir : Path) : Option (GoMap Path T × Path) :=
  match tarball.repoDir, tarball.buildDir with
  | some files, _ => some (files, dir)
  | none, some files => some (files, dir ++ ["build"])
  | none, none => none

/-- Where the orchestrator may die: before the directory is made; when it is made, and so many files
are written; or when everything is done but the return. A removal that does not come to its end
leaves the directory, as if it had not begun. -/
inductive CrashPoint where
  | atStart
  | inside (files : Nat)
  | atEnd
  deriving DecidableEq, Repr

/-- What happens during an installation. -/
structure Outcome (T : Type) where
  /-- `checkInternet`. -/
  online : Bool := true
  makesDir : Bool := true
  /-- What `downloadFile` writes, if it succeeds. -/
  body : Option T
  makesTemp : Bool := true
  extracted : Option (Tarball T) := none
  /-- The shell runs the command to its end. -/
  runsShell : Bool := true
  /-- Which files `cp` can copy. -/
  copies : Path → Bool := fun _ => true
  removes : Bool := true
  crash : Option CrashPoint := none

/-- The names that `*` stands for in the shell. -/
def plainGlob (name : String) : Bool := name.toList.head? ≠ some '.'

/-- The names that `.[^.]*` stands for. -/
def hiddenGlob (name : String) : Bool :=
  match name.toList with
  | '.' :: c :: _ => c ≠ '.'
  | _ => false

/-- The files that one `cp -a` copies. -/
def cp (copies : Path → Bool) (glob : String → Bool) (src : GoMap Path T) (dest : Path) :
    List (Path × T) :=
  (src.entries.filter fun file => file.1.head?.any glob && copies file.1).map
    fun file => (dest ++ file.1, file.2)

/-- The files that the two commands copy. -/
def moveContents (copies : Path → Bool) (src : GoMap Path T) (dest : Path) : List (Path × T) :=
  cp copies plainGlob src dest ++ cp copies hiddenGlob src dest

/-- What an installation does when the directory is made: the files it writes, whether it removes
the directory again, and what it returns. -/
structure Course (T : Type) where
  writes : List (Path × T) := []
  cleanup : Bool := false
  result : Bool := false

/-- The branches of `installVersion` after the directory is made. -/
def installPackage (config : OrchestratorConfig) (entry : ModuleRegistryEntry) (version : String)
    (o : Outcome T) : Course T :=
  let dir := versionDir config entry.moduleID version
  if getDownloadURL config entry version = "" then {}
  else
    match entry.runtime with
    | "go" =>
      match o.body with
      | none => { cleanup := true }
      | some binary => { writes := [(join dir [entry.moduleID], binary)], result := true }
    | "deno" | "deno-web" =>
      if !o.makesTemp then {}
      else
        match o.body, o.extracted with
        | none, _ => { cleanup := true }
        | some _, none => { cleanup := true }
        | some _, some tarball =>
          match tarball.layout dir with
          | none => { cleanup := true }
          | some (files, dest) =>
            { writes := moveContents o.copies files dest
              cleanup := !o.runsShell
              result := o.runsShell }
    | _ => {}

/-- The disk after the call, and what it returns if the orchestrator lives. -/
def installVersion (config : OrchestratorConfig) (disk : Entries T) (entry : ModuleRegistryEntry)
    (version : String) (o : Outcome T) : Entries T × Option Bool :=
  let dir := versionDir config entry.moduleID version
  if !o.makesDir then (disk, if o.crash.isSome then none else some false)
  else
    let course := installPackage config entry version o
    match o.crash with
    | some .atStart => (disk, none)
    | some (.inside n) => ((disk.makeDir dir).writeFiles (course.writes.take n), none)
    | crash =>
      let written := (disk.makeDir dir).writeFiles course.writes
      let disk := if course.cleanup && o.removes then written.removeAll dir else written
      (disk, if crash.isSome then none else some course.result)

/-- The files of the package, where they belong. -/
def packageFiles (config : OrchestratorConfig) (entry : ModuleRegistryEntry) (version : String)
    (o : Outcome T) : List (Path × T) :=
  let dir := versionDir config entry.moduleID version
  if entry.runtime = "go" then o.body.toList.map fun binary => (join dir [entry.moduleID], binary)
  else
    match o.extracted.bind (·.layout dir) with
    | none => []
    | some (files, dest) => files.entries.map fun file => (dest ++ file.1, file.2)

/-! ## Runs -/

/-- The disk, and the installations that returned true with all the files of the package in place. -/
structure State (T : Type) where
  disk : Entries T := {}
  completed : List (String × String) := []

structure Attempt (T : Type) where
  entry : ModuleRegistryEntry
  version : String
  outcome : Outcome T

/-- The part of `reconcileModule` that installs the version. -/
def step [DecidableEq T] (config : OrchestratorConfig) (s : State T) (a : Attempt T) :
    Option (State T) :=
  if isVersionInstalled config s.disk a.entry.moduleID a.version || !a.outcome.online then some s
  else
    let (disk, result) := installVersion config s.disk a.entry a.version a.outcome
    let copied := (packageFiles config a.entry a.version a.outcome).all fun file =>
      disk.files.lookup file.1 = some file.2
    some {
      disk
      completed :=
        if result = some true && copied then (a.entry.moduleID, a.version) :: s.completed
        else s.completed }

/-! ## When an installation leaves nothing unfinished -/

/-- The name of a single directory. -/
def IsName (name : String) : Prop :=
  '/' ∉ name.toList ∧ name ≠ "" ∧ name ≠ "." ∧ name ≠ ".."

/-- Every version that counts as installed was installed to the end. -/
def Sound (config : OrchestratorConfig) (s : State T) : Prop :=
  ∀ modID version, IsName modID → IsName version →
    isVersionInstalled config s.disk modID version → (modID, version) ∈ s.completed

def Tarball.package (tarball : Tarball T) : Option (GoMap Path T) :=
  tarball.repoDir <|> tarball.buildDir

/-- The shell names every file of the package, and `cp` copies it. -/
def Copied (copies : Path → Bool) (files : GoMap Path T) : Prop :=
  ∀ file ∈ files.entries, file.1.head?.any (fun name => plainGlob name || hiddenGlob name) ∧
    copies file.1

def Succeeds (entry : ModuleRegistryEntry) (o : Outcome T) : Prop :=
  o.body.isSome ∧ (entry.runtime = "go" ∨ (o.makesTemp ∧ o.runsShell ∧
    ∃ files, o.extracted.bind Tarball.package = some files ∧ Copied o.copies files))

/-- A failure after which the directory is removed. -/
def FailsCleanly (entry : ModuleRegistryEntry) (o : Outcome T) : Prop :=
  if entry.runtime = "go" then o.body = none
  else o.makesTemp ∧
    (o.body = none ∨ o.extracted.bind Tarball.package = none ∨ o.runsShell = false)

/-- The directory is not made; or all succeeds, the copies too, and the orchestrator lives; or it
fails where the directory is removed, the removal succeeds, and the orchestrator does not die in
between. -/
def Clean (config : OrchestratorConfig) (s : State T) (a : Attempt T) : Prop :=
  IsName a.entry.moduleID ∧ IsName a.version ∧
    (isVersionInstalled config s.disk a.entry.moduleID a.version ∨ a.outcome.online = false ∨
      a.outcome.makesDir = false ∨ a.outcome.crash = some .atStart ∨
      (a.entry.runtime ∈ ["go", "deno", "deno-web"] ∧
        ((Succeeds a.entry a.outcome ∧ a.outcome.crash = none) ∨
          (FailsCleanly a.entry a.outcome ∧ a.outcome.removes ∧
            ∀ n, a.outcome.crash ≠ some (.inside n)))))

/-! ## Paths -/

theorem versionDir_eq (config : OrchestratorConfig) {modID version : String} (hmod : IsName modID)
    (hversion : IsName version) :
    versionDir config modID version = config.versionsDir ++ [modID, version] := by
  rw [versionDir, join_plain hmod.1 hmod.2.1 hmod.2.2.1 hmod.2.2.2,
    join_plain hversion.1 hversion.2.1 hversion.2.2.1 hversion.2.2.2, List.append_assoc]
  rfl

/-- With a file the directories above it are made. -/
theorem mem_dirs_writeFiles {disk : Entries T} {files : List (Path × T)} {p : Path} :
    p ∈ (disk.writeFiles files).dirs ↔
      p ∈ disk.dirs ∨ ∃ file ∈ files, p <+: file.1.dropLast := by
  rw [Entries.writeFiles]
  induction files generalizing disk with
  | nil => simp
  | cons file files ih =>
    rw [List.foldl_cons, ih]
    simp only [Entries.writeFile, Finset.mem_union, List.mem_toFinset, List.mem_inits, or_assoc,
      List.mem_cons, exists_eq_or_imp]

/-- What is made for a version lies above or under its directory. -/
theorem mem_dirs_installed {disk : Entries T} {dir p : Path} {files : List (Path × T)}
    (hfiles : ∀ file ∈ files, dir <+: file.1)
    (hp : p ∈ ((disk.makeDir dir).writeFiles files).dirs) :
    p ∈ disk.dirs ∨ p <+: dir ∨ dir <+: p := by
  rw [mem_dirs_writeFiles, Entries.makeDir] at hp
  simp only [Finset.mem_union, List.mem_toFinset, List.mem_inits] at hp
  obtain (hold | habove) | ⟨file, hfile, hbelow⟩ := hp
  · exact .inl hold
  · exact .inr (.inl habove)
  · have hpath : p <+: file.1 := hbelow.trans (List.dropLast_prefix file.1)
    exact .inr (List.prefix_or_prefix_of_prefix hpath (hfiles file hfile))

/-- So the directories of other versions are left alone. -/
theorem installed_of_installed {config : OrchestratorConfig} {disk : Entries T}
    {modID version modID' version' : String} (hmod : IsName modID) (hversion : IsName version)
    (hmod' : IsName modID') (hversion' : IsName version')
    (hne : (modID', version') ≠ (modID, version)) {files : List (Path × T)}
    (hfiles : ∀ file ∈ files, versionDir config modID version <+: file.1)
    (h : isVersionInstalled config
      ((disk.makeDir (versionDir config modID version)).writeFiles files) modID' version') :
    isVersionInstalled config disk modID' version' := by
  rw [isVersionInstalled, decide_eq_true_eq] at h ⊢
  have hsame : versionDir config modID' version' = versionDir config modID version →
      (modID', version') = (modID, version) := by
    rw [versionDir_eq config hmod' hversion', versionDir_eq config hmod hversion]
    simp
  have hlength : (versionDir config modID' version').length =
      (versionDir config modID version).length := by
    rw [versionDir_eq config hmod' hversion', versionDir_eq config hmod hversion]
    simp
  obtain hold | habove | hbelow := mem_dirs_installed hfiles h
  · exact hold
  · exact absurd (hsame (habove.eq_of_length hlength)) hne
  · exact absurd (hsame (hbelow.eq_of_length hlength.symm).symm) hne

/-! ## Branches -/

theorem getDownloadURL_ne_empty (config : OrchestratorConfig) {entry : ModuleRegistryEntry}
    (h : entry.runtime ∈ ["go", "deno", "deno-web"]) (version : String) :
    getDownloadURL config entry version ≠ "" := by
  simp only [List.mem_cons, List.not_mem_nil, or_false] at h
  obtain h | h | h := h <;> simp [getDownloadURL, h]

theorem mem_cp {copies : Path → Bool} {glob : String → Bool} {src : GoMap Path T} {dest : Path}
    {file : Path × T} : file ∈ cp copies glob src dest ↔
      ∃ f ∈ src.entries, (f.1.head?.any glob ∧ copies f.1) ∧ (dest ++ f.1, f.2) = file := by
  simp [cp, and_assoc]

theorem prefix_of_mem_moveContents {copies : Path → Bool} {src : GoMap Path T} {dest : Path}
    {file : Path × T} (h : file ∈ moveContents copies src dest) : dest <+: file.1 := by
  rw [moveContents, List.mem_append, mem_cp, mem_cp] at h
  obtain ⟨f, -, -, rfl⟩ | ⟨f, -, -, rfl⟩ := h
  · exact List.prefix_append dest f.1
  · exact List.prefix_append dest f.1

/-- Each file is moved to its place below the destination. -/
theorem mem_moveContents {copies : Path → Bool} {src : GoMap Path T} (h : Copied copies src)
    {f : Sigma fun _ : Path => T} (hf : f ∈ src.entries) (dest : Path) :
    (dest ++ f.1, f.2) ∈ moveContents copies src dest := by
  obtain ⟨hglob, hcopies⟩ := h f hf
  rw [moveContents, List.mem_append, mem_cp, mem_cp]
  obtain ⟨name, hname, hglob⟩ := (Option.any_eq_true ..).mp hglob
  rw [Bool.or_eq_true] at hglob
  obtain hplain | hhidden := hglob
  · exact .inl ⟨f, hf, ⟨(Option.any_eq_true ..).mpr ⟨name, hname, hplain⟩, hcopies⟩, rfl⟩
  · exact .inr ⟨f, hf, ⟨(Option.any_eq_true ..).mpr ⟨name, hname, hhidden⟩, hcopies⟩, rfl⟩

/-- A path is written with one content only. -/
theorem eq_of_mem_moveContents {copies : Path → Bool} {src : GoMap Path T} {dest : Path}
    {file file' : Path × T} (h : file ∈ moveContents copies src dest)
    (h' : file' ∈ moveContents copies src dest) (hpath : file.1 = file'.1) : file.2 = file'.2 := by
  have hsrc : ∀ w ∈ moveContents copies src dest, ∃ p, w.1 = dest ++ p ∧ src.lookup p = some w.2 := by
    intro w hw
    rw [moveContents, List.mem_append, mem_cp, mem_cp] at hw
    obtain ⟨f, hf, -, rfl⟩ | ⟨f, hf, -, rfl⟩ := hw
    · exact ⟨f.1, rfl, (mem_entries_iff src f.1 f.2).mp hf⟩
    · exact ⟨f.1, rfl, (mem_entries_iff src f.1 f.2).mp hf⟩
  obtain ⟨p, hp, hfile⟩ := hsrc file h
  obtain ⟨p', hp', hfile'⟩ := hsrc file' h'
  rw [hp, hp', List.append_cancel_left_eq] at hpath
  rw [hpath, hfile', Option.some.injEq] at hfile
  exact hfile.symm

/-- A file that is written is there, if no other one is written in its place. -/
theorem lookup_writeFiles {disk : Entries T} {files : List (Path × T)}
    (hagree : ∀ f ∈ files, ∀ g ∈ files, f.1 = g.1 → f.2 = g.2) {file : Path × T}
    (hmem : file ∈ files) : (disk.writeFiles files).files.lookup file.1 = some file.2 := by
  induction files using List.reverseRecOn with
  | nil => cases hmem
  | append_singleton files last ih =>
    rw [Entries.writeFiles, List.foldl_append, List.foldl_cons, List.foldl_nil, Entries.writeFile]
    by_cases hpath : file.1 = last.1
    · rw [hpath, AList.lookup_insert, hagree last (by simp) file hmem hpath.symm]
    · rw [AList.lookup_insert_ne hpath]
      refine ih (fun f hf g hg => hagree f (by simp [hf]) g (by simp [hg])) ?_
      obtain hfile | hfile := List.mem_append.mp hmem
      · exact hfile
      · exact absurd (congrArg Prod.fst (List.mem_singleton.mp hfile)) hpath

theorem layout_eq (tarball : Tarball T) (dir : Path) : tarball.layout dir =
    tarball.package.map fun files =>
      (files, if tarball.repoDir.isSome then dir else dir ++ ["build"]) := by
  obtain ⟨_ | repo, _ | build⟩ := tarball <;> rfl

/-- The files go below the directory of the version. -/
theorem prefix_of_layout {tarball : Tarball T} {dir dest : Path} {files : GoMap Path T}
    (h : tarball.layout dir = some (files, dest)) : dir <+: dest := by
  obtain ⟨_ | repo, _ | build⟩ := tarball
  · cases h
  · cases h
    exact List.prefix_append dir ["build"]
  · cases h
    exact List.prefix_rfl
  · cases h
    exact List.prefix_rfl

/-- The branch of a runtime whose package is a tarball. -/
theorem installPackage_tarball (config : OrchestratorConfig) {entry : ModuleRegistryEntry}
    (h : entry.runtime = "deno" ∨ entry.runtime = "deno-web") (version : String) (o : Outcome T) :
    installPackage config entry version o =
      if o.makesTemp = true ∧ o.body.isSome then
        match o.extracted.bind (·.layout (versionDir config entry.moduleID version)) with
        | none => { cleanup := true }
        | some (files, dest) =>
          { writes := moveContents o.copies files dest
            cleanup := !o.runsShell
            result := o.runsShell }
      else { cleanup := o.makesTemp } := by
  have hknown : entry.runtime ∈ ["go", "deno", "deno-web"] := by simpa using .inr h
  have hurl := getDownloadURL_ne_empty config hknown version
  have hbranch : installPackage config entry version o =
      if !o.makesTemp then {}
      else
        match o.body, o.extracted with
        | none, _ => { cleanup := true }
        | some _, none => { cleanup := true }
        | some _, some tarball =>
          match tarball.layout (versionDir config entry.moduleID version) with
          | none => { cleanup := true }
          | some (files, dest) =>
            { writes := moveContents o.copies files dest
              cleanup := !o.runsShell
              result := o.runsShell } := by
    obtain h | h := h <;> simp only [installPackage, h, if_neg hurl]
  rw [hbranch]
  cases o.makesTemp with
  | false => rfl
  | true =>
    cases o.body with
    | none => rfl
    | some body =>
      cases o.extracted with
      | none => rfl
      | some tarball => rfl

/-- A Go module is installed if its binary arrives, and cleaned up otherwise. -/
theorem installPackage_go (config : OrchestratorConfig) {entry : ModuleRegistryEntry}
    (h : entry.runtime = "go") (version : String) (o : Outcome T) :
    installPackage config entry version o =
      { writes := packageFiles config entry version o
        cleanup := o.body.isNone
        result := o.body.isSome } := by
  have hknown : entry.runtime ∈ ["go", "deno", "deno-web"] := by simp [h]
  have hurl := getDownloadURL_ne_empty config hknown version
  simp only [installPackage, h, if_neg hurl, packageFiles, if_true]
  cases o.body <;> rfl

/-- All that an installation writes lies under the directory of the version. -/
theorem prefix_of_mem_writes {config : OrchestratorConfig} {entry : ModuleRegistryEntry}
    {version : String} {o : Outcome T} (hname : IsName entry.moduleID)
    (hknown : entry.runtime ∈ ["go", "deno", "deno-web"]) {file : Path × T}
    (h : file ∈ (installPackage config entry version o).writes) :
    versionDir config entry.moduleID version <+: file.1 := by
  rw [List.mem_cons] at hknown
  obtain hgo | htarball := hknown
  · rw [installPackage_go config hgo, packageFiles, if_pos hgo, List.mem_map] at h
    obtain ⟨binary, -, rfl⟩ := h
    rw [join_plain hname.1 hname.2.1 hname.2.2.1 hname.2.2.2]
    exact List.prefix_append _ [entry.moduleID]
  · rw [installPackage_tarball config (by simpa using htarball)] at h
    split at h
    · split at h
      · cases h
      next files dest hlayout =>
        obtain ⟨tarball, -, hlayout⟩ := Option.bind_eq_some_iff.mp hlayout
        exact (prefix_of_layout hlayout).trans (prefix_of_mem_moveContents h)
    · cases h

/-- A successful installation writes all the files of the package. -/
theorem installPackage_succeeds (config : OrchestratorConfig) {entry : ModuleRegistryEntry}
    (version : String) {o : Outcome T} (hknown : entry.runtime ∈ ["go", "deno", "deno-web"])
    (h : Succeeds entry o) :
    (installPackage config entry version o).cleanup = false ∧
    (installPackage config entry version o).result = true ∧
    ∀ disk : Entries T, ∀ file ∈ packageFiles config entry version o,
      (disk.writeFiles (installPackage config entry version o).writes).files.lookup file.1 =
        some file.2 := by
  obtain ⟨hbody, hrest⟩ := h
  by_cases hgo : entry.runtime = "go"
  · obtain ⟨binary, hbinary⟩ := Option.isSome_iff_exists.mp hbody
    rw [installPackage_go config hgo]
    refine ⟨by rw [hbinary]; rfl, hbody, ?_⟩
    intro disk file hfile
    refine lookup_writeFiles ?_ hfile
    simp [packageFiles, hgo, hbinary]
  · obtain ⟨htemp, hshell, files, hpackage, hcopied⟩ := hrest.resolve_left hgo
    obtain ⟨tarball, hextracted, hpackage⟩ := Option.bind_eq_some_iff.mp hpackage
    have htarball : entry.runtime = "deno" ∨ entry.runtime = "deno-web" := by
      simpa [hgo] using hknown
    rw [installPackage_tarball config htarball, if_pos ⟨htemp, hbody⟩]
    simp only [packageFiles, if_neg hgo, hextracted, Option.bind_some, layout_eq, hpackage,
      Option.map_some, hshell, Bool.not_true, true_and]
    intro disk file hfile
    obtain ⟨f, hf, rfl⟩ := List.mem_map.mp hfile
    exact lookup_writeFiles (fun f hf g hg => eq_of_mem_moveContents hf hg)
      (mem_moveContents hcopied hf _)

/-- After such a failure of a known runtime the directory is removed. -/
theorem installPackage_fails (config : OrchestratorConfig) {entry : ModuleRegistryEntry}
    (version : String) {o : Outcome T} (hknown : entry.runtime ∈ ["go", "deno", "deno-web"])
    (h : FailsCleanly entry o) : (installPackage config entry version o).cleanup = true := by
  by_cases hgo : entry.runtime = "go"
  · rw [FailsCleanly, if_pos hgo] at h
    rw [installPackage_go config hgo, h]
    rfl
  · rw [FailsCleanly, if_neg hgo] at h
    obtain ⟨htemp, hfails⟩ := h
    have htarball : entry.runtime = "deno" ∨ entry.runtime = "deno-web" := by
      simpa [hgo] using hknown
    rw [installPackage_tarball config htarball]
    split
    next hbody =>
      split
      · rfl
      next files dest hlayout =>
        obtain ⟨tarball, hextracted, hlayout⟩ := Option.bind_eq_some_iff.mp hlayout
        have hpackage : o.extracted.bind Tarball.package ≠ none := by
          rw [layout_eq] at hlayout
          rw [hextracted, Option.bind_some]
          intro hnone
          rw [hnone] at hlayout
          cases hlayout
        obtain hnone | hnone | hshell := hfails
        · rw [hnone] at hbody
          cases hbody.2
        · exact absurd hnone hpackage
        · simp [hshell]
    · exact htemp

/-! ## Runs of installations -/

/-- The disk and the result of an installation that does not crash inside. -/
theorem installVersion_of_not_inside (config : OrchestratorConfig) (disk : Entries T)
    (entry : ModuleRegistryEntry) (version : String) {o : Outcome T} (hdir : o.makesDir = true)
    (hstart : o.crash ≠ some .atStart) (hinside : ∀ n, o.crash ≠ some (.inside n)) :
    installVersion config disk entry version o =
      (if (installPackage config entry version o).cleanup && o.removes then
          ((disk.makeDir (versionDir config entry.moduleID version)).writeFiles
            (installPackage config entry version o).writes).removeAll
              (versionDir config entry.moduleID version)
        else (disk.makeDir (versionDir config entry.moduleID version)).writeFiles
          (installPackage config entry version o).writes,
      if o.crash.isSome then none else some (installPackage config entry version o).result) := by
  simp only [installVersion, hdir, Bool.not_true, Bool.false_eq_true, if_false]

/-- An attempt that makes no directory changes nothing. -/
theorem installVersion_of_no_dir (config : OrchestratorConfig) (disk : Entries T)
    (entry : ModuleRegistryEntry) (version : String) {o : Outcome T}
    (h : o.makesDir = false ∨ o.crash = some .atStart) :
    (installVersion config disk entry version o).1 = disk := by
  by_cases hdir : o.makesDir = false
  · simp [installVersion, hdir]
  · simp [installVersion, hdir, h.resolve_left hdir]

/-- A step is sound when every directory that it leaves was there or is that of an installation
that it completes. -/
theorem Sound.step [DecidableEq T] {config : OrchestratorConfig} {s t : State T} {a : Attempt T}
    (hs : Sound config s) (hstep : ModuleInstall.step config s a = some t)
    (h : ∀ modID version, IsName modID → IsName version →
      isVersionInstalled config (installVersion config s.disk a.entry a.version a.outcome).1
        modID version → isVersionInstalled config s.disk modID version ∨
      ((modID, version) = (a.entry.moduleID, a.version) ∧
        (installVersion config s.disk a.entry a.version a.outcome).2 = some true ∧
        ∀ file ∈ packageFiles config a.entry a.version a.outcome,
          (installVersion config s.disk a.entry a.version a.outcome).1.files.lookup file.1 =
            some file.2)) :
    Sound config t := by
  simp only [ModuleInstall.step] at hstep
  split at hstep
  · cases hstep
    exact hs
  · cases hstep
    intro modID version hmod hversion hinstalled
    dsimp only
    obtain hbefore | ⟨heq, hresult, hfiles⟩ := h modID version hmod hversion hinstalled
    · have hmem := hs modID version hmod hversion hbefore
      split
      · exact .tail _ hmem
      · exact hmem
    · rw [if_pos (by simpa [hresult] using hfiles), heq]
      exact .head _

/-- Each attempt leaves only versions that are complete. -/
theorem sound_step [DecidableEq T] {config : OrchestratorConfig} {s t : State T} {a : Attempt T}
    (hs : Sound config s) (hclean : Clean config s a)
    (hstep : ModuleInstall.step config s a = some t) : Sound config t := by
  obtain ⟨hname, hversion, hinstalled | honline | hdir | hcrash | ⟨hknown, hcourse⟩⟩ := hclean
  · simp only [ModuleInstall.step, hinstalled, Bool.true_or, if_true, Option.some.injEq] at hstep
    exact hstep ▸ hs
  · simp only [ModuleInstall.step, honline, Bool.not_false, Bool.or_true, if_true,
      Option.some.injEq] at hstep
    exact hstep ▸ hs
  · refine hs.step hstep fun modID version _ _ h => .inl ?_
    rwa [installVersion_of_no_dir config s.disk a.entry a.version (.inl hdir)] at h
  · refine hs.step hstep fun modID version _ _ h => .inl ?_
    rwa [installVersion_of_no_dir config s.disk a.entry a.version (.inr hcrash)] at h
  · by_cases hdir : a.outcome.makesDir = false ∨ a.outcome.crash = some .atStart
    · refine hs.step hstep fun modID version _ _ h => .inl ?_
      rwa [installVersion_of_no_dir config s.disk a.entry a.version hdir] at h
    rw [not_or, Bool.not_eq_false] at hdir
    -- Other versions keep their directories, and get none.
    have hothers : ∀ modID version, IsName modID → IsName version →
        (modID, version) ≠ (a.entry.moduleID, a.version) →
        isVersionInstalled config
          ((s.disk.makeDir (versionDir config a.entry.moduleID a.version)).writeFiles
            (installPackage config a.entry a.version a.outcome).writes) modID version →
        isVersionInstalled config s.disk modID version := by
      intro modID version hmod' hversion' hne h
      exact installed_of_installed hname hversion hmod' hversion' hne
        (fun file hfile => prefix_of_mem_writes hname hknown hfile) h
    obtain ⟨hsucceeds, hlives⟩ | ⟨hfails, hremoves, hinside⟩ := hcourse
    · have hrun := installVersion_of_not_inside config s.disk a.entry a.version hdir.1 hdir.2
        (by simp [hlives])
      obtain ⟨hcleanup, hresult, hfiles⟩ := installPackage_succeeds config a.version hknown hsucceeds
      rw [hcleanup, hresult, hlives] at hrun
      refine hs.step hstep ?_
      rw [hrun]
      intro modID version hmod' hversion' h
      by_cases hsame : (modID, version) = (a.entry.moduleID, a.version)
      · exact .inr ⟨hsame, rfl, hfiles _⟩
      · exact .inl (hothers modID version hmod' hversion' hsame h)
    · have hrun := installVersion_of_not_inside config s.disk a.entry a.version hdir.1 hdir.2 hinside
      rw [installPackage_fails config a.version hknown hfails, hremoves, Bool.and_true,
        if_pos rfl] at hrun
      refine hs.step hstep ?_
      rw [hrun]
      intro modID version hmod' hversion' h
      simp only [isVersionInstalled, Entries.removeAll, Finset.mem_filter, decide_eq_true_eq] at h
      left
      refine hothers modID version hmod' hversion' ?_ (decide_eq_true h.1)
      rintro ⟨⟩
      exact h.2 List.prefix_rfl

/-- Along every run of installations that are clean, a version that counts as installed was
installed to the end, with all the files of its package. -/
theorem sound_of_meets [DecidableEq T] (config : OrchestratorConfig) {s t : State T}
    {as : List (Attempt T)} (hs : Sound config s)
    (hclean : Runs.Meets (step config) (Clean config) s as)
    (hrun : Runs.run (step config) s as = some t) : Sound config t :=
  Runs.run_invariant (fun _ _ _ => sound_step) hs hclean hrun

def bareMetal : OrchestratorConfig := ⟨["opt", "versions"], "org", "amd64"⟩

def mqtt (runtime : String) (outcome : Outcome String) : Attempt String :=
  ⟨{ repo := "tentacle-mqtt", moduleID := "mqtt", runtime }, "1.0", outcome⟩

def sources : Tarball String :=
  { repoDir := some (AList.insert ["main.ts"] "main" (AList.insert [".env"] "env" ∅)) }

/-- A download that fails, and then an installation that succeeds. -/
def secondTry : List (Attempt String) :=
  [mqtt "deno" { body := none }, mqtt "deno" { body := some "tar", extracted := some sources }]

theorem sound_of_meets_secondTry : ∃ t, Runs.run (step bareMetal) {} secondTry = some t ∧
    isVersionInstalled bareMetal t.disk "mqtt" "1.0" ∧ t.completed = [("mqtt", "1.0")] ∧
    Sound bareMetal t := by
  have hmod : IsName "mqtt" := by unfold IsName; decide
  have hversion : IsName "1.0" := by unfold IsName; decide
  have hsound : Sound bareMetal ({} : State String) := by
    intro modID version _ _ h
    cases h
  have hclean : Runs.Meets (step bareMetal) (Clean bareMetal) {} secondTry := by
    refine ⟨⟨hmod, hversion, .inr (.inr (.inr (.inr ⟨by decide, .inr ?_⟩)))⟩, fun t _ =>
      ⟨⟨hmod, hversion, .inr (.inr (.inr (.inr ⟨by decide, .inl ?_⟩)))⟩, fun _ _ => trivial⟩⟩
    · exact ⟨⟨rfl, .inl rfl⟩, rfl, fun n hcrash => by cases hcrash⟩
    · refine ⟨⟨rfl, .inr ⟨rfl, rfl, _, rfl, ?_⟩⟩, rfl⟩
      unfold Copied
      decide
  have hresult : (Runs.run (step bareMetal) {} secondTry).any (fun t =>
      isVersionInstalled bareMetal t.disk "mqtt" "1.0" && t.completed = [("mqtt", "1.0")]) := by
    decide +kernel
  obtain ⟨t, hrun, ht⟩ := (Option.any_eq_true ..).mp hresult
  rw [Bool.and_eq_true, decide_eq_true_eq] at ht
  exact ⟨t, hrun, ht.1, ht.2, sound_of_meets bareMetal hsound hclean hrun⟩

/-- After the attempt the version counts as installed, and it was not installed to the end. -/
def CountsUnfinished (a : Attempt String) : Prop :=
  ∃ t, Runs.run (step bareMetal) {} [a] = some t ∧
    isVersionInstalled bareMetal t.disk a.entry.moduleID a.version ∧ ¬ Sound bareMetal t

/-- A version that counts as installed and was never completed shows the divergence. -/
theorem countsUnfinished {runtime : String} {o : Outcome String}
    (h : (Runs.run (step bareMetal) {} [mqtt runtime o]).any fun t =>
      isVersionInstalled bareMetal t.disk "mqtt" "1.0" && t.completed = []) :
    CountsUnfinished (mqtt runtime o) := by
  obtain ⟨t, hrun, ht⟩ := (Option.any_eq_true ..).mp h
  rw [Bool.and_eq_true, decide_eq_true_eq] at ht
  refine ⟨t, hrun, ht.1, fun hsound => ?_⟩
  have hmem := hsound "mqtt" "1.0" (by unfold IsName; decide) (by unfold IsName; decide) ht.1
  rw [ht.2] at hmem
  cases hmem

/-- A runtime that is not known, a temporary directory that cannot be made, a file that is not
copied, and a crash during the download. -/
theorem unfinished_installed :
    CountsUnfinished (mqtt "embedded" { body := none }) ∧
    CountsUnfinished (mqtt "deno" { body := none, makesTemp := false }) ∧
    CountsUnfinished (mqtt "deno" {
      body := some "tar", extracted := some sources, copies := (· ≠ ["main.ts"]) }) ∧
    CountsUnfinished (mqtt "go" { body := none, crash := some (.inside 0) }) := by
  refine ⟨countsUnfinished ?_, countsUnfinished ?_, countsUnfinished ?_, countsUnfinished ?_⟩
  all_goals decide +kernel

end ModuleInstall
