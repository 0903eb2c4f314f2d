import Tentacle.GitopsFiles

/-!
# Syncs of the configuration repository

`syncToGit` writes the files of the current export over those of the syncs before. It removes none
of them, so that the directory holds what it exported exactly when every file that was there is one
of the export again.
-/

namespace GitopsDeletions

open GoValues FileTree Manifest GitopsFiles

/-- The state after the steps up to the first that fails, and its error. -/
def untilError {σ α ε : Type} (step : σ → α → Except ε σ) : σ → List α → σ × Option ε
  | s, [] => (s, none)
  | s, a :: as =>
    match step s a with
    | .error e => (s, some e)
    | .ok t => untilError step t as

/-- A sync: the state of the KV buckets, and the orders in which Go lists their keys and the
directories. -/
structure Sync where
  bus : Bus
  order : KeyOrder := .sorted
  kinds : List Kind := Kind.all
  all : kinds.Perm Kind.all := by exact .refl _

def Sync.resources (s : Sync) : List Resource := exportResources s.order [] s.bus

/-- The directory after a sync. Where a file cannot be written the others after it are not. -/
def syncToGit (yaml : Yaml) (configPath : Path) (disk : Disk yaml.Text) (s : Sync) :
    Disk yaml.Text :=
  match untilError (createDir yaml configPath) disk s.kinds with
  | (disk, some _) => disk
  | (disk, none) => (untilError (writeResource yaml configPath) disk s.resources).1

def syncAll (yaml : Yaml) (configPath : Path) (disk : Disk yaml.Text) (syncs : List Sync) :
    Disk yaml.Text :=
  syncs.foldl (syncToGit yaml configPath) disk

/-- A pull finds in the directory what the sync has exported. -/
def Holds (yaml : Yaml) (configPath : Path) (disk : Disk yaml.Text) (resources : List Resource) :
    Prop :=
  ∃ found, readManifestFiles yaml configPath disk = .ok found ∧ found.Perm resources

section Steps

variable {σ α ε : Type} {step : σ → α → Except ε σ}

/-- Without an error the loop goes to its end. -/
theorem untilError_of_ok {s t : σ} {as : List α} (h : as.foldlM step s = .ok t) :
    untilError step s as = (t, none) := by
  induction as generalizing s with
  | nil =>
    cases h
    rfl
  | cons a as ih =>
    rw [List.foldlM_cons] at h
    rw [untilError]
    cases hstep : step s a with
    | error e =>
      rw [hstep] at h
      cases h
    | ok u =>
      rw [hstep] at h
      exact ih h

/-- The steps that were done are the first ones, and the next one fails. -/
theorem untilError_spec (step : σ → α → Except ε σ) (s : σ) (as : List α) :
    ∃ done rest, as = done ++ rest ∧ done.foldlM step s = .ok (untilError step s as).1 ∧
      ∀ a ∈ rest.head?, ∃ e, step (untilError step s as).1 a = .error e := by
  induction as generalizing s with
  | nil => exact ⟨[], [], rfl, rfl, nofun⟩
  | cons a as ih =>
    cases hstep : step s a with
    | error e =>
      refine ⟨[], a :: as, rfl, ?_, ?_⟩
      · rw [untilError, hstep]
        rfl
      · intro b hb
        cases hb
        rw [untilError, hstep]
        exact ⟨e, hstep⟩
    | ok u =>
      obtain ⟨done, rest, rfl, hdone, hrest⟩ := ih u
      have hu : untilError step s (a :: (done ++ rest)) = untilError step u (done ++ rest) := by
        rw [untilError, hstep]
      refine ⟨a :: done, rest, rfl, ?_, ?_⟩
      · rw [hu, List.foldlM_cons, hstep]
        exact hdone
      · rw [hu]
        exact hrest

end Steps

variable {yaml : Yaml} {configPath : Path}

/-- Where all files can be written, a sync does what `writeManifestFiles` does. -/
theorem syncToGit_of_ok {disk disk' : Disk yaml.Text} {s : Sync}
    (h : writeManifestFiles yaml s.kinds s.resources configPath disk = .ok disk') :
    syncToGit yaml configPath disk s = disk' := by
  rw [writeManifestFiles] at h
  cases hcreate : s.kinds.foldlM (createDir yaml configPath) disk with
  | error e =>
    rw [hcreate] at h
    cases h
  | ok disk₁ =>
    rw [hcreate] at h
    rw [syncToGit, untilError_of_ok hcreate]
    dsimp only
    rw [untilError_of_ok h]

/-! ## What syncs leave behind -/

/-- In the directory are those of the kinds and the files of resources. -/
structure Synced (configPath : Path) (disk : Disk yaml.Text) : Prop where
  mem : configPath ∈ disk.dirs
  only : ∀ path ∈ disk.dirs, configPath <+: path →
    path = configPath ∨ ∃ kind, path = configPath ++ [kindDir kind]
  files : ∀ path text, disk.files.lookup path = some text → configPath <+: path →
    ∃ r, path = filePath configPath r ∧ text = serialize yaml [r]
  named : ∀ path ∈ disk.files, configPath <+: path → acceptsLast path = true

theorem synced_of_emptyDir {disk : Disk yaml.Text} (h : disk.EmptyDir configPath) :
    Synced configPath disk where
  mem := h.mem
  only path hpath hunder := .inl (h.no_dirs path hpath hunder)
  files path text hlookup hunder :=
    absurd hunder (h.no_files path (AList.lookup_isSome.mp (by simp [hlookup])))
  named path hpath hunder := absurd hunder (h.no_files path hpath)

theorem Synced.dir_not_mem_files {disk : Disk yaml.Text} (h : Synced configPath disk)
    (kind : Kind) : configPath ++ [kindDir kind] ∉ disk.files := by
  intro hmem
  obtain ⟨text, hlookup⟩ := Option.isSome_iff_exists.mp (AList.lookup_isSome.mpr hmem)
  obtain ⟨r, hr, -⟩ := h.files _ text hlookup (List.prefix_append _ _)
  exact filePath_ne_dir r kind configPath hr.symm

/-- The directories of the kinds can be made, and nothing else changes. -/
theorem Synced.createDirs {disk : Disk yaml.Text} (h : Synced configPath disk) {kinds : List Kind}
    (hkinds : kinds.Perm Kind.all) :
    ∃ disk₁, kinds.foldlM (createDir yaml configPath) disk = .ok disk₁ ∧
      disk₁.files = disk.files ∧ Synced configPath disk₁ ∧ LaidOut configPath disk₁ := by
  obtain ⟨disk₁, hcreate, hfiles, hdirs⟩ := foldlM_createDir kinds h.mem h.dir_not_mem_files
  have hmem : configPath ∈ disk₁.dirs := (hdirs _).mpr (.inl h.mem)
  have honly : ∀ path ∈ disk₁.dirs, configPath <+: path →
      path = configPath ∨ ∃ kind, path = configPath ++ [kindDir kind] := by
    intro path hpath hunder
    obtain hold | ⟨kind, -, he⟩ := (hdirs path).mp hpath
    · exact h.only path hold hunder
    · exact .inr ⟨kind, he⟩
  refine ⟨disk₁, hcreate, hfiles, ⟨hmem, honly, ?_, ?_⟩, ⟨hmem, ?_, honly⟩⟩
  · rw [hfiles]
    exact h.files
  · rw [hfiles]
    exact h.named
  · intro kind
    exact (hdirs _).mpr (.inr ⟨kind, mem_of_perm_all hkinds kind, rfl⟩)

/-- One more file of a resource stays in the directory of its kind. -/
theorem Synced.writeResource {disk disk' : Disk yaml.Text} (h : Synced configPath disk)
    {r : Resource} (hwrite : writeResource yaml configPath disk r = .ok disk') :
    Synced configPath disk' := by
  obtain ⟨hw, hdirs, hfiles⟩ := writeResource_eq_ok_iff.mp hwrite
  refine ⟨by rw [hdirs]; exact h.mem, by rw [hdirs]; exact h.only, ?_, ?_⟩
  · rw [hfiles]
    exact forall_lookup_insert h.files fun _ => ⟨r, rfl, rfl⟩
  · intro path hpath hunder
    rw [hfiles, AList.mem_insert] at hpath
    obtain rfl | hpath := hpath
    · exact hw.named
    · exact h.named path hpath hunder

theorem Synced.writeResources {disk disk' : Disk yaml.Text} (h : Synced configPath disk)
    {resources : List Resource}
    (hwrite : resources.foldlM (GitopsFiles.writeResource yaml configPath) disk = .ok disk') :
    Synced configPath disk' := by
  induction resources generalizing disk with
  | nil =>
    cases hwrite
    exact h
  | cons r resources ih =>
    rw [List.foldlM_cons] at hwrite
    cases hstep : GitopsFiles.writeResource yaml configPath disk r with
    | error e =>
      rw [hstep] at hwrite
      cases hwrite
    | ok disk₁ =>
      rw [hstep] at hwrite
      exact ih (h.writeResource hstep) hwrite

/-- A sync writes the first of the exported resources, and all of them if they can be written. -/
theorem Synced.sync {disk : Disk yaml.Text} (h : Synced configPath disk) (s : Sync) :
    ∃ disk₁ done rest, s.resources = done ++ rest ∧
      done.foldlM (GitopsFiles.writeResource yaml configPath) disk₁ =
        .ok (syncToGit yaml configPath disk s) ∧
      (∀ r ∈ rest.head?, ¬disk₁.Writable (filePath configPath r)) ∧
      disk₁.files = disk.files ∧ Synced configPath disk₁ ∧ LaidOut configPath disk₁ := by
  obtain ⟨disk₁, hcreate, hfiles, hsynced, hlaid⟩ := h.createDirs s.all
  obtain ⟨done, rest, hresources, hdone, hrest⟩ := untilError_spec
    (GitopsFiles.writeResource yaml configPath) disk₁ s.resources
  have hsync : syncToGit yaml configPath disk s =
      (untilError (GitopsFiles.writeResource yaml configPath) disk₁ s.resources).1 := by
    rw [syncToGit, untilError_of_ok hcreate]
  rw [← hsync] at hdone hrest
  refine ⟨disk₁, done, rest, hresources, hdone, ?_, hfiles, hsynced, hlaid⟩
  intro r hr hw
  obtain ⟨e, he⟩ := hrest r hr
  rw [← writable_congr (foldlM_writeResource hdone).2.1] at hw
  obtain ⟨disk₂, hdisk₂⟩ := hw.exists_writeFile (serialize yaml [r])
  rw [writeResource_eq_ok_iff.mpr (Disk.writeFile_eq_some_iff.mp hdisk₂)] at he
  cases he

theorem Synced.syncToGit {disk : Disk yaml.Text} (h : Synced configPath disk) (s : Sync) :
    Synced configPath (syncToGit yaml configPath disk s) := by
  obtain ⟨disk₁, done, rest, -, hdone, -, -, hsynced, -⟩ := h.sync s
  exact hsynced.writeResources hdone

theorem Synced.syncAll {disk : Disk yaml.Text} (h : Synced configPath disk) (syncs : List Sync) :
    Synced configPath (syncAll yaml configPath disk syncs) := by
  induction syncs generalizing disk with
  | nil => exact h
  | cons s syncs ih => exact ih (h.syncToGit s)

/-! ## Reading the directory -/

theorem filePath_wire (configPath : Path) (r : Resource) :
    filePath configPath r.wire = filePath configPath r := by
  obtain ⟨name, spec⟩ := r
  cases spec <;> rfl

/-- Two resources that have the same text are the same on the wire. -/
theorem wire_eq_of_serialize {r r' : Resource} (h : serialize yaml [r] = serialize yaml [r']) :
    r.wire = r'.wire := by
  have hparse := parse_serialize yaml [r]
  rw [h, parse_serialize] at hparse
  simpa using hparse.symm

/-- One resource is read for each file of the directory. -/
theorem Synced.readManifestFiles {disk : Disk yaml.Text} (h : Synced configPath disk) :
    ∃ written : List Resource,
      readManifestFiles yaml configPath disk = .ok (written.map Resource.wire) ∧
      (written.map (filePath configPath)).Nodup ∧
      (∀ r ∈ written, disk.files.lookup (filePath configPath r) = some (serialize yaml [r]) ∧
        configPath <+: filePath configPath r) ∧
      ∀ path ∈ disk.files, configPath <+: path → path ∈ written.map (filePath configPath) := by
  obtain ⟨found, hwalk, hnodup, hfound⟩ := Disk.walk_eq_some h.mem
  obtain ⟨written, rfl, hwritten⟩ := exists_map_eq (f := entry yaml configPath)
    (P := fun r => disk.files.lookup (filePath configPath r) = some (serialize yaml [r]) ∧
      configPath <+: filePath configPath r) (l := found) (by
    rintro ⟨path, text⟩ he
    obtain ⟨hlookup, hunder⟩ := (hfound _).mp he
    obtain ⟨r, rfl, rfl⟩ := h.files path text hlookup hunder
    exact ⟨r, ⟨hlookup, hunder⟩, rfl⟩)
  refine ⟨written, ?_, ?_, hwritten, ?_⟩
  · have hfilter : (written.map (entry yaml configPath)).filter (fun e => isYaml e.1) =
        written.map (entry yaml configPath) := by
      rw [List.filter_eq_self]
      intro e he
      obtain ⟨r, -, rfl⟩ := List.mem_map.mp he
      exact isYaml_filePath configPath r
    rw [GitopsFiles.readManifestFiles, hwalk]
    dsimp only
    rw [hfilter, mapM_readFile, ← flatten_map_wire]
    rfl
  · rwa [List.map_map] at hnodup
  · intro path hpath hunder
    obtain ⟨text, hlookup⟩ := Option.isSome_iff_exists.mp (AList.lookup_isSome.mpr hpath)
    have he := List.mem_map_of_mem (f := Sigma.fst) ((hfound ⟨path, text⟩).mpr ⟨hlookup, hunder⟩)
    rwa [List.map_map] at he

/-! ## When the directory holds the export -/

theorem mem_foldl_insert_of_mem {K V W : Type} [DecidableEq K] (key : W → K) (value : W → V)
    {k : K} (ws : List W) {m : GoMap K V} (h : k ∈ m) :
    k ∈ ws.foldl (fun m w => m.insert (key w) (value w)) m := by
  induction ws generalizing m with
  | nil => exact h
  | cons w ws ih => exact ih ((AList.mem_insert m).mpr (.inr h))

/-- Every file of the directory is one that the sync writes. -/
def NoStale (configPath : Path) (disk : Disk yaml.Text) (resources : List Resource) : Prop :=
  ∀ path ∈ disk.files, configPath <+: path → path ∈ resources.map (filePath configPath)

section Sync

variable {disk : Disk yaml.Text} (h : Synced configPath disk) (s : Sync)
include h

theorem laidOut_syncToGit : LaidOut configPath (syncToGit yaml configPath disk s) := by
  obtain ⟨disk₁, done, rest, -, hdone, -, -, -, hlaid⟩ := h.sync s
  have hdirs := (foldlM_writeResource hdone).2.1
  exact ⟨by rw [hdirs]; exact hlaid.mem, by rw [hdirs]; exact hlaid.kinds,
    by rw [hdirs]; exact hlaid.only⟩

theorem mem_files_syncToGit {path : Path} (hpath : path ∈ disk.files) :
    path ∈ (syncToGit yaml configPath disk s).files := by
  obtain ⟨disk₁, done, rest, -, hdone, -, hfiles, -, -⟩ := h.sync s
  rw [(foldlM_writeResource hdone).2.2, hfiles]
  exact mem_foldl_insert_of_mem _ _ done hpath

/-- What is read from the directory is what is in its files, so each resource that is read again
has its file there. -/
theorem separate_of_holds (hholds : Holds yaml configPath (syncToGit yaml configPath disk s)
    s.resources) : Separate configPath s.resources ∧ NoStale configPath disk s.resources := by
  have hsynced := h.syncToGit s
  obtain ⟨written, hread, hnodup, hwritten, hcover⟩ := hsynced.readManifestFiles
  obtain ⟨found, hfound, hperm⟩ := hholds
  obtain rfl : written.map Resource.wire = found := Except.ok.inj (hread.symm.trans hfound)
  have hpaths : (written.map Resource.wire).map (filePath configPath) =
      written.map (filePath configPath) := by
    rw [List.map_map]
    exact List.map_congr_left fun r _ => filePath_wire configPath r
  have hfile : ∀ r ∈ s.resources, ∃ r' ∈ written, r'.wire = r ∧
      filePath configPath r = filePath configPath r' := by
    intro r hr
    obtain ⟨r', hr', rfl⟩ := List.mem_map.mp (hperm.mem_iff.mpr hr)
    exact ⟨r', hr', rfl, filePath_wire configPath r'⟩
  have hplaced : ∀ r ∈ s.resources, ((filePath configPath r).dropLast = configPath ∨
      ∃ kind, (filePath configPath r).dropLast = configPath ++ [kindDir kind]) ∧
      acceptsLast (filePath configPath r) = true := by
    intro r hr
    obtain ⟨r', hr', -, hpath⟩ := hfile r hr
    obtain ⟨hlookup, hunder⟩ := hwritten r' hr'
    have hmem : filePath configPath r' ∈ (syncToGit yaml configPath disk s).files :=
      AList.lookup_isSome.mp (by simp [hlookup])
    rw [← writable_iff_placed (laidOut_syncToGit h s), hpath]
    exact ⟨hunder, Disk.file_parent_mem _ _ hmem, Disk.file_not_mem _ _ hmem,
      hsynced.named _ hmem hunder⟩
  refine ⟨⟨fun r hr => (hplaced r hr).1, fun r hr => (hplaced r hr).2, ?_, ?_⟩, ?_⟩
  · rw [← (hperm.map (filePath configPath)).nodup_iff, hpaths]
    exact hnodup
  · intro r hr
    obtain ⟨r', -, rfl, -⟩ := hfile r hr
    exact (wire_eq_self_iff _).mp (wire_wire r')
  · intro path hpath hunder
    rw [← (hperm.map (filePath configPath)).mem_iff, hpaths]
    exact hcover path (mem_files_syncToGit h s hpath) hunder

/-- Where every resource has its place, all of them are written. -/
theorem files_syncToGit (hsep : Separate configPath s.resources) :
    (∀ r ∈ s.resources, configPath <+: filePath configPath r) ∧
      (syncToGit yaml configPath disk s).files = s.resources.foldl (fun files r =>
        files.insert (filePath configPath r) (serialize yaml [r])) disk.files := by
  obtain ⟨disk₁, done, rest, hresources, hdone, hrest, hfiles, -, hlaid⟩ := h.sync s
  have hw := fun r hr => (writable_iff_placed hlaid r).mpr ⟨hsep.placed r hr, hsep.named r hr⟩
  refine ⟨fun r hr => (hw r hr).1, ?_⟩
  cases rest with
  | nil =>
    rw [List.append_nil] at hresources
    rw [hresources, (foldlM_writeResource hdone).2.2, hfiles]
  | cons r rest =>
    have hmem : r ∈ s.resources := by
      rw [hresources]
      exact List.mem_append_right _ (.head _)
    exact absurd (hw r hmem).2 (hrest r rfl)

/-- A sync leaves no other files than its own where there were no others. -/
theorem noStale_syncToGit (hsep : Separate configPath s.resources)
    (hstale : NoStale configPath disk s.resources) :
    NoStale configPath (syncToGit yaml configPath disk s) s.resources := by
  intro path hpath hunder
  obtain ⟨text, htext⟩ := Option.isSome_iff_exists.mp (AList.lookup_isSome.mpr hpath)
  have hkept := forall_lookup_foldl_insert (P := fun path _ => configPath <+: path →
      path ∈ s.resources.map (filePath configPath)) (filePath configPath)
    (fun r => serialize yaml [r]) s.resources disk.files
    (fun path text hold => hstale path (AList.lookup_isSome.mp (by simp [hold])))
    (fun r hr _ => List.mem_map_of_mem hr)
  rw [← (files_syncToGit h s hsep).2] at hkept
  exact hkept path text htext hunder

/-- With a file of its own for each resource and no stale file, the repository holds the export. -/
theorem holds_of_separate (hsep : Separate configPath s.resources)
    (hstale : NoStale configPath disk s.resources) :
    Holds yaml configPath (syncToGit yaml configPath disk s) s.resources := by
  obtain ⟨hunder, hfiles⟩ := files_syncToGit h s hsep
  obtain ⟨written, hread, hnodup, hwritten, hcover⟩ := (h.syncToGit s).readManifestFiles
  have hlookup : ∀ r ∈ s.resources, (syncToGit yaml configPath disk s).files.lookup
      (filePath configPath r) = some (serialize yaml [r]) := by
    intro r hr
    rw [hfiles]
    exact lookup_foldl_insert (filePath configPath) (fun r => serialize yaml [r]) hsep.distinct _ hr
  have hwire : ∀ r ∈ s.resources, r.wire = r := fun r hr =>
    (wire_eq_self_iff r).mpr (hsep.programs r hr)
  -- a path has one text, and so the resource that is read from it is the one that was written
  have hsame : ∀ r ∈ written, ∀ r' ∈ s.resources,
      filePath configPath r = filePath configPath r' → r.wire = r' := by
    intro r hr r' hr' hpath
    have htext := (hwritten r hr).1
    rw [hpath, hlookup r' hr', Option.some.injEq] at htext
    rw [wire_eq_of_serialize htext.symm, hwire r' hr']
  have hpath : ∀ r ∈ written, ∃ r' ∈ s.resources,
      filePath configPath r = filePath configPath r' := by
    intro r hr
    obtain ⟨htext, hunder⟩ := hwritten r hr
    obtain ⟨r', hr', heq⟩ := List.mem_map.mp (noStale_syncToGit h s hsep hstale _
      (AList.lookup_isSome.mp (by rw [htext]; rfl)) hunder)
    exact ⟨r', hr', heq.symm⟩
  refine ⟨_, hread, ?_⟩
  have hpaths : (written.map Resource.wire).map (filePath configPath) =
      written.map (filePath configPath) := by
    rw [List.map_map]
    exact List.map_congr_left fun r _ => filePath_wire configPath r
  have hnodup' : (written.map Resource.wire).Nodup := by
    rw [← hpaths] at hnodup
    exact hnodup.of_map
  refine (List.perm_ext_iff_of_nodup hnodup' hsep.distinct.of_map).mpr ?_
  intro r
  constructor
  · intro hr
    obtain ⟨r₀, hr₀, rfl⟩ := List.mem_map.mp hr
    obtain ⟨r', hr', heq⟩ := hpath r₀ hr₀
    rw [hsame r₀ hr₀ r' hr' heq]
    exact hr'
  · intro hr
    obtain ⟨r₀, hr₀, heq⟩ := List.mem_map.mp (hcover _ (AList.lookup_isSome.mp
      (by rw [hlookup r hr]; rfl)) (hunder r hr))
    exact List.mem_map.mpr ⟨r₀, hr₀, hsame r₀ hr₀ r hr heq⟩

end Sync

/-- After any run of syncs, one more leaves in the directory what it exports exactly when each
exported resource has a file of its own there and every file that was there is one of theirs. -/
theorem syncToGit_holds_iff {start : Disk yaml.Text} (hempty : start.EmptyDir configPath)
    (syncs : List Sync) (s : Sync) :
    Holds yaml configPath (syncToGit yaml configPath (syncAll yaml configPath start syncs) s)
        s.resources ↔
      Separate configPath s.resources ∧
        NoStale configPath (syncAll yaml configPath start syncs) s.resources := by
  have hsynced := (synced_of_emptyDir hempty).syncAll syncs
  constructor
  · exact separate_of_holds hsynced s
  · rintro ⟨hsep, hstale⟩
    exact holds_of_separate hsynced s hsep hstale

/-! ## A service that is deleted -/

def mqttService : DesiredServiceKV where
  moduleID := "mqtt"
  version := "1.0.0"
  running := true
  updatedAt := 0

/-- The service of the MQTT bridge is wanted. -/
def withService : Sync where
  bus := { desiredServices := (∅ : Bucket DesiredServiceKV).insert "mqtt" (some mqttService) }

def withoutService : Sync where
  bus := {}

theorem withService_resources : withService.resources =
    [{ name := "mqtt", spec := .service { version := "1.0.0", running := true } }] := by
  decide +kernel

/-- The resources of the example have different files. -/
theorem separate_withService : Separate ["config"] withService.resources := by
  rw [withService_resources]
  refine (separate_iff_of_plain ?_ ?_ ?_).mpr (by decide)
  · decide
  · decide
  · intro r hr spec hspec
    rw [List.mem_singleton.mp hr] at hspec
    cases hspec

/-- What is exported again is read again. -/
theorem syncToGit_holds_withService :
    configDisk.EmptyDir ["config"] ∧
      Holds Yaml.tree ["config"] (syncToGit Yaml.tree ["config"]
        (syncAll Yaml.tree ["config"] configDisk [withService]) withService)
          withService.resources := by
  refine ⟨emptyDir_configDisk, (syncToGit_holds_iff emptyDir_configDisk [withService]
    withService).mpr ⟨separate_withService, ?_⟩⟩
  refine noStale_syncToGit (synced_of_emptyDir emptyDir_configDisk) withService
    separate_withService ?_
  intro path hpath
  exact absurd hpath (AList.notMem_empty path)

/-- The file of a service that is no longer in the KV stays, and a pull makes it again. -/
theorem withoutService_not_holds :
    ¬∀ (start : Disk Yaml.tree.Text), start.EmptyDir ["config"] → ∀ (syncs : List Sync) (s : Sync),
      Holds Yaml.tree ["config"] (syncToGit Yaml.tree ["config"]
        (syncAll Yaml.tree ["config"] start syncs) s) s.resources := by
  intro h
  have hsynced := synced_of_emptyDir emptyDir_configDisk
  have hstale := (separate_of_holds (hsynced.syncAll [withService]) withoutService
    (h configDisk emptyDir_configDisk [withService] withoutService)).2
  obtain ⟨hunder, hfiles⟩ := files_syncToGit hsynced withService separate_withService
  have hmem : { name := "mqtt", spec := .service { version := "1.0.0", running := true } } ∈
      withService.resources := by
    rw [withService_resources]
    exact .head _
  have hlookup := lookup_foldl_insert (filePath ["config"]) (fun r => serialize Yaml.tree [r])
    separate_withService.distinct configDisk.files hmem
  rw [← hfiles] at hlookup
  have hfile := hstale _ (AList.lookup_isSome.mp (by
    change ((syncToGit Yaml.tree ["config"] configDisk withService).files.lookup _).isSome
    rw [hlookup]
    rfl)) (hunder _ hmem)
  have hnone : withoutService.resources = [] := by decide +kernel
  rw [hnone] at hfile
  cases hfile

end GitopsDeletions
