import Tentacle.FileTree
import Tentacle.ManifestRoundTrip

/-!
# The files of the configuration repository

`writeManifestFiles` writes every resource to a file of its own, in the directory of its kind
and under its name, and `readManifestFiles` reads every YAML file below the directory. Two
kinds share a directory, and the name is put into the path as it is. What is written is read
again exactly when every path stays in the directories of the configuration and no two
resources have the same path.
-/

namespace GitopsFiles

open GoValues FileTree Manifest

def kindDir : Kind → String
  | .gateway => "gateways"
  | .service => "services"
  | .moduleConfig => "config"
  | .nftables => "infrastructure"
  | .network => "infrastructure"
  | .plc => "plc"

def filePath (configPath : Path) (r : Resource) : Path :=
  join configPath [kindDir r.kind, r.name ++ ".yaml"]

/-- `create dir %s: %w` and `write %s: %w`. -/
inductive WriteError where
  | createDir (dir : String)
  | write (filename : Path)
  deriving DecidableEq, Repr

/-- The error of the walk, and `parse %s: %w`. -/
inductive ReadError where
  | walk
  | parse (path : Path) (err : ParseError)
  deriving DecidableEq, Repr

variable (yaml : Yaml)

def createDir (configPath : Path) (disk : Disk yaml.Text) (kind : Kind) :
    Except WriteError (Disk yaml.Text) :=
  match disk.mkdirAll (join configPath [kindDir kind]) with
  | none => .error (.createDir (kindDir kind))
  | some disk => .ok disk

def writeResource (configPath : Path) (disk : Disk yaml.Text) (r : Resource) :
    Except WriteError (Disk yaml.Text) :=
  match disk.writeFile (filePath configPath r) (serialize yaml [r]) with
  | none => .error (.write (filePath configPath r))
  | some disk => .ok disk

/-- The directories are made in the order in which Go lists the map of them. -/
def writeManifestFiles (kinds : List Kind) (resources : List Resource) (configPath : Path)
    (disk : Disk yaml.Text) : Except WriteError (Disk yaml.Text) := do
  let disk ← kinds.foldlM (createDir yaml configPath) disk
  resources.foldlM (writeResource yaml configPath) disk

def isYaml (path : Path) : Bool :=
  path.getLast?.any fun name => ".yaml".toList.isSuffixOf name.toList ||
    ".yml".toList.isSuffixOf name.toList

def readFile (e : Sigma fun _ : Path => yaml.Text) : Except ReadError (List Resource) :=
  match parse yaml e.2 with
  | .error err => .error (.parse e.1 err)
  | .ok resources => .ok resources

def readManifestFiles (configPath : Path) (disk : Disk yaml.Text) :
    Except ReadError (List Resource) :=
  match disk.walk configPath with
  | none => .error .walk
  | some files => do return (← (files.filter fun e => isYaml e.1).mapM (readFile yaml)).flatten

/-- Every resource has a file of its own, in the directories of the configuration. -/
structure Separate (configPath : Path) (resources : List Resource) : Prop where
  placed : ∀ r ∈ resources, (filePath configPath r).dropLast = configPath ∨
    ∃ kind, (filePath configPath r).dropLast = configPath ++ [kindDir kind]
  named : ∀ r ∈ resources, acceptsLast (filePath configPath r) = true
  distinct : (resources.map (filePath configPath)).Nodup
  programs : ∀ r ∈ resources, ∀ spec, r.spec = .plc spec → spec.programs ≠ some ∅

variable {yaml} {configPath : Path}

/-! ## Paths -/

theorem join_kindDir (base : Path) (kind : Kind) (elems : List String) :
    join base (kindDir kind :: elems) = join (base ++ [kindDir kind]) elems := by
  cases kind <;> exact join_plain (by decide) (by decide) (by decide) (by decide) base elems

theorem filePath_eq (configPath : Path) (r : Resource) :
    ∃ parent last, filePath configPath r = parent ++ [last ++ ".yaml"] :=
  join_suffix (by decide) (by decide) configPath [kindDir r.kind] r.name

/-- The file of a resource is one that is read back. -/
theorem isYaml_filePath (configPath : Path) (r : Resource) :
    isYaml (filePath configPath r) = true := by
  obtain ⟨parent, last, h⟩ := filePath_eq configPath r
  have hsuffix : ".yaml".toList <:+ (last ++ ".yaml").toList := by
    rw [String.toList_append]
    exact List.suffix_append _ _
  rw [isYaml, h, List.getLast?_concat, Option.any_some, List.isSuffixOf_iff_suffix.mpr hsuffix,
    Bool.true_or]

/-- No file has the path of a directory of a kind. -/
theorem filePath_ne_dir (r : Resource) (kind : Kind) (base : Path) :
    filePath configPath r ≠ base ++ [kindDir kind] := by
  obtain ⟨parent, last, h⟩ := filePath_eq configPath r
  rw [h]
  intro he
  have hlast : last ++ ".yaml" = kindDir kind := by
    simpa using congrArg List.getLast? he
  have hsuffix : ".yaml".toList <:+ (kindDir kind).toList := by
    rw [← hlast, String.toList_append]
    exact List.suffix_append _ _
  revert hsuffix
  cases kind <;> decide

/-! ## Writing -/

/-- The directories of the kinds can be made where no file stands in their place. -/
theorem foldlM_createDir (kinds : List Kind) {disk : Disk yaml.Text}
    (hmem : configPath ∈ disk.dirs)
    (hfiles : ∀ kind, configPath ++ [kindDir kind] ∉ disk.files) :
    ∃ disk', kinds.foldlM (createDir yaml configPath) disk = .ok disk' ∧
      disk'.files = disk.files ∧
      ∀ path, path ∈ disk'.dirs ↔ path ∈ disk.dirs ∨
        ∃ kind ∈ kinds, path = configPath ++ [kindDir kind] := by
  induction kinds generalizing disk with
  | nil => exact ⟨disk, rfl, rfl, by simp⟩
  | cons kind kinds ih =>
    have hname : acceptsLast (configPath ++ [kindDir kind]) = true := by
      rw [acceptsLast, List.getLast?_concat]
      cases kind <;> decide
    obtain ⟨disk₁, hmkdir, hfiles₁, hdirs₁⟩ :=
      Disk.mkdir_eq_some (hfiles kind) (by rwa [List.dropLast_concat]) hname
    obtain ⟨disk', hrun, hfiles', hdirs'⟩ := @ih disk₁
      (hdirs₁ ▸ Finset.mem_insert_of_mem hmem) (hfiles₁ ▸ hfiles)
    refine ⟨disk', ?_, hfiles'.trans hfiles₁, ?_⟩
    · have hstep : createDir yaml configPath disk kind = .ok disk₁ := by
        rw [createDir, join_kindDir]
        change (match disk.mkdirAll (configPath ++ [kindDir kind]) with
          | none => _
          | some disk => _) = _
        rw [Disk.mkdirAll_concat hmem, hmkdir]
      rw [List.foldlM_cons, hstep]
      exact hrun
    · intro path
      rw [hdirs', hdirs₁, Finset.mem_insert]
      simp only [List.mem_cons, exists_eq_or_imp]
      tauto

theorem writeResource_eq_ok_iff {disk disk' : Disk yaml.Text} {r : Resource} :
    writeResource yaml configPath disk r = .ok disk' ↔ disk.Writable (filePath configPath r) ∧
      disk'.dirs = disk.dirs ∧
      disk'.files = disk.files.insert (filePath configPath r) (serialize yaml [r]) := by
  rw [← Disk.writeFile_eq_some_iff, writeResource]
  cases disk.writeFile (filePath configPath r) (serialize yaml [r]) <;> simp

theorem writable_congr {disk disk₁ : Disk yaml.Text} (h : disk₁.dirs = disk.dirs) (path : Path) :
    disk₁.Writable path ↔ disk.Writable path := by
  rw [Disk.writable_iff, Disk.writable_iff, h]

/-- Files that can be written one by one can be written one after the other. -/
theorem exists_foldlM_writeResource (resources : List Resource) {disk : Disk yaml.Text}
    (h : ∀ r ∈ resources, disk.Writable (filePath configPath r)) :
    ∃ disk', resources.foldlM (writeResource yaml configPath) disk = .ok disk' := by
  induction resources generalizing disk with
  | nil => exact ⟨disk, rfl⟩
  | cons r resources ih =>
    have hw := h r (.head _)
    obtain ⟨disk₁, hdisk₁⟩ := hw.exists_writeFile (serialize yaml [r])
    obtain ⟨-, hdirs₁, hfiles₁⟩ := Disk.writeFile_eq_some_iff.mp hdisk₁
    rw [List.foldlM_cons, writeResource_eq_ok_iff.mpr ⟨hw, hdirs₁, hfiles₁⟩]
    apply ih
    intro r' hr'
    exact (writable_congr hdirs₁ _).mpr (h r' (.tail _ hr'))

/-- The file of a later resource takes the place of an earlier one under the same path. -/
theorem foldlM_writeResource {resources : List Resource} {disk disk' : Disk yaml.Text}
    (h : resources.foldlM (writeResource yaml configPath) disk = .ok disk') :
    (∀ r ∈ resources, disk.Writable (filePath configPath r)) ∧ disk'.dirs = disk.dirs ∧
      disk'.files = resources.foldl (fun files r =>
        files.insert (filePath configPath r) (serialize yaml [r])) disk.files := by
  induction resources generalizing disk with
  | nil =>
    cases h
    exact ⟨nofun, rfl, rfl⟩
  | cons r resources ih =>
    rw [List.foldlM_cons] at h
    cases hstep : writeResource yaml configPath disk r with
    | error err =>
      rw [hstep] at h
      cases h
    | ok disk₁ =>
      rw [hstep] at h
      obtain ⟨hw, hdirs₁, hfiles₁⟩ := writeResource_eq_ok_iff.mp hstep
      obtain ⟨hall, hdirs', hfiles'⟩ := ih h
      rw [hfiles₁] at hfiles'
      refine ⟨List.forall_mem_cons.mpr ⟨hw, ?_⟩, hdirs'.trans hdirs₁, hfiles'⟩
      intro r' hr'
      exact (writable_congr hdirs₁ _).mp (hall r' hr')

/-! ## Reading -/

/-- A list of values of a function is the list of its arguments, mapped. -/
theorem exists_map_eq {α β : Type} {P : α → Prop} {f : α → β} {l : List β}
    (h : ∀ b ∈ l, ∃ a, P a ∧ b = f a) : ∃ m : List α, l = m.map f ∧ ∀ a ∈ m, P a := by
  induction l with
  | nil => exact ⟨[], rfl, nofun⟩
  | cons b l ih =>
    obtain ⟨a, ha, rfl⟩ := h b (.head _)
    obtain ⟨m, rfl, hm⟩ := ih fun b hb => h b (.tail _ hb)
    exact ⟨a :: m, rfl, List.forall_mem_cons.mpr ⟨ha, hm⟩⟩

def entry (yaml : Yaml) (configPath : Path) (r : Resource) : Sigma fun _ : Path => yaml.Text :=
  ⟨filePath configPath r, serialize yaml [r]⟩

/-- Each file that was written is read back as the resource in it. -/
theorem mapM_readFile (written : List Resource) :
    (written.map (entry yaml configPath)).mapM (readFile yaml) =
      .ok (written.map fun r => [r.wire]) := by
  induction written with
  | nil => rfl
  | cons r written ih =>
    have hread : readFile yaml (entry yaml configPath r) = .ok [r.wire] := by
      rw [readFile, entry, parse_serialize]
      rfl
    rw [List.map_cons, List.mapM_cons, hread, ih]
    rfl

/-- What is read is one of the written resources for every path below the directory. -/
theorem readManifestFiles_eq_ok {disk disk' : Disk yaml.Text} {resources : List Resource}
    (hno : ∀ path ∈ disk.files, ¬ configPath <+: path) (hmem : configPath ∈ disk'.dirs)
    (hfiles : disk'.files = resources.foldl (fun files r =>
      files.insert (filePath configPath r) (serialize yaml [r])) disk.files) :
    ∃ written, readManifestFiles yaml configPath disk' = .ok (written.map Resource.wire) ∧
      written ⊆ resources ∧ (written.map (filePath configPath)).Nodup ∧
      (∀ r ∈ written, configPath <+: filePath configPath r) ∧
      ((resources.map (filePath configPath)).Nodup → ∀ r ∈ resources,
        configPath <+: filePath configPath r → filePath configPath r ∈
          written.map (filePath configPath)) := by
  obtain ⟨found, hwalk, hnodup, hfound⟩ := Disk.walk_eq_some hmem
  have hkept := @forall_lookup_foldl_insert _ _ _ _ (fun path text => configPath <+: path →
    ∃ r ∈ resources, (⟨path, text⟩ : Sigma fun _ : Path => yaml.Text) = entry yaml configPath r)
    (filePath configPath) (fun r => serialize yaml [r]) resources disk.files
    (fun path text h hunder => absurd hunder (hno path (AList.lookup_isSome.mp (by simp [h]))))
    (fun r hr _ => ⟨r, hr, rfl⟩)
  rw [← hfiles] at hkept
  obtain ⟨written, rfl, hsub⟩ := exists_map_eq fun e he =>
    hkept e.1 e.2 ((hfound e).mp he).1 ((hfound e).mp he).2
  refine ⟨written, ?_, hsub, ?_, ?_, ?_⟩
  · have hfilter : (written.map (entry yaml configPath)).filter (fun e => isYaml e.1) =
        written.map (entry yaml configPath) := by
      rw [List.filter_eq_self]
      intro e he
      obtain ⟨r, -, rfl⟩ := List.mem_map.mp he
      exact isYaml_filePath configPath r
    rw [readManifestFiles, hwalk]
    dsimp only
    rw [hfilter, mapM_readFile, ← flatten_map_wire]
    rfl
  · rwa [List.map_map] at hnodup
  · intro r hr
    exact ((hfound _).mp (List.mem_map_of_mem hr)).2
  · intro hdistinct r hr hunder
    have hlookup := lookup_foldl_insert (filePath configPath) (fun r => serialize yaml [r])
      hdistinct disk.files hr
    rw [← hfiles] at hlookup
    have he := (hfound (entry yaml configPath r)).mpr ⟨hlookup, hunder⟩
    have hfst := List.mem_map_of_mem (f := Sigma.fst) he
    rwa [List.map_map] at hfst

/-! ## What is written is read again -/

/-- A resource comes back as it was, unless it is a PLC with an empty set of programs. -/
theorem wire_eq_self_iff (r : Resource) :
    r.wire = r ↔ ∀ spec, r.spec = .plc spec → spec.programs ≠ some ∅ := by
  obtain ⟨name, spec⟩ := r
  cases spec with
  | plc spec =>
    obtain ⟨devices, variableConfigs, udtTemplates, tasks, programs⟩ := spec
    have hprograms : nilIfEmpty (programs.getD ∅) = programs ↔ programs ≠ some ∅ := by
      cases programs with
      | none => simp [nilIfEmpty]
      | some m => by_cases hm : m = ∅ <;> simp [nilIfEmpty, hm]
    simp [Resource.wire, Spec.wire, PlcSpec.wire, hprograms]
  | _ => simp [Resource.wire, Spec.wire]

theorem wire_wire (r : Resource) : r.wire.wire = r.wire := by
  obtain ⟨name, spec⟩ := r
  cases spec with
  | plc spec => simp only [Resource.wire, Spec.wire, PlcSpec.wire, getD_nilIfEmpty]
  | _ => rfl

/-- The directory has those of the kinds in it, and no others. -/
structure LaidOut (configPath : Path) (disk : Disk yaml.Text) : Prop where
  mem : configPath ∈ disk.dirs
  kinds : ∀ kind, configPath ++ [kindDir kind] ∈ disk.dirs
  only : ∀ path ∈ disk.dirs, configPath <+: path →
    path = configPath ∨ ∃ kind, path = configPath ++ [kindDir kind]

/-- After the directories are made, a file that is found again can be written in them only. -/
theorem writable_iff_placed {disk : Disk yaml.Text} (h : LaidOut configPath disk) (r : Resource) :
    configPath <+: filePath configPath r ∧ disk.Writable (filePath configPath r) ↔
      ((filePath configPath r).dropLast = configPath ∨
        ∃ kind, (filePath configPath r).dropLast = configPath ++ [kindDir kind]) ∧
      acceptsLast (filePath configPath r) = true := by
  obtain ⟨parent, last, hpath⟩ := filePath_eq configPath r
  have hnodir := fun kind => @filePath_ne_dir configPath r kind configPath
  rw [hpath] at hnodir ⊢
  rw [List.dropLast_concat]
  constructor
  · rintro ⟨hunder, hw⟩
    refine ⟨?_, hw.named⟩
    have hparent := hw.parent
    rw [List.dropLast_concat] at hparent
    obtain he | hunder := List.prefix_concat_iff.mp hunder
    · refine absurd ?_ hw.not_dir
      rw [← he]
      exact h.mem
    · exact h.only parent hparent hunder
  · rintro ⟨hparent, hname⟩
    have hunder : configPath <+: parent := by
      obtain rfl | ⟨kind, rfl⟩ := hparent
      · exact List.prefix_rfl
      · exact List.prefix_append _ _
    refine ⟨hunder.trans (List.prefix_append _ _), ?_, ?_, hname⟩
    · rw [List.dropLast_concat]
      obtain rfl | ⟨kind, rfl⟩ := hparent
      · exact h.mem
      · exact h.kinds kind
    · intro hmem
      obtain he | ⟨kind, he⟩ := h.only _ hmem (hunder.trans (List.prefix_append _ _))
      · have hlen := hunder.length_le
        rw [← he, List.length_append, List.length_singleton] at hlen
        omega
      · exact hnodir kind he

theorem mem_of_perm_all {kinds : List Kind} (h : kinds.Perm Kind.all) (kind : Kind) :
    kind ∈ kinds := by
  rw [h.mem_iff]
  cases kind <;> decide

/-- The directories of the kinds in an empty directory are all that it holds. -/
theorem laidOut_of_emptyDir {disk disk₁ : Disk yaml.Text} {kinds : List Kind}
    (hempty : disk.EmptyDir configPath) (hkinds : kinds.Perm Kind.all)
    (hdirs : ∀ path, path ∈ disk₁.dirs ↔ path ∈ disk.dirs ∨
      ∃ kind ∈ kinds, path = configPath ++ [kindDir kind]) : LaidOut configPath disk₁ where
  mem := (hdirs _).mpr (.inl hempty.mem)
  kinds kind := (hdirs _).mpr (.inr ⟨kind, mem_of_perm_all hkinds kind, rfl⟩)
  only path hpath hunder := by
    obtain hmem | ⟨kind, -, he⟩ := (hdirs path).mp hpath
    · exact .inl (hempty.no_dirs path hmem hunder)
    · exact .inr ⟨kind, he⟩

section

variable {disk : Disk yaml.Text} (hempty : disk.EmptyDir configPath) {kinds : List Kind}
  (hkinds : kinds.Perm Kind.all) {resources : List Resource}

include hempty

/-- Writing is making the directories and then writing the files. -/
theorem writeManifestFiles_eq : ∃ disk₁ : Disk yaml.Text,
    writeManifestFiles yaml kinds resources configPath disk =
      resources.foldlM (writeResource yaml configPath) disk₁ ∧
    configPath ∈ disk₁.dirs ∧ disk₁.files = disk.files ∧
    ∀ path, path ∈ disk₁.dirs ↔ path ∈ disk.dirs ∨
      ∃ kind ∈ kinds, path = configPath ++ [kindDir kind] := by
  obtain ⟨disk₁, hcreate, hfiles₁, hdirs₁⟩ := foldlM_createDir kinds hempty.mem
    fun kind h => hempty.no_files _ h (List.prefix_append _ _)
  refine ⟨disk₁, ?_, (hdirs₁ _).mpr (.inl hempty.mem), hfiles₁, hdirs₁⟩
  rw [writeManifestFiles, hcreate]
  rfl

include hkinds

/-- Where all resources are read back, no two have shared a file. -/
theorem separate_of_readManifestFiles {disk' : Disk yaml.Text} {found : List Resource}
    (hwrite : writeManifestFiles yaml kinds resources configPath disk = .ok disk')
    (hread : readManifestFiles yaml configPath disk' = .ok found) (hperm : found.Perm resources) :
    Separate configPath resources := by
  obtain ⟨disk₁, hrun, hmem₁, hfiles₁, hdirs₁⟩ :=
    @writeManifestFiles_eq _ _ _ hempty kinds resources
  have hplaced := writable_iff_placed (laidOut_of_emptyDir hempty hkinds hdirs₁)
  rw [hrun] at hwrite
  obtain ⟨hall, hdirs', hfiles'⟩ := foldlM_writeResource hwrite
  rw [hfiles₁] at hfiles'
  rw [← hdirs'] at hmem₁
  obtain ⟨written, hread', hsub, hnodup, hunder, -⟩ :=
    readManifestFiles_eq_ok hempty.no_files hmem₁ hfiles'
  obtain rfl : written.map Resource.wire = found := Except.ok.inj (hread'.symm.trans hread)
  -- No path is missing, since each one that is read stands for one of the resources.
  have hpaths : (written.map (filePath configPath)).Perm
      (resources.map (filePath configPath)) := by
    apply (hnodup.subperm (List.map_subset _ hsub)).perm_of_length_le
    rw [List.length_map, List.length_map, ← hperm.length_eq, List.length_map]
  have hunder' : ∀ r ∈ resources, configPath <+: filePath configPath r := by
    intro r hr
    obtain ⟨r', hr', he⟩ := List.mem_map.mp (hpaths.mem_iff.mpr (List.mem_map_of_mem hr))
    rw [← he]
    exact hunder r' hr'
  refine ⟨?_, ?_, hpaths.nodup_iff.mp hnodup, ?_⟩
  · intro r hr
    exact ((hplaced r).mp ⟨hunder' r hr, hall r hr⟩).1
  · intro r hr
    exact (hall r hr).named
  · intro r hr
    obtain ⟨r', -, rfl⟩ := List.mem_map.mp (hperm.mem_iff.mpr hr)
    exact (wire_eq_self_iff _).mp (wire_wire r')

/-- Where no two share a file, all are read back. -/
theorem readManifestFiles_of_separate (hsep : Separate configPath resources) :
    ∃ disk' found, writeManifestFiles yaml kinds resources configPath disk = .ok disk' ∧
      readManifestFiles yaml configPath disk' = .ok found ∧ found.Perm resources := by
  obtain ⟨disk₁, hrun, hmem₁, hfiles₁, hdirs₁⟩ :=
    @writeManifestFiles_eq _ _ _ hempty kinds resources
  have hplaced := writable_iff_placed (laidOut_of_emptyDir hempty hkinds hdirs₁)
  have hw := fun r hr => (hplaced r).mpr ⟨hsep.placed r hr, hsep.named r hr⟩
  obtain ⟨disk', hwrite⟩ := exists_foldlM_writeResource resources fun r hr => (hw r hr).2
  obtain ⟨-, hdirs', hfiles'⟩ := foldlM_writeResource hwrite
  rw [hfiles₁] at hfiles'
  rw [← hdirs'] at hmem₁
  obtain ⟨written, hread, hsub, hnodup, -, hcover⟩ :=
    readManifestFiles_eq_ok hempty.no_files hmem₁ hfiles'
  have hle : resources.length ≤ written.length := by
    have hpaths : resources.map (filePath configPath) ⊆ written.map (filePath configPath) := by
      intro path hpath
      obtain ⟨r, hr, rfl⟩ := List.mem_map.mp hpath
      exact hcover hsep.distinct r hr (hw r hr).1
    have hlen := (hsep.distinct.subperm hpaths).length_le
    rwa [List.length_map, List.length_map] at hlen
  have hperm : written.Perm resources := (hnodup.of_map.subperm hsub).perm_of_length_le hle
  have hwire : written.map Resource.wire = written := by
    have hself : ∀ r ∈ written, r.wire = id r := fun r hr =>
      (wire_eq_self_iff r).mpr (hsep.programs r (hsub hr))
    rw [List.map_congr_left hself, List.map_id]
  rw [hwire] at hread
  exact ⟨disk', written, hrun.trans hwrite, hread, hperm⟩

/-- The directory holds the resources again exactly when each of them has a file of its own
there. -/
theorem readManifestFiles_writeManifestFiles (resources : List Resource) :
    (∃ disk' found, writeManifestFiles yaml kinds resources configPath disk = .ok disk' ∧
      readManifestFiles yaml configPath disk' = .ok found ∧ found.Perm resources) ↔
      Separate configPath resources := by
  constructor
  · rintro ⟨disk', found, hwrite, hread, hperm⟩
    exact separate_of_readManifestFiles hempty hkinds hwrite hread hperm
  · exact readManifestFiles_of_separate hempty hkinds

end

/-! ## Plain names -/

/-- A plain name is the name of its file. -/
theorem filePath_plain {r : Resource} (h : '/' ∉ r.name.toList) (configPath : Path) :
    filePath configPath r = configPath ++ [kindDir r.kind, r.name ++ ".yaml"] := by
  have hslash : '/' ∉ (r.name ++ ".yaml").toList := by
    rw [String.toList_append, List.mem_append]
    rintro (hmem | hmem)
    · exact h hmem
    · revert hmem
      decide
  have hne : ∀ text : String, text.toList.length ≤ 2 → r.name ++ ".yaml" ≠ text := by
    rintro text htext he
    rw [← he, String.toList_append, List.length_append] at htext
    have hlen : ".yaml".toList.length = 5 := rfl
    omega
  rw [filePath, join_kindDir, join_plain hslash (hne "" (by decide)) (hne "." (by decide))
    (hne ".." (by decide)), List.append_assoc]
  rfl

/-- With plain names only a name that occurs twice in a directory is in the way. -/
theorem separate_iff_of_plain {resources : List Resource}
    (hplain : ∀ r ∈ resources, '/' ∉ r.name.toList)
    (hnames : ∀ r ∈ resources, acceptsName (r.name ++ ".yaml") = true)
    (hprograms : ∀ r ∈ resources, ∀ spec, r.spec = .plc spec → spec.programs ≠ some ∅) :
    Separate configPath resources ↔
      (resources.map fun r => (kindDir r.kind, r.name)).Nodup := by
  have hpath := fun r hr => filePath_plain (hplain r hr) configPath
  have hmap : resources.map (filePath configPath) =
      (resources.map fun r => (kindDir r.kind, r.name)).map
        fun p => configPath ++ [p.1, p.2 ++ ".yaml"] := by
    rw [List.map_map]
    exact List.map_congr_left hpath
  have hinj : Function.Injective fun p : String × String =>
      configPath ++ [p.1, p.2 ++ ".yaml"] := by
    rintro ⟨dir, name⟩ ⟨dir', name'⟩ he
    simpa using he
  constructor
  · intro h
    have hdistinct := h.distinct
    rwa [hmap, List.nodup_map_iff hinj] at hdistinct
  · intro h
    refine ⟨?_, ?_, ?_, hprograms⟩
    · intro r hr
      refine .inr ⟨r.kind, ?_⟩
      rw [hpath r hr, List.dropLast_append_of_ne_nil (by simp)]
      rfl
    · intro r hr
      rw [hpath r hr, acceptsLast, List.getLast?_append]
      exact hnames r hr
    · rw [hmap, List.nodup_map_iff hinj]
      exact h

/-- The two modules that export a resource with the name `default` share its file. -/
theorem not_separate_export {order : KeyOrder} {b : Bus}
    (hnftables : isServiceRunning b "nftables") (hrules : exportNftables b ≠ [])
    (hnetwork : isServiceRunning b "network") (hifaces : exportNetwork b ≠ []) :
    ¬ Separate configPath (exportResources order [] b) := by
  intro h
  obtain ⟨rules, hrules⟩ := (exportNftables_eq b).resolve_left hrules
  obtain ⟨ifaces, hifaces⟩ := (exportNetwork_eq b).resolve_left hifaces
  have hmem : _ ∈ exportResources order [] b := mem_exportResources.mpr
    (.nftables hnftables (by rw [hrules]; exact .head _))
  have hmem' : _ ∈ exportResources order [] b := mem_exportResources.mpr
    (.network hnetwork (by rw [hifaces]; exact .head _))
  cases List.inj_on_of_nodup_map h.distinct hmem hmem' rfl

/-! ## Two lists of resources -/

def configDisk : Disk Yaml.tree.Text where
  dirs := {[], ["config"]}
  files := ∅
  root_mem := by decide
  parent_mem := by decide
  file_parent_mem := fun path h => absurd h (AList.notMem_empty path)
  file_not_mem := fun path h => absurd h (AList.notMem_empty path)

theorem emptyDir_configDisk : configDisk.EmptyDir ["config"] where
  mem := by decide
  no_dirs := by decide
  no_files := fun path h => absurd h (AList.notMem_empty path)

def plainResources : List Resource :=
  [{ name := "default", spec := .gateway {} }, { name := "default", spec := .service {} }]

def infrastructure : List Resource :=
  [{ name := "default", spec := .nftables { natRules := some [] } },
    { name := "default", spec := .network { interfaces := some [] } }]

/-- The resources of the example have different files. -/
theorem separate_plainResources : Separate ["config"] plainResources := by
  refine (separate_iff_of_plain ?_ ?_ ?_).mpr (by decide)
  · decide
  · decide
  · intro r hr spec hspec
    obtain rfl | rfl : r = _ ∨ r = _ := by simpa [plainResources] using hr
    · cases hspec
    · cases hspec

theorem not_separate_infrastructure : ¬ Separate ["config"] infrastructure := by
  intro h
  exact absurd h.distinct (by decide)

theorem readManifestFiles_plainResources :
    ∃ disk' found,
      writeManifestFiles Yaml.tree Kind.all plainResources ["config"] configDisk = .ok disk' ∧
      readManifestFiles Yaml.tree ["config"] disk' = .ok found ∧ found.Perm plainResources :=
  (readManifestFiles_writeManifestFiles emptyDir_configDisk (.refl _) plainResources).mpr
    separate_plainResources

/-- The network file takes the place of the nftables file. -/
theorem readManifestFiles_infrastructure :
    infrastructure.Pairwise (fun r r' => (r.kind, r.name) ≠ (r'.kind, r'.name)) ∧
    configDisk.EmptyDir ["config"] ∧
    ¬ ∃ disk' found,
      writeManifestFiles Yaml.tree Kind.all infrastructure ["config"] configDisk = .ok disk' ∧
      readManifestFiles Yaml.tree ["config"] disk' = .ok found ∧ found.Perm infrastructure := by
  refine ⟨by decide, emptyDir_configDisk, ?_⟩
  rintro ⟨disk', found, hwrite, hread, hperm⟩
  exact not_separate_infrastructure
    (separate_of_readManifestFiles emptyDir_configDisk (.refl _) hwrite hread hperm)

end GitopsFiles
