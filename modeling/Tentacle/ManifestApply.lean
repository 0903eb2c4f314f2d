import Tentacle.ManifestExport

/-!
# Applying a manifest

`Apply` validates a list of resources and writes them to the buckets one after another.
What was exported and is applied again leaves the configuration as it was, unless a record
names another key than its own, a map in it is null, or an SNMP v3 device has a password:
the export has none, and the apply writes what it has.
-/

namespace Manifest

open GoValues JsonCodec Std

/-! ## Validation -/

/-- What can be wrong with a resource. The texts, behind a prefix with the kind, the name
and the index of the resource: `metadata.name is required`, `variable %q has no deviceId`,
`variable %q references unknown device %q`, `udtVariable %q has no deviceId`, `udtVariable %q
references unknown device %q`, `udtVariable %q has no templateName`, `udtVariable %q references
unknown template %q`, `device %q has no protocol`, `device %q has unknown protocol %q`,
`spec.version is required`, `spec.values is required`, `natRules[%d] has no id`, `duplicate rule
id %q`, `interfaces[%d] has no interfaceName`, `variable %q source references unknown device
%q`, `task %q has no programRef`, `task %q references unknown program %q`, `task %q has invalid
scanRateMs %d`. -/
inductive Issue where
  | nameRequired
  | variableNoDevice (varID : String)
  | variableUnknownDevice (varID deviceID : String)
  | udtNoDevice (udtID : String)
  | udtUnknownDevice (udtID deviceID : String)
  | udtNoTemplate (udtID : String)
  | udtUnknownTemplate (udtID templateName : String)
  | deviceNoProtocol (devID : String)
  | deviceUnknownProtocol (devID protocol : String)
  | versionRequired
  | valuesRequired
  | ruleNoID (i : Nat)
  | duplicateRule (id : String)
  | interfaceNoName (i : Nat)
  | sourceUnknownDevice (varID deviceID : String)
  | taskNoProgram (taskID : String)
  | taskUnknownProgram (taskID programRef : String)
  | taskScanRate (taskID : String) (scanRateMs : Int)
  deriving DecidableEq, Repr

structure Problem where
  kind : Kind
  name : String
  idx : Nat
  issue : Issue
  deriving DecidableEq, Repr

def nameIssues (name : String) : List Issue := if name = "" then [.nameRequired] else []

def validProtocols : List String := ["ethernetip", "opcua", "snmp", "modbus"]

def protocolIssues (devID protocol : String) : List Issue :=
  if protocol = "" then [.deviceNoProtocol devID]
  else if protocol ∈ validProtocols then []
  else [.deviceUnknownProtocol devID protocol]

/-- The two checks of a name that refers to an entry of a map. -/
def referenceIssues {V : Type} (m : StrMap V) (name : String) (missing unknown : Issue) :
    List Issue :=
  if name = "" then [missing] else if m[name]?.isSome then [] else [unknown]

/-- The issues of all entries of a map that may be nil. -/
def entryIssues {V : Type} (m : Option (StrMap V)) (f : String → V → List Issue) : List Issue :=
  (m.getD ∅).toList.flatMap fun e => f e.1 e.2

def validateGateway (name : String) (spec : GatewaySpec) : List Issue :=
  let devices := spec.devices.getD ∅
  nameIssues name ++
  entryIssues spec.variableConfigs (fun varID v =>
    referenceIssues devices v.deviceID (.variableNoDevice varID)
      (.variableUnknownDevice varID v.deviceID)) ++
  entryIssues (some spec.udtVariables) (fun udtID u =>
    referenceIssues devices u.deviceID (.udtNoDevice udtID) (.udtUnknownDevice udtID u.deviceID) ++
    referenceIssues spec.udtTemplates u.templateName (.udtNoTemplate udtID)
      (.udtUnknownTemplate udtID u.templateName)) ++
  entryIssues spec.devices fun devID d => protocolIssues devID d.protocol

def validateService (name : String) (spec : ServiceSpec) : List Issue :=
  nameIssues name ++ if spec.version = "" then [.versionRequired] else []

def validateModuleConfig (name : String) (spec : ModuleConfigSpec) : List Issue :=
  nameIssues name ++ if spec.values.isNone then [.valuesRequired] else []

/-- The loop over the rules, with the IDs that it has seen. -/
def ruleIssues : List NatRule → Nat → List String → List Issue
  | [], _, _ => []
  | rule :: rules, i, ids =>
    (if rule.id = "" then [.ruleNoID i]
      else if rule.id ∈ ids then [.duplicateRule rule.id] else []) ++
      ruleIssues rules (i + 1) (rule.id :: ids)

def validateNftables (spec : NftablesSpec) : List Issue := ruleIssues (spec.natRules.getD []) 0 []

def validateNetwork (spec : NetworkSpec) : List Issue :=
  ((spec.interfaces.getD []).zipIdx).flatMap fun e =>
    if e.1.interfaceName = "" then [.interfaceNoName e.2] else []

def validatePlc (name : String) (spec : PlcSpec) : List Issue :=
  let devices := spec.devices.getD ∅
  nameIssues name ++
  entryIssues spec.variableConfigs (fun varID v =>
    match v.source with
    | none => []
    | some source =>
      if source.deviceID = "" then []
      else if devices[source.deviceID]?.isSome then []
      else [.sourceUnknownDevice varID source.deviceID]) ++
  entryIssues spec.tasks (fun taskID t =>
    (if t.programRef = "" then [.taskNoProgram taskID]
      else
        match spec.programs with
        | none => []
        | some programs =>
          if programs[t.programRef]?.isSome then []
          else [.taskUnknownProgram taskID t.programRef]) ++
    if t.scanRateMs ≤ 0 then [.taskScanRate taskID t.scanRateMs] else []) ++
  entryIssues spec.devices fun devID d => protocolIssues devID d.protocol

def issuesOf (r : Resource) : List Issue :=
  match r.spec with
  | .gateway spec => validateGateway r.name spec
  | .service spec => validateService r.name spec
  | .moduleConfig spec => validateModuleConfig r.name spec
  | .nftables spec => validateNftables spec
  | .network spec => validateNetwork spec
  | .plc spec => validatePlc r.name spec

/-- `Validate`: all problems, none of which is no error. -/
def validate (resources : List Resource) : List Problem :=
  resources.zipIdx.flatMap fun e => (issuesOf e.1).map (Problem.mk e.1.kind e.1.name e.2)

/-- A manifest is valid exactly if each of its resources is. -/
theorem validate_eq_nil_iff {resources : List Resource} :
    validate resources = [] ↔ ∀ r ∈ resources, issuesOf r = [] := by
  rw [validate, List.flatMap_eq_nil_iff]
  simp only [List.map_eq_nil_iff]
  constructor
  · intro h r hr
    obtain ⟨i, hi, rfl⟩ := List.getElem_of_mem hr
    exact h (resources[i], i) (List.mem_zipIdx_iff_getElem?.mpr (List.getElem?_eq_getElem hi))
  · intro h e he
    exact h e.1 (List.fst_mem_of_mem_zipIdx he)

theorem nameIssues_eq_nil_iff {name : String} : nameIssues name = [] ↔ name ≠ "" := by
  rw [nameIssues]
  split <;> simp_all

/-- A protocol is accepted if it is one of the list. -/
theorem protocolIssues_eq_nil_iff {devID protocol : String} :
    protocolIssues devID protocol = [] ↔ protocol ∈ validProtocols := by
  rw [protocolIssues]
  split
  next hempty =>
    subst hempty
    simp [validProtocols]
  next =>
    split
    next hmem => simp [hmem]
    next hnot => simp [hnot]

/-- A reference is accepted if what it names is there. -/
theorem referenceIssues_eq_nil_iff {V : Type} {m : StrMap V} {name : String}
    {missing unknown : Issue} :
    referenceIssues m name missing unknown = [] ↔ name ≠ "" ∧ m[name]?.isSome := by
  rw [referenceIssues]
  split
  next hempty => simp [hempty]
  next hname =>
    split
    next hsome => simp [hname, hsome]
    next hnone => simp [hnone]

/-- A map is accepted if each of its entries is. -/
theorem entryIssues_eq_nil_iff {V : Type} {m : Option (StrMap V)} {f : String → V → List Issue} :
    entryIssues m f = [] ↔ ∀ (k : String) v, (m.getD ∅)[k]? = some v → f k v = [] := by
  rw [entryIssues, List.flatMap_eq_nil_iff]
  constructor
  · intro h k v hv
    exact h (k, v) (ExtTreeMap.mem_toList_iff_getElem?_eq_some.mpr hv)
  · intro h e he
    exact h e.1 e.2 (ExtTreeMap.mem_toList_iff_getElem?_eq_some.mp he)

/-! ## Apply -/

/-- What a call of `Apply` brings with it: the source of the change, the reading of the
clock, and the errors of the commands to other modules. -/
structure Call where
  source : String
  now : Int
  commandError : Spec → Option String

structure SkippedResource where
  kind : Kind
  name : String
  reason : String
  deriving DecidableEq, Repr

variable (call : Call)

def writeSourceMetadata (b : Bus) (bucket key : String) : Bus :=
  { b with configMetadata :=
      b.configMetadata.insert (bucket ++ "." ++ key) (SourceMetadata.mk call.source call.now) }

def gatewayRecord (name : String) (spec : GatewaySpec) : GatewayConfigKV where
  gatewayID := name
  devices := some (spec.devices.getD ∅)
  variableConfigs := some (spec.variableConfigs.getD ∅)
  udtTemplates := spec.udtTemplates
  udtVariables := spec.udtVariables
  updatedAt := call.now

def applyGateway (b : Bus) (name : String) (spec : GatewaySpec) : Bus :=
  writeSourceMetadata call
    { b with gatewayConfig := b.gatewayConfig.insert name (some (gatewayRecord call name spec)) }
    "gateway_config" name

def serviceRecord (name : String) (spec : ServiceSpec) : DesiredServiceKV where
  moduleID := name
  version := spec.version
  running := spec.running
  updatedAt := call.now

def enabledRecord (name : String) (enabled : Bool) : ServiceEnabledKV where
  moduleID := name
  enabled := enabled
  updatedAt := call.now

def applyService (b : Bus) (name : String) (spec : ServiceSpec) : Bus :=
  let b := writeSourceMetadata call
    { b with desiredServices :=
        b.desiredServices.insert name (some (serviceRecord call name spec)) }
    "desired_services" name
  match spec.enabled with
  | none => b
  | some enabled =>
    writeSourceMetadata call
      { b with serviceEnabled :=
          b.serviceEnabled.insert name (some (enabledRecord call name enabled)) }
      "service_enabled" name

/-- One round of the loop over the values. A placeholder is skipped. -/
def applyValue (moduleID : String) (s : Bus × List SkippedResource) (e : String × String) :
    Bus × List SkippedResource :=
  if isSecretPlaceholder e.2 then
    (s.1, s.2 ++ [⟨.moduleConfig, configKey moduleID e.1, "secret placeholder preserved"⟩])
  else
    (writeSourceMetadata call
      { s.1 with tentacleConfig := s.1.tentacleConfig.insert (configKey moduleID e.1) e.2 }
      "tentacle_config" (configKey moduleID e.1), s.2)

def applyModuleConfig (b : Bus) (name : String) (spec : ModuleConfigSpec) :
    Bus × List SkippedResource :=
  (spec.values.getD ∅).toList.foldl (applyValue call name) (b, [])

def plcRecord (name : String) (spec : PlcSpec) : PlcConfigKV where
  plcID := name
  devices := some (spec.devices.getD ∅)
  variableConfigs := some (spec.variableConfigs.getD ∅)
  udtTemplates := spec.udtTemplates
  tasks := some (spec.tasks.getD ∅)
  updatedAt := call.now

def programRecord (name : String) (spec : PlcProgramSpec) : PlcProgramKV where
  name := name
  language := spec.language
  source := spec.source
  stSource := spec.stSource
  updatedAt := call.now
  updatedBy := call.source

def applyProgram (b : Bus) (e : String × PlcProgramSpec) : Bus :=
  writeSourceMetadata call
    { b with plcPrograms := b.plcPrograms.insert e.1 (some (programRecord call e.1 e.2)) }
    "plc_programs" e.1

def applyPlc (b : Bus) (name : String) (spec : PlcSpec) : Bus :=
  (spec.programs.getD ∅).toList.foldl (applyProgram call)
    (writeSourceMetadata call
      { b with plcConfig := b.plcConfig.insert name (some (plcRecord call name spec)) }
      "plc_config" name)

/-- The buckets after a resource and what was skipped, or the error of its command. -/
def applyResource (b : Bus) (r : Resource) : Except String (Bus × List SkippedResource) :=
  match r.spec with
  | .gateway spec => .ok (applyGateway call b r.name spec, [])
  | .service spec => .ok (applyService call b r.name spec, [])
  | .moduleConfig spec => .ok (applyModuleConfig call b r.name spec)
  | .plc spec => .ok (applyPlc call b r.name spec, [])
  | spec =>
    match call.commandError spec with
    | none => .ok (b, [])
    | some error => .error error

structure ApplyResult where
  applied : List (Kind × String) := []
  skipped : List SkippedResource := []
  deriving DecidableEq, Repr

/-- `validation failed: %w`, or `apply %s %q: %w`. -/
inductive ApplyError where
  | validation (problems : List Problem)
  | command (kind : Kind) (name text : String)
  deriving DecidableEq, Repr

def applyLoop : List Resource → Bus → ApplyResult → Bus × ApplyResult × Option ApplyError
  | [], b, result => (b, result, none)
  | r :: resources, b, result =>
    match applyResource call b r with
    | .error text => (b, result, some (.command r.kind r.name text))
    | .ok (b', skipped) =>
      applyLoop resources b' {
        applied := result.applied ++ [(r.kind, r.name)]
        skipped := result.skipped ++ skipped }

def apply (resources : List Resource) (b : Bus) : Bus × ApplyResult × Option ApplyError :=
  match validate resources with
  | [] => applyLoop call resources b {}
  | problems => (b, {}, some (.validation problems))

/-! ## What an apply writes -/

def gatewayWrites (r : Resource) : List (String × Option GatewayConfigKV) :=
  match r.spec with
  | .gateway spec => [(r.name, some (gatewayRecord call r.name spec))]
  | _ => []

def serviceWrites (r : Resource) : List (String × Option DesiredServiceKV) :=
  match r.spec with
  | .service spec => [(r.name, some (serviceRecord call r.name spec))]
  | _ => []

def enabledWrites (r : Resource) : List (String × Option ServiceEnabledKV) :=
  match r.spec with
  | .service spec => (spec.enabled.map fun on => (r.name, some (enabledRecord call r.name on))).toList
  | _ => []

def valueWrite (moduleID : String) (e : String × String) : Option (String × String) :=
  if isSecretPlaceholder e.2 then none else some (configKey moduleID e.1, e.2)

def configWrites (r : Resource) : List (String × String) :=
  match r.spec with
  | .moduleConfig spec => (spec.values.getD ∅).toList.filterMap (valueWrite r.name)
  | _ => []

def plcWrites (r : Resource) : List (String × Option PlcConfigKV) :=
  match r.spec with
  | .plc spec => [(r.name, some (plcRecord call r.name spec))]
  | _ => []

def programWrites (r : Resource) : List (String × Option PlcProgramKV) :=
  match r.spec with
  | .plc spec => (spec.programs.getD ∅).toList.map fun e => (e.1, some (programRecord call e.1 e.2))
  | _ => []

/-- A state with the writes of some resources, the metadata apart. -/
structure Written (b : Bus) (resources : List Resource) (b' : Bus) : Prop where
  gatewayConfig : b'.gatewayConfig =
    writeAll b.gatewayConfig (resources.flatMap (gatewayWrites call))
  desiredServices : b'.desiredServices =
    writeAll b.desiredServices (resources.flatMap (serviceWrites call))
  serviceEnabled : b'.serviceEnabled =
    writeAll b.serviceEnabled (resources.flatMap (enabledWrites call))
  tentacleConfig : b'.tentacleConfig = writeAll b.tentacleConfig (resources.flatMap configWrites)
  plcConfig : b'.plcConfig = writeAll b.plcConfig (resources.flatMap (plcWrites call))
  plcPrograms : b'.plcPrograms = writeAll b.plcPrograms (resources.flatMap (programWrites call))
  heartbeats : b'.heartbeats = b.heartbeats
  nftables : b'.nftables = b.nftables
  network : b'.network = b.network

variable {call}

theorem Written.nil (b : Bus) : Written call b [] b :=
  ⟨rfl, rfl, rfl, rfl, rfl, rfl, rfl, rfl, rfl⟩

/-- What two lists write is what the one writes after the other. -/
theorem Written.append {b b' b'' : Bus} {resources resources' : List Resource}
    (h : Written call b resources b') (h' : Written call b' resources' b'') :
    Written call b (resources ++ resources') b'' where
  gatewayConfig := by
    rw [h'.gatewayConfig, h.gatewayConfig, List.flatMap_append, writeAll_append]
  desiredServices := by
    rw [h'.desiredServices, h.desiredServices, List.flatMap_append, writeAll_append]
  serviceEnabled := by
    rw [h'.serviceEnabled, h.serviceEnabled, List.flatMap_append, writeAll_append]
  tentacleConfig := by
    rw [h'.tentacleConfig, h.tentacleConfig, List.flatMap_append, writeAll_append]
  plcConfig := by
    rw [h'.plcConfig, h.plcConfig, List.flatMap_append, writeAll_append]
  plcPrograms := by
    rw [h'.plcPrograms, h.plcPrograms, List.flatMap_append, writeAll_append]
  heartbeats := h'.heartbeats.trans h.heartbeats
  nftables := h'.nftables.trans h.nftables
  network := h'.network.trans h.network

/-- Values go to the settings of the module and into the record of the sources. -/
theorem foldl_applyValue (moduleID : String) (values : List (String × String))
    (s : Bus × List SkippedResource) :
    ∃ metadata, (values.foldl (applyValue call moduleID) s).1 = { s.1 with
      tentacleConfig := writeAll s.1.tentacleConfig (values.filterMap (valueWrite moduleID))
      configMetadata := metadata } := by
  induction values generalizing s with
  | nil => exact ⟨s.1.configMetadata, rfl⟩
  | cons e values ih =>
    obtain ⟨metadata, hrest⟩ := ih (applyValue call moduleID s e)
    refine ⟨metadata, ?_⟩
    rw [List.foldl_cons, hrest, List.filterMap_cons, applyValue, valueWrite]
    cases isSecretPlaceholder e.2 with
    | true => rfl
    | false => rfl

/-- Programs go to the programs of the PLC and into the record of the sources. -/
theorem foldl_applyProgram (programs : List (String × PlcProgramSpec)) (b : Bus) :
    ∃ metadata, programs.foldl (applyProgram call) b = { b with
      plcPrograms := writeAll b.plcPrograms
        (programs.map fun e => (e.1, some (programRecord call e.1 e.2)))
      configMetadata := metadata } := by
  induction programs generalizing b with
  | nil => exact ⟨b.configMetadata, rfl⟩
  | cons e programs ih =>
    obtain ⟨metadata, hrest⟩ := ih (applyProgram call b e)
    exact ⟨metadata, hrest⟩

/-- One resource writes its own records and nothing else. -/
theorem applyResource_written {b b' : Bus} {r : Resource} {skipped : List SkippedResource}
    (h : applyResource call b r = .ok (b', skipped)) : Written call b [r] b' := by
  obtain ⟨name, spec⟩ := r
  cases spec with
  | gateway spec =>
    cases h
    exact ⟨rfl, rfl, rfl, rfl, rfl, rfl, rfl, rfl, rfl⟩
  | service spec =>
    obtain ⟨version, running, enabled⟩ := spec
    cases h
    cases enabled with
    | none => exact ⟨rfl, rfl, rfl, rfl, rfl, rfl, rfl, rfl, rfl⟩
    | some enabled => exact ⟨rfl, rfl, rfl, rfl, rfl, rfl, rfl, rfl, rfl⟩
  | moduleConfig spec =>
    obtain ⟨metadata, hfold⟩ := @foldl_applyValue call name (spec.values.getD ∅).toList (b, [])
    have hb : (applyModuleConfig call b name spec).1 = b' := congrArg Prod.fst (Except.ok.inj h)
    rw [applyModuleConfig, hfold] at hb
    subst hb
    refine ⟨rfl, rfl, rfl, ?_, rfl, rfl, rfl, rfl, rfl⟩
    rw [List.flatMap_singleton]
    rfl
  | plc spec =>
    have hb : applyPlc call b name spec = b' := congrArg Prod.fst (Except.ok.inj h)
    obtain ⟨metadata, hfold⟩ := @foldl_applyProgram call (spec.programs.getD ∅).toList
      (writeSourceMetadata call
        { b with plcConfig := b.plcConfig.insert name (some (plcRecord call name spec)) }
        "plc_config" name)
    rw [applyPlc, hfold] at hb
    subst hb
    refine ⟨rfl, rfl, rfl, rfl, rfl, ?_, rfl, rfl, rfl⟩
    rw [List.flatMap_singleton]
    rfl
  | nftables spec =>
    rw [applyResource] at h
    dsimp only at h
    split at h
    next =>
      cases h
      exact ⟨rfl, rfl, rfl, rfl, rfl, rfl, rfl, rfl, rfl⟩
    next => cases h
  | network spec =>
    rw [applyResource] at h
    dsimp only at h
    split at h
    next =>
      cases h
      exact ⟨rfl, rfl, rfl, rfl, rfl, rfl, rfl, rfl, rfl⟩
    next => cases h

/-- The loop writes the resources before the first one that fails, and all of them when it
reports no error. -/
theorem applyLoop_written (resources : List Resource) (b : Bus) (result : ApplyResult) :
    ∃ done rest, resources = done ++ rest ∧
      Written call b done (applyLoop call resources b result).1 ∧
      ((applyLoop call resources b result).2.2 = none → rest = []) := by
  induction resources generalizing b result with
  | nil => exact ⟨[], [], rfl, .nil b, fun _ => rfl⟩
  | cons r resources ih =>
    rw [applyLoop]
    cases happly : applyResource call b r with
    | error text => exact ⟨[], r :: resources, rfl, .nil b, fun h => by cases h⟩
    | ok s =>
      obtain ⟨done, rest, rfl, hwritten, hall⟩ := ih s.1
        { applied := result.applied ++ [(r.kind, r.name)], skipped := result.skipped ++ s.2 }
      exact ⟨r :: done, rest, rfl, (applyResource_written happly).append hwritten, hall⟩

end Manifest
