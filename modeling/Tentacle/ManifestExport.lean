import Mathlib.Data.List.TakeWhile
import Tentacle.ManifestTypes

/-!
# Export of the configuration

`Export` reads the configuration buckets into resources and redacts the secrets it knows
of: module configuration whose name says that it is a secret, and the passwords of SNMP v3.
The community strings of gateway and PLC devices stay in the export.
-/

namespace Manifest

open GoValues JsonCodec Std

/-! ## The buckets -/

structure GatewayConfigKV where
  gatewayID : String
  devices : Option (StrMap GatewayDeviceConfig)
  variableConfigs : Option (StrMap GatewayVariableConfig)
  udtTemplates : StrMap GatewayUdtTemplateConfig
  udtVariables : StrMap GatewayUdtVariableConfig
  updatedAt : Int
  deriving DecidableEq

structure DesiredServiceKV where
  moduleID : String
  version : String
  running : Bool
  updatedAt : Int
  deriving DecidableEq

structure ServiceEnabledKV where
  moduleID : String
  enabled : Bool
  updatedAt : Int
  deriving DecidableEq

structure PlcConfigKV where
  plcID : String
  devices : Option (StrMap PlcDeviceConfigKV)
  variableConfigs : Option (StrMap PlcVariableConfigKV)
  udtTemplates : StrMap PlcUdtTemplateConfigKV
  tasks : Option (StrMap PlcTaskConfigKV)
  updatedAt : Int
  deriving DecidableEq

structure PlcProgramKV where
  name : String
  language : String
  source : String
  stSource : String
  updatedAt : Int
  updatedBy : String
  deriving DecidableEq

structure SourceMetadata where
  source : String
  timestamp : Int
  deriving DecidableEq

/-- A bucket of JSON records; data that cannot be read as a record is `none`. -/
abbrev Bucket (α : Type) := StrMap (Option α)

/-- The answer of a module to a `get-config` command. -/
structure CommandResponse (α : Type) where
  success : Bool
  error : String
  config : α

/-- The buckets that the manifest reads and writes, with the service types of the
heartbeats, and the answers of the two modules that keep their configuration themselves. -/
structure Bus where
  gatewayConfig : Bucket GatewayConfigKV := ∅
  desiredServices : Bucket DesiredServiceKV := ∅
  serviceEnabled : Bucket ServiceEnabledKV := ∅
  tentacleConfig : StrMap String := ∅
  plcConfig : Bucket PlcConfigKV := ∅
  plcPrograms : Bucket PlcProgramKV := ∅
  configMetadata : StrMap SourceMetadata := ∅
  heartbeats : Bucket String := ∅
  nftables : Except String (CommandResponse (Option (List NatRule))) := .error "no responders"
  network : Except String (CommandResponse (List NetworkInterfaceConfig)) := .error "no responders"

/-- The record that a bucket has under a key. -/
def record? {α : Type} (bucket : Bucket α) (key : String) : Option α := bucket[key]?.join

/-- The order in which `KVKeys` lists the keys of a bucket, which may be any. -/
structure KeyOrder where
  shuffle : String → List String → List String
  perm : ∀ bucket keys, (shuffle bucket keys).Perm keys

/-- The keys in their natural order. -/
def KeyOrder.sorted : KeyOrder where
  shuffle _ keys := keys
  perm _ keys := .refl keys

variable (order : KeyOrder)

/-! ## The resources of the buckets -/

/-- The resources of a bucket whose records each give one. -/
def bucketResources {α : Type} (name : String) (bucket : Bucket α) (f : String → α → Resource) :
    List Resource :=
  (order.shuffle name bucket.keys).filterMap fun key => (record? bucket key).map (f key)

def gatewayResource (key : String) (kv : GatewayConfigKV) : Resource where
  name := key
  spec := .gateway {
    devices := some (kv.devices.getD ∅)
    variableConfigs := some (kv.variableConfigs.getD ∅)
    udtTemplates := kv.udtTemplates
    udtVariables := kv.udtVariables }

def exportGateways (b : Bus) : List Resource :=
  bucketResources order "gateway_config" b.gatewayConfig gatewayResource

def serviceResource (b : Bus) (key : String) (kv : DesiredServiceKV) : Resource where
  name := key
  spec := .service {
    version := kv.version
    running := kv.running
    enabled := (record? b.serviceEnabled key).map ServiceEnabledKV.enabled }

def exportServices (b : Bus) : List Resource :=
  bucketResources order "desired_services" b.desiredServices (serviceResource b)

/-- `strings.SplitN(key, ".", 2)`, when there are two parts. -/
def splitModule (key : String) : Option (String × String) :=
  match key.toList.span (· ≠ '.') with
  | (_, []) => none
  | (moduleID, _ :: envVar) => some (.ofList moduleID, .ofList envVar)

/-- One round of the loop that groups the entries by module. -/
def groupEntry (config : StrMap String) (modules : StrMap (StrMap String)) (key : String) :
    StrMap (StrMap String) :=
  match splitModule key with
  | none => modules
  | some (moduleID, envVar) =>
    match config[key]? with
    | none => modules
    | some data => modules.insert moduleID ((modules.getD moduleID ∅).insert envVar data)

def groupModules (config : StrMap String) (keys : List String) : StrMap (StrMap String) :=
  keys.foldl (groupEntry config) ∅

def moduleConfigResource (moduleID : String) (values : StrMap String) : Resource where
  name := moduleID
  spec := .moduleConfig { values := some values }

def exportModuleConfigs (b : Bus) : List Resource :=
  (groupModules b.tentacleConfig
    (order.shuffle "tentacle_config" b.tentacleConfig.keys)).toList.map fun e =>
      moduleConfigResource e.1 e.2

def isServiceRunning (b : Bus) (serviceType : String) : Bool :=
  b.heartbeats.toList.any fun e => e.2 = some serviceType

/-- What `exportNftables` adds: nothing when it fails or has no rules. -/
def exportNftables (b : Bus) : List Resource :=
  match b.nftables with
  | .error _ => []
  | .ok response =>
    match response.success, response.config with
    | true, some (rule :: rules) =>
      [{ name := "default", spec := .nftables { natRules := some (rule :: rules) } }]
    | _, _ => []

def exportNetwork (b : Bus) : List Resource :=
  match b.network with
  | .error _ => []
  | .ok response =>
    match response.success, response.config with
    | true, iface :: ifaces =>
      [{ name := "default", spec := .network { interfaces := some (iface :: ifaces) } }]
    | _, _ => []

def programSpec (kv : PlcProgramKV) : PlcProgramSpec where
  language := kv.language
  source := kv.source
  stSource := kv.stSource

/-- The programs that the tasks refer to, as far as they can be read. -/
def taskPrograms (programs : Bucket PlcProgramKV) (tasks : StrMap PlcTaskConfigKV) :
    StrMap PlcProgramSpec :=
  tasks.toList.foldl (fun found e =>
    if e.2.programRef = "" then found
    else
      match record? programs e.2.programRef with
      | none => found
      | some kv => found.insert e.2.programRef (programSpec kv)) ∅

def plcResource (b : Bus) (key : String) (kv : PlcConfigKV) : Resource where
  name := key
  spec := .plc {
    devices := some (kv.devices.getD ∅)
    variableConfigs := some (kv.variableConfigs.getD ∅)
    udtTemplates := kv.udtTemplates
    tasks := some (kv.tasks.getD ∅)
    programs := some (taskPrograms b.plcPrograms (kv.tasks.getD ∅)) }

def exportPlcs (b : Bus) : List Resource :=
  bucketResources order "plc_config" b.plcConfig (plcResource b)

/-! ## Secrets -/

def secretPlaceholder : String := "<secret>"

def isSecretPlaceholder (v : String) : Bool := v = secretPlaceholder

def secretEnvVarPatterns : List String := ["PASSWORD", "_SECRET", "_TOKEN"]

/-- `strings.ToUpper` on what can become an ASCII letter: the ASCII letters, the dotless i
and the long s. -/
def upperChar (c : Char) : Char :=
  if c.toNat = 0x131 then 'I' else if c.toNat = 0x17F then 'S' else c.toUpper

def containsText (text pattern : List Char) : Bool := text.tails.any pattern.isPrefixOf

def isSecretEnvVar (key : String) : Bool :=
  secretEnvVarPatterns.any fun pattern => containsText (key.toList.map upperChar) pattern.toList

def redactValue (key val : String) : String :=
  if val = "" then val else if isSecretEnvVar key then secretPlaceholder else val

def V3Auth.redact (auth : V3Auth) : V3Auth := { auth with authPassword := "", privPassword := "" }

def GatewayDeviceConfig.redact (dev : GatewayDeviceConfig) : GatewayDeviceConfig :=
  { dev with v3Auth := dev.v3Auth.map V3Auth.redact }

def redactSpec : Spec → Spec
  | .moduleConfig spec => .moduleConfig { spec with values := spec.values.map (·.map redactValue) }
  | .gateway spec => .gateway { spec with
      devices := spec.devices.map (·.map fun _ dev => dev.redact) }
  | spec => spec

def redactSecrets (resources : List Resource) : List Resource :=
  resources.map fun r => { r with spec := redactSpec r.spec }

/-- An empty list of kinds stands for all. -/
def includes (kinds : List String) (kind : Kind) : Bool := kinds.isEmpty || kinds.contains kind.text

/-- `Export`. -/
def exportResources (kinds : List String) (b : Bus) : List Resource :=
  let part (kind : Kind) (resources : List Resource) :=
    if includes kinds kind then resources else []
  redactSecrets (
    part .gateway (exportGateways order b) ++
    part .service (exportServices order b) ++
    part .moduleConfig (exportModuleConfigs order b) ++
    part .nftables (if isServiceRunning b "nftables" then exportNftables b else []) ++
    part .plc (exportPlcs order b) ++
    part .network (if isServiceRunning b "network" then exportNetwork b else []))

/-! ## The module configuration, entry by entry -/

def configKey (moduleID envVar : String) : String := moduleID ++ "." ++ envVar

theorem toList_configKey (moduleID envVar : String) :
    (configKey moduleID envVar).toList = moduleID.toList ++ '.' :: envVar.toList := by
  simp [configKey]

/-- A key is split into its module and its variable. -/
theorem splitModule_configKey {moduleID : String} (h : '.' ∉ moduleID.toList) (envVar : String) :
    splitModule (configKey moduleID envVar) = some (moduleID, envVar) := by
  have hall : ∀ c ∈ moduleID.toList, decide (c ≠ '.') = true := by
    intro c hc
    simp only [ne_eq, decide_not, Bool.not_eq_true', decide_eq_false_iff_not]
    rintro rfl
    exact h hc
  rw [splitModule, toList_configKey, List.span_eq_takeWhile_dropWhile,
    List.takeWhile_append_of_pos hall, List.dropWhile_append_of_pos hall]
  simp

/-- What a key is split into makes up the key. -/
theorem splitModule_eq_some {key moduleID envVar : String}
    (h : splitModule key = some (moduleID, envVar)) :
    key = configKey moduleID envVar ∧ '.' ∉ moduleID.toList := by
  rw [splitModule, List.span_eq_takeWhile_dropWhile] at h
  have happend := List.takeWhile_append_dropWhile (p := fun c => decide (c ≠ '.')) (l := key.toList)
  split at h
  next => cases h
  next pre c post hspan =>
    cases h
    obtain ⟨hpre, hpost⟩ := Prod.mk.inj hspan
    have hdot : c = '.' := by
      have hne : key.toList.dropWhile (fun c => decide (c ≠ '.')) ≠ [] := by
        rw [hpost]
        exact List.cons_ne_nil _ _
      have hhead := List.head_dropWhile_not (fun c => decide (c ≠ '.')) hne
      simp only [hpost, List.head_cons] at hhead
      simpa using hhead
    refine ⟨?_, ?_⟩
    · rw [← String.toList_inj, toList_configKey, ← happend, hpre, hpost, hdot]
      simp
    · intro hmem
      rw [String.toList_ofList, ← hpre] at hmem
      simpa using List.mem_takeWhile_imp hmem

/-- The value that the groups have for a variable of a module. -/
def envValue (modules : StrMap (StrMap String)) (moduleID envVar : String) : Option String :=
  modules[moduleID]?.bind fun values => values[envVar]?

/-- A value is found under the module and the variable that it was put. -/
theorem envValue_insert (modules : StrMap (StrMap String))
    (key envKey data moduleID envVar : String) :
    envValue (modules.insert key ((modules.getD key ∅).insert envKey data)) moduleID envVar =
      if key = moduleID ∧ envKey = envVar then some data else envValue modules moduleID envVar := by
  rw [envValue, envValue, getElem?_insert]
  by_cases hkey : key = moduleID
  · subst hkey
    rw [if_pos rfl, Option.bind_some, getElem?_insert]
    by_cases henv : envKey = envVar
    · rw [if_pos henv, if_pos ⟨rfl, henv⟩]
    · rw [if_neg henv, if_neg fun h => henv h.2, ExtTreeMap.getD_eq_getD_getElem?]
      cases modules[key]? with
      | none => exact ExtTreeMap.getElem?_empty
      | some values => rfl
  · rw [if_neg hkey, if_neg fun h => hkey h.1]

/-- One entry of the config adds its value to the group of its module. -/
theorem envValue_groupEntry (config : StrMap String) (modules : StrMap (StrMap String))
    (key moduleID envVar : String) :
    envValue (groupEntry config modules key) moduleID envVar =
      if splitModule key = some (moduleID, envVar) ∧ config[key]?.isSome then config[key]?
      else envValue modules moduleID envVar := by
  rw [groupEntry]
  split
  next hsplit => simp [hsplit]
  next keyModule keyVar hsplit =>
    split
    next hdata => simp [hdata]
    next data hdata => simp [envValue_insert, hsplit, hdata]

/-- The groups have exactly the entries under keys with a dot, as they are. -/
theorem envValue_groupModules (config : StrMap String) (keys : List String)
    (moduleID envVar : String) :
    envValue (groupModules config keys) moduleID envVar =
      if '.' ∉ moduleID.toList ∧ configKey moduleID envVar ∈ keys then
        config[configKey moduleID envVar]?
      else none := by
  induction keys using List.reverseRecOn with
  | nil => simp [groupModules, envValue]
  | append_singleton keys key ih =>
    rw [groupModules, List.foldl_append, List.foldl_cons, List.foldl_nil, ← groupModules,
      envValue_groupEntry, ih]
    by_cases hsplit : splitModule key = some (moduleID, envVar)
    · obtain ⟨hkey, hdot⟩ := splitModule_eq_some hsplit
      rw [← hkey]
      cases hdata : config[key]? with
      | none => simp
      | some data => simp [hsplit, hdot]
    · rw [if_neg fun h => hsplit h.1]
      refine if_congr (and_congr_right ?_) rfl rfl
      intro hdot
      have hne : configKey moduleID envVar ≠ key := by
        rintro rfl
        exact hsplit (splitModule_configKey hdot envVar)
      simp [hne]

theorem groupModules_ne_empty {config : StrMap String} {keys : List String} {moduleID : String}
    {values : StrMap String} (h : (groupModules config keys)[moduleID]? = some values) :
    values ≠ ∅ := by
  induction keys using List.reverseRecOn generalizing values with
  | nil =>
    rw [groupModules, List.foldl_nil, ExtTreeMap.getElem?_empty] at h
    cases h
  | append_singleton keys key ih =>
    rw [groupModules, List.foldl_append, List.foldl_cons, List.foldl_nil, ← groupModules,
      groupEntry] at h
    split at h
    next => exact ih h
    next keyModule keyVar hsplit =>
      split at h
      next => exact ih h
      next data hdata =>
        rw [getElem?_insert] at h
        split at h
        next =>
          cases h
          intro hempty
          have hget := getElem?_insert_self ((groupModules config keys).getD keyModule ∅) keyVar data
          rw [hempty, ExtTreeMap.getElem?_empty] at hget
          cases hget
        next => exact ih h

/-- Groups without empty modules are equal when all their variables are. -/
theorem groups_ext {modules modules' : StrMap (StrMap String)}
    (hne : ∀ (m : String) values, modules[m]? = some values → values ≠ ∅)
    (hne' : ∀ (m : String) values, modules'[m]? = some values → values ≠ ∅)
    (h : ∀ moduleID envVar, envValue modules moduleID envVar = envValue modules' moduleID envVar) :
    modules = modules' := by
  have hsome : ∀ {g g' : StrMap (StrMap String)} (m : String) (values : StrMap String),
      (∀ envVar, envValue g m envVar = envValue g' m envVar) → g[m]? = some values →
      values ≠ ∅ → g'[m]? ≠ none := by
    intro g g' m values hsame hg hvalues hnone
    obtain ⟨e, v, hv⟩ := exists_getElem?_of_ne_empty hvalues
    have he := hsame e
    rw [envValue, envValue, hg, hnone, Option.bind_some, hv] at he
    cases he
  refine ExtTreeMap.ext_getElem? ?_
  intro m
  cases hm : modules[m]? with
  | none =>
    cases hm' : modules'[m]? with
    | none => rfl
    | some values' =>
      exact absurd hm (hsome m values' (fun e => (h m e).symm) hm' (hne' m values' hm'))
  | some values =>
    cases hm' : modules'[m]? with
    | none => exact absurd hm' (hsome m values (h m) hm (hne m values hm))
    | some values' =>
      refine congrArg some (ExtTreeMap.ext_getElem? ?_)
      intro e
      have he := h m e
      rwa [envValue, envValue, hm, hm'] at he

/-! ## Two states that differ in credentials -/

def GatewayDeviceConfig.clear (dev : GatewayDeviceConfig) : GatewayDeviceConfig :=
  { dev.redact with community := "" }

def PlcDeviceConfigKV.clear (dev : PlcDeviceConfigKV) : PlcDeviceConfigKV :=
  { dev with community := "" }

/-- The record without the SNMP credentials of its devices. -/
def GatewayConfigKV.clear (kv : GatewayConfigKV) : GatewayConfigKV :=
  { kv with devices := kv.devices.map (·.map fun _ dev => dev.clear) }

def PlcConfigKV.clear (kv : PlcConfigKV) : PlcConfigKV :=
  { kv with devices := kv.devices.map (·.map fun _ dev => dev.clear) }

/-- Under the key of a secret both states may have any value that is not empty. -/
def SameValue (key : String) (v v' : Option String) : Prop :=
  v = v' ∨ ∃ moduleID envVar x x', splitModule key = some (moduleID, envVar) ∧
    isSecretEnvVar envVar ∧ v = some x ∧ v' = some x' ∧ x ≠ "" ∧ x' ≠ ""

/-- The states differ only in secrets of the module configuration and in SNMP credentials. -/
structure SameButCredentials (b b' : Bus) : Prop where
  gateways : ∀ key : String, b.gatewayConfig[key]?.map (Option.map GatewayConfigKV.clear) =
    b'.gatewayConfig[key]?.map (Option.map GatewayConfigKV.clear)
  plcs : ∀ key : String, b.plcConfig[key]?.map (Option.map PlcConfigKV.clear) =
    b'.plcConfig[key]?.map (Option.map PlcConfigKV.clear)
  configs : ∀ key : String, SameValue key b.tentacleConfig[key]? b'.tentacleConfig[key]?
  rest : { b with gatewayConfig := ∅, plcConfig := ∅, tentacleConfig := ∅ } =
    { b' with gatewayConfig := ∅, plcConfig := ∅, tentacleConfig := ∅ }

/-- The community strings of the devices. -/
def GatewayConfigKV.communities (kv : GatewayConfigKV) : StrMap String :=
  (kv.devices.getD ∅).map fun _ dev => dev.community

def PlcConfigKV.communities (kv : PlcConfigKV) : StrMap String :=
  (kv.devices.getD ∅).map fun _ dev => dev.community

/-- The states have the same community strings. -/
structure SameCommunities (b b' : Bus) : Prop where
  gateways : ∀ key kv kv', record? b.gatewayConfig key = some kv →
    record? b'.gatewayConfig key = some kv' → kv.communities = kv'.communities
  plcs : ∀ key kv kv', record? b.plcConfig key = some kv →
    record? b'.plcConfig key = some kv' → kv.communities = kv'.communities

/-- Two filters that leave the same places agree exactly if they agree on each. -/
theorem filterMap_eq_iff {β γ : Type} {f g : β → Option γ} {l : List β}
    (h : ∀ a ∈ l, (f a).isSome = (g a).isSome) :
    l.filterMap f = l.filterMap g ↔ ∀ a ∈ l, f a = g a := by
  induction l with
  | nil => simp
  | cons a l ih =>
    have ha := h a (.head _)
    have ih := ih fun b hb => h b (.tail _ hb)
    cases hf : f a with
    | none =>
      rw [hf] at ha
      have hg : g a = none := Option.isNone_iff_eq_none.mp (by simpa using ha.symm)
      rw [List.filterMap_cons_none hf, List.filterMap_cons_none hg, ih]
      simp [hf, hg]
    | some c =>
      rw [hf] at ha
      obtain ⟨d, hg⟩ := Option.isSome_iff_exists.mp ha.symm
      rw [List.filterMap_cons_some hf, List.filterMap_cons_some hg, List.cons.injEq, ih]
      simp [hf, hg]

theorem map_record? {α β : Type} {clear : α → β} {bucket bucket' : Bucket α} {key : String}
    (h : bucket[key]?.map (Option.map clear) = bucket'[key]?.map (Option.map clear)) :
    (record? bucket key).map clear = (record? bucket' key).map clear := by
  have hjoin := congrArg Option.join h
  rw [Option.join_map_eq_map_join, Option.join_map_eq_map_join] at hjoin
  exact hjoin

/-- Buckets with the same keys and readable records give the same resources exactly when
each pair of records does. -/
theorem bucketResources_eq_iff {α β : Type} {clear : α → β} {bucket bucket' : Bucket α}
    (hsame : ∀ key : String,
      bucket[key]?.map (Option.map clear) = bucket'[key]?.map (Option.map clear))
    (name : String) (f f' : String → α → Resource) :
    bucketResources order name bucket f = bucketResources order name bucket' f' ↔
      ∀ key a a', record? bucket key = some a → record? bucket' key = some a' →
        f key a = f' key a' := by
  have hkeys : bucket.keys = bucket'.keys := by
    apply keys_eq_of_isSome
    intro key
    simpa using congrArg Option.isSome (hsame key)
  have hboth : ∀ key, (record? bucket key).isSome = (record? bucket' key).isSome := by
    intro key
    simpa using congrArg Option.isSome (map_record? (hsame key))
  rw [bucketResources, bucketResources, hkeys, filterMap_eq_iff fun key _ => by simp [hboth]]
  constructor
  · intro h key a a' ha ha'
    have hkey : key ∈ order.shuffle name bucket'.keys := by
      rw [(order.perm name bucket'.keys).mem_iff, mem_keys_iff]
      rw [record?, Option.join_eq_some_iff] at ha'
      simp [ha']
    have hmap := h key hkey
    rw [ha, ha'] at hmap
    exact Option.some.inj hmap
  · intro h key _
    cases ha : record? bucket key with
    | none =>
      have hnone : record? bucket' key = none := by
        have hkey := hboth key
        rw [ha] at hkey
        simpa using hkey.symm
      rw [hnone]
      rfl
    | some a =>
      have hsome := hboth key
      rw [ha] at hsome
      obtain ⟨a', ha'⟩ := Option.isSome_iff_exists.mp hsome.symm
      rw [ha', Option.map_some, Option.map_some, h key a a' ha ha']

def redactResource (r : Resource) : Resource := { r with spec := redactSpec r.spec }

/-- Redaction goes through the records of a bucket one by one. -/
theorem redactSecrets_bucketResources {α : Type} (name : String) (bucket : Bucket α)
    (f : String → α → Resource) :
    redactSecrets (bucketResources order name bucket f) =
      bucketResources order name bucket fun key a => redactResource (f key a) := by
  rw [redactSecrets, bucketResources, bucketResources, List.map_filterMap]
  refine congrArg (List.filterMap · _) (funext ?_)
  intro key
  rw [Option.map_map]
  rfl

/-- A map of values that two views determine together. -/
theorem map_map_eq_iff {V W X Y : Type} {f : V → W} {g : V → X} {k : V → Y}
    (h : ∀ v v', k v = k v' ↔ f v = f v' ∧ g v = g v') (m m' : StrMap V) :
    m.map (fun _ => k) = m'.map (fun _ => k) ↔
      m.map (fun _ => f) = m'.map (fun _ => f) ∧ m.map (fun _ => g) = m'.map (fun _ => g) := by
  rw [map_eq_iff, map_eq_iff, map_eq_iff, ← forall_and]
  apply forall_congr'
  intro key
  cases m[key]? with
  | none => cases m'[key]? <;> simp
  | some v => cases m'[key]? <;> simp [h]

theorem GatewayDeviceConfig.redact_eq_iff (dev dev' : GatewayDeviceConfig) :
    dev.redact = dev'.redact ↔ dev.clear = dev'.clear ∧ dev.community = dev'.community := by
  cases dev
  cases dev'
  simp only [redact, clear, GatewayDeviceConfig.mk.injEq]
  tauto

theorem PlcDeviceConfigKV.eq_iff (dev dev' : PlcDeviceConfigKV) :
    dev = dev' ↔ dev.clear = dev'.clear ∧ dev.community = dev'.community := by
  cases dev
  cases dev'
  simp only [clear, PlcDeviceConfigKV.mk.injEq]
  tauto

/-- Maps that agree once they are cleared agree so with the empty map in place of none. -/
theorem getD_clear {V : Type} {f : V → V} {o o' : Option (StrMap V)}
    (h : o.map (·.map fun _ => f) = o'.map (·.map fun _ => f)) :
    (o.getD ∅).map (fun _ => f) = (o'.getD ∅).map (fun _ => f) := by
  cases o with
  | none =>
    cases o' with
    | none => rfl
    | some m' => cases h
  | some m =>
    cases o' with
    | none => cases h
    | some m' => exact Option.some.inj h

/-- The redacted resources of two gateways that differ in credentials only are equal
exactly when the community strings are. -/
theorem redact_gatewayResource_eq_iff {kv kv' : GatewayConfigKV} (h : kv.clear = kv'.clear)
    (key : String) :
    redactResource (gatewayResource key kv) = redactResource (gatewayResource key kv') ↔
      kv.communities = kv'.communities := by
  obtain ⟨-, hdevices, hvariables, htemplates, hudts, -⟩ := GatewayConfigKV.mk.inj h
  have hmap := map_map_eq_iff GatewayDeviceConfig.redact_eq_iff (kv.devices.getD ∅)
    (kv'.devices.getD ∅)
  simp only [redactResource, gatewayResource, redactSpec, Resource.mk.injEq, true_and,
    Spec.gateway.injEq, GatewaySpec.mk.injEq, hvariables, htemplates, hudts, and_true,
    Option.map_some, Option.some.injEq]
  rw [hmap]
  exact and_iff_right (getD_clear hdevices)

/-- With the passwords cleared two PLCs are exported alike exactly if their communities are the
same. -/
theorem redact_plcResource_eq_iff {b b' : Bus} (hprograms : b.plcPrograms = b'.plcPrograms)
    {kv kv' : PlcConfigKV} (h : kv.clear = kv'.clear) (key : String) :
    redactResource (plcResource b key kv) = redactResource (plcResource b' key kv') ↔
      kv.communities = kv'.communities := by
  obtain ⟨-, hdevices, hvariables, htemplates, htasks, -⟩ := PlcConfigKV.mk.inj h
  have hmap := map_map_eq_iff (k := fun dev => dev) PlcDeviceConfigKV.eq_iff (kv.devices.getD ∅)
    (kv'.devices.getD ∅)
  rw [ExtTreeMap.map_id, ExtTreeMap.map_id, and_iff_right (getD_clear hdevices)] at hmap
  simp only [redactResource, plcResource, redactSpec, Resource.mk.injEq, true_and,
    Spec.plc.injEq, PlcSpec.mk.injEq, hvariables, htemplates, htasks, hprograms, and_true,
    Option.some.injEq]
  exact hmap

theorem redactSecrets_exportModuleConfigs (b : Bus) :
    redactSecrets (exportModuleConfigs order b) =
      ((groupModules b.tentacleConfig (order.shuffle "tentacle_config" b.tentacleConfig.keys)).map
        fun _ values => values.map redactValue).toList.map fun e =>
          moduleConfigResource e.1 e.2 := by
  rw [redactSecrets, exportModuleConfigs, ExtTreeMap.toList_map, List.map_map, List.map_map]
  rfl

theorem envValue_redact (modules : StrMap (StrMap String)) (moduleID envVar : String) :
    envValue (modules.map fun _ values => values.map redactValue) moduleID envVar =
      (envValue modules moduleID envVar).map (redactValue envVar) := by
  rw [envValue, envValue, ExtTreeMap.getElem?_map]
  cases modules[moduleID]? with
  | none => rfl
  | some values => exact ExtTreeMap.getElem?_map

theorem redact_ne_empty {modules : StrMap (StrMap String)}
    (h : ∀ (m : String) values, modules[m]? = some values → values ≠ ∅) (m : String)
    (values : StrMap String)
    (hm : (modules.map fun _ values => values.map redactValue)[m]? = some values) :
    values ≠ ∅ := by
  rw [ExtTreeMap.getElem?_map, Option.map_eq_some_iff] at hm
  obtain ⟨values', hvalues', rfl⟩ := hm
  rw [ne_eq, ExtTreeMap.map_eq_empty_iff]
  exact h m values' hvalues'

theorem redactValue_of_secret {envVar value : String} (hsecret : isSecretEnvVar envVar)
    (hvalue : value ≠ "") : redactValue envVar value = secretPlaceholder := by
  rw [redactValue, if_neg hvalue, if_pos hsecret]

/-- Values that differ in secrets only are redacted to the same. -/
theorem SameValue.redact {moduleID envVar : String} (hdot : '.' ∉ moduleID.toList)
    {v v' : Option String} (h : SameValue (configKey moduleID envVar) v v') :
    v.map (redactValue envVar) = v'.map (redactValue envVar) := by
  obtain rfl | ⟨m, e, x, x', hsplit, hsecret, rfl, rfl, hx, hx'⟩ := h
  · rfl
  · rw [splitModule_configKey hdot, Option.some.injEq, Prod.mk.injEq] at hsplit
    rw [← hsplit.2] at hsecret
    rw [Option.map_some, Option.map_some, redactValue_of_secret hsecret hx,
      redactValue_of_secret hsecret hx']

theorem SameValue.isSome {key : String} {v v' : Option String} (h : SameValue key v v') :
    v.isSome = v'.isSome := by
  obtain rfl | ⟨m, e, x, x', -, -, rfl, rfl, -⟩ := h
  · rfl
  · rfl

/-- Settings that differ in secrets only are exported alike. -/
theorem redact_exportModuleConfigs_eq {b b' : Bus}
    (h : ∀ key : String, SameValue key b.tentacleConfig[key]? b'.tentacleConfig[key]?) :
    redactSecrets (exportModuleConfigs order b) = redactSecrets (exportModuleConfigs order b') := by
  have hkeys : b.tentacleConfig.keys = b'.tentacleConfig.keys :=
    keys_eq_of_isSome fun key => (h key).isSome
  rw [redactSecrets_exportModuleConfigs, redactSecrets_exportModuleConfigs, hkeys]
  apply congrArg (fun g : StrMap (StrMap String) => g.toList.map _)
  refine groups_ext (redact_ne_empty fun _ _ => groupModules_ne_empty)
    (redact_ne_empty fun _ _ => groupModules_ne_empty) ?_
  intro moduleID envVar
  rw [envValue_redact, envValue_redact, envValue_groupModules, envValue_groupModules]
  split
  next hmem => exact (h _).redact hmem.1
  next => rfl

/-! ## Equality of two exports -/

theorem exportResources_gateway (b : Bus) : exportResources order ["Gateway"] b =
    redactSecrets (exportGateways order b) := by
  simp [exportResources, includes, Kind.text]

theorem exportResources_plc (b : Bus) : exportResources order ["Plc"] b =
    redactSecrets (exportPlcs order b) := by
  simp [exportResources, includes, Kind.text]

theorem redactSecrets_append (l l' : List Resource) :
    redactSecrets (l ++ l') = redactSecrets l ++ redactSecrets l' := List.map_append

theorem redactSecrets_ite (p : Bool) (l : List Resource) :
    redactSecrets (if p then l else []) = if p then redactSecrets l else [] := by
  cases p <;> rfl

/-- Gateways that differ in credentials only are exported alike exactly if their communities are the
same. -/
theorem redact_exportGateways_eq_iff {b b' : Bus}
    (h : ∀ key : String, b.gatewayConfig[key]?.map (Option.map GatewayConfigKV.clear) =
      b'.gatewayConfig[key]?.map (Option.map GatewayConfigKV.clear)) :
    redactSecrets (exportGateways order b) = redactSecrets (exportGateways order b') ↔
      ∀ key kv kv', record? b.gatewayConfig key = some kv →
        record? b'.gatewayConfig key = some kv' → kv.communities = kv'.communities := by
  refine (Iff.of_eq (congrArg₂ Eq (redactSecrets_bucketResources ..)
    (redactSecrets_bucketResources ..))).trans ((bucketResources_eq_iff order h ..).trans ?_)
  refine forall_congr' fun key => forall₂_congr fun kv kv' => forall₂_congr ?_
  intro hkv hkv'
  have hclear := map_record? (h key)
  rw [hkv, hkv'] at hclear
  exact redact_gatewayResource_eq_iff (Option.some.inj hclear) key

theorem redact_exportPlcs_eq_iff {b b' : Bus} (hprograms : b.plcPrograms = b'.plcPrograms)
    (h : ∀ key : String, b.plcConfig[key]?.map (Option.map PlcConfigKV.clear) =
      b'.plcConfig[key]?.map (Option.map PlcConfigKV.clear)) :
    redactSecrets (exportPlcs order b) = redactSecrets (exportPlcs order b') ↔
      ∀ key kv kv', record? b.plcConfig key = some kv →
        record? b'.plcConfig key = some kv' → kv.communities = kv'.communities := by
  refine (Iff.of_eq (congrArg₂ Eq (redactSecrets_bucketResources ..)
    (redactSecrets_bucketResources ..))).trans ((bucketResources_eq_iff order h ..).trans ?_)
  refine forall_congr' fun key => forall₂_congr fun kv kv' => forall₂_congr ?_
  intro hkv hkv'
  have hclear := map_record? (h key)
  rw [hkv, hkv'] at hclear
  exact redact_plcResource_eq_iff hprograms (Option.some.inj hclear) key

/-- Two exports of states that differ in credentials only are equal exactly when the
community strings of all gateway and PLC devices are. -/
theorem exportResources_eq_iff {b b' : Bus} (h : SameButCredentials b b') :
    (∀ order kinds, exportResources order kinds b = exportResources order kinds b') ↔
      SameCommunities b b' := by
  obtain ⟨-, hservices, henabled, -, -, hprograms, -, hbeats, hnftables, hnetwork⟩ :=
    Bus.mk.inj h.rest
  constructor
  · intro hexport
    refine ⟨(redact_exportGateways_eq_iff .sorted h.gateways).mp ?_,
      (redact_exportPlcs_eq_iff .sorted hprograms h.plcs).mp ?_⟩
    · have hgateways := hexport .sorted ["Gateway"]
      rwa [exportResources_gateway, exportResources_gateway] at hgateways
    · have hplcs := hexport .sorted ["Plc"]
      rwa [exportResources_plc, exportResources_plc] at hplcs
  · intro hsame order kinds
    have hrunning : ∀ serviceType, isServiceRunning b serviceType =
        isServiceRunning b' serviceType := by
      intro serviceType
      rw [isServiceRunning, isServiceRunning, hbeats]
    have hresource : serviceResource b = serviceResource b' := by
      funext key kv
      rw [serviceResource, serviceResource, henabled]
    have hexportServices : exportServices order b = exportServices order b' := by
      rw [exportServices, exportServices, hservices, hresource]
    have hexportNftables : exportNftables b = exportNftables b' := by
      rw [exportNftables, exportNftables, hnftables]
    have hexportNetwork : exportNetwork b = exportNetwork b' := by
      rw [exportNetwork, exportNetwork, hnetwork]
    simp only [exportResources, redactSecrets_append, redactSecrets_ite, hrunning,
      (redact_exportGateways_eq_iff order h.gateways).mpr hsame.gateways,
      (redact_exportPlcs_eq_iff order hprograms h.plcs).mpr hsame.plcs,
      redact_exportModuleConfigs_eq order h.configs, hexportServices, hexportNftables,
      hexportNetwork]

/-- An SNMP device with credentials of both kinds. -/
def snmpDevice (community authPassword : String) : GatewayDeviceConfig where
  protocol := "snmp"
  host := "10.0.0.5"
  community := community
  v3Auth := some {
    username := "reader"
    securityLevel := "authNoPriv"
    authProtocol := "SHA"
    authPassword := authPassword }

def snmpGateway (community authPassword : String) : GatewayConfigKV where
  gatewayID := "gateway"
  devices := some ((∅ : StrMap GatewayDeviceConfig).insert "agent" (snmpDevice community authPassword))
  variableConfigs := some ∅
  udtTemplates := ∅
  udtVariables := ∅
  updatedAt := 0

def snmpBus (community authPassword : String) : Bus where
  gatewayConfig := (∅ : Bucket GatewayConfigKV).insert "gateway"
    (some (snmpGateway community authPassword))

theorem record?_snmpBus (community authPassword : String) :
    record? (snmpBus community authPassword).gatewayConfig "gateway" =
      some (snmpGateway community authPassword) := by
  rw [record?, snmpBus, getElem?_insert_self]
  rfl

/-- The gateways of the example differ in credentials only. -/
theorem clear_snmpGateway (community community' authPassword authPassword' : String) :
    (snmpGateway community authPassword).clear = (snmpGateway community' authPassword').clear := by
  have hdevices : ((∅ : StrMap GatewayDeviceConfig).insert "agent"
        (snmpDevice community authPassword)).map (fun _ => GatewayDeviceConfig.clear) =
      ((∅ : StrMap GatewayDeviceConfig).insert "agent"
        (snmpDevice community' authPassword')).map (fun _ => GatewayDeviceConfig.clear) := by
    rw [map_eq_iff]
    intro key
    rw [getElem?_insert, getElem?_insert]
    split <;> rfl
  exact congrArg (fun devices => { snmpGateway "" "" with devices := some devices }) hdevices

theorem sameButCredentials_snmpBus (community community' authPassword authPassword' : String) :
    SameButCredentials (snmpBus community authPassword) (snmpBus community' authPassword') where
  gateways := by
    intro key
    rw [snmpBus, snmpBus, getElem?_insert, getElem?_insert]
    split
    next =>
      rw [Option.map_some, Option.map_some, Option.map_some, Option.map_some,
        clear_snmpGateway community community' authPassword authPassword']
    next => rfl
  plcs _ := rfl
  configs _ := .inl rfl
  rest := rfl

theorem eq_snmpGateway_of_record (community authPassword key : String) (kv : GatewayConfigKV)
    (h : record? (snmpBus community authPassword).gatewayConfig key = some kv) :
    key = "gateway" ∧ kv = snmpGateway community authPassword := by
  rw [record?, snmpBus, getElem?_insert] at h
  split at h
  next hkey => exact ⟨hkey.symm, (Option.some.inj h).symm⟩
  next =>
    rw [ExtTreeMap.getElem?_empty] at h
    cases h

/-- A password of SNMP v3 does not show in the export. -/
theorem exportResources_eq_snmpBus :
    SameButCredentials (snmpBus "public" "one") (snmpBus "public" "two") ∧
      ∀ order kinds, exportResources order kinds (snmpBus "public" "one") =
        exportResources order kinds (snmpBus "public" "two") := by
  refine ⟨sameButCredentials_snmpBus .., ?_⟩
  refine (exportResources_eq_iff (sameButCredentials_snmpBus ..)).mpr ⟨?_, ?_⟩
  · intro key kv kv' hkv hkv'
    rw [(eq_snmpGateway_of_record _ _ _ _ hkv).2, (eq_snmpGateway_of_record _ _ _ _ hkv').2]
    decide
  · intro key kv kv' hkv
    cases hkv

/-- A community string does. -/
theorem exportResources_ne_snmpBus :
    SameButCredentials (snmpBus "public" "one") (snmpBus "private" "one") ∧
      ¬∀ order kinds, exportResources order kinds (snmpBus "public" "one") =
        exportResources order kinds (snmpBus "private" "one") := by
  refine ⟨sameButCredentials_snmpBus .., ?_⟩
  intro h
  have hgateways := h .sorted ["Gateway"]
  rw [exportResources_gateway, exportResources_gateway,
    redact_exportGateways_eq_iff .sorted (sameButCredentials_snmpBus ..).gateways] at hgateways
  have hsame := hgateways "gateway" _ _ (record?_snmpBus ..) (record?_snmpBus ..)
  exact absurd hsame (by decide)

end Manifest
