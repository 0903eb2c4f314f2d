import Tentacle.ManifestApply

/-!
# Applying what was exported

The export of a state, serialised, parsed and applied to the state again, writes each record
back under its own key. That leaves the configuration as it was exactly when every record
names its key, no map in it is null, and no SNMP v3 device has a password: the export has
none, and the apply writes what the export has.
-/

namespace Manifest

open GoValues JsonCodec Std

/-! ## The resources of an export -/

theorem groupModules_perm {config : StrMap String} {keys keys' : List String}
    (h : keys.Perm keys') : groupModules config keys = groupModules config keys' := by
  apply groups_ext (fun _ _ => groupModules_ne_empty) (fun _ _ => groupModules_ne_empty)
  intro moduleID envVar
  rw [envValue_groupModules, envValue_groupModules]
  exact if_congr (and_congr_right fun _ => h.mem_iff) rfl rfl

def moduleGroups (b : Bus) : StrMap (StrMap String) :=
  groupModules b.tentacleConfig b.tentacleConfig.keys

/-- The resources that an export of all kinds has, whatever the order of the keys. -/
inductive Exported (b : Bus) : Resource → Prop
  | gateway {key : String} {kv : GatewayConfigKV} (h : record? b.gatewayConfig key = some kv) :
      Exported b (redactResource (gatewayResource key kv))
  | service {key : String} {kv : DesiredServiceKV} (h : record? b.desiredServices key = some kv) :
      Exported b (serviceResource b key kv)
  | moduleConfig {moduleID : String} {values : StrMap String}
      (h : (moduleGroups b)[moduleID]? = some values) :
      Exported b (redactResource (moduleConfigResource moduleID values))
  | nftables {rules : List NatRule} (hrunning : isServiceRunning b "nftables")
      (h : { name := "default", spec := .nftables { natRules := some rules } } ∈
        exportNftables b) :
      Exported b { name := "default", spec := .nftables { natRules := some rules } }
  | plc {key : String} {kv : PlcConfigKV} (h : record? b.plcConfig key = some kv) :
      Exported b (plcResource b key kv)
  | network {ifaces : List NetworkInterfaceConfig} (hrunning : isServiceRunning b "network")
      (h : { name := "default", spec := .network { interfaces := some ifaces } } ∈
        exportNetwork b) :
      Exported b { name := "default", spec := .network { interfaces := some ifaces } }

variable {order : KeyOrder} {b : Bus}

/-- The resources of a bucket are those of its records. -/
theorem mem_bucketResources {α : Type} {name : String} {bucket : Bucket α}
    {f : String → α → Resource} {r : Resource} :
    r ∈ bucketResources order name bucket f ↔
      ∃ key a, record? bucket key = some a ∧ r = f key a := by
  rw [bucketResources, List.mem_filterMap]
  constructor
  · rintro ⟨key, -, hkey⟩
    obtain ⟨a, ha, rfl⟩ := Option.map_eq_some_iff.mp hkey
    exact ⟨key, a, ha, rfl⟩
  · rintro ⟨key, a, ha, rfl⟩
    refine ⟨key, ?_, Option.map_eq_some_iff.mpr ⟨a, ha, rfl⟩⟩
    rw [(order.perm name bucket.keys).mem_iff, mem_keys_iff]
    rw [record?, Option.join_eq_some_iff] at ha
    rw [ha]
    rfl

/-- The module configs are those of the groups. -/
theorem mem_exportModuleConfigs {r : Resource} :
    r ∈ exportModuleConfigs order b ↔
      ∃ moduleID values, (moduleGroups b)[moduleID]? = some values ∧
        r = moduleConfigResource moduleID values := by
  rw [exportModuleConfigs, List.mem_map, groupModules_perm (order.perm _ _), ← moduleGroups]
  constructor
  · rintro ⟨⟨moduleID, values⟩, he, rfl⟩
    exact ⟨moduleID, values, ExtTreeMap.mem_toList_iff_getElem?_eq_some.mp he, rfl⟩
  · rintro ⟨moduleID, values, he, rfl⟩
    exact ⟨(moduleID, values), ExtTreeMap.mem_toList_iff_getElem?_eq_some.mpr he, rfl⟩

/-- The rules are one resource, if there are any. -/
theorem exportNftables_eq (b : Bus) : exportNftables b = [] ∨ ∃ rules, exportNftables b =
    [{ name := "default", spec := .nftables { natRules := some rules } }] := by
  rw [exportNftables]
  split
  next => exact .inl rfl
  next =>
    split
    next => exact .inr ⟨_, rfl⟩
    next => exact .inl rfl

/-- The interfaces are one resource, if there are any. -/
theorem exportNetwork_eq (b : Bus) : exportNetwork b = [] ∨ ∃ ifaces, exportNetwork b =
    [{ name := "default", spec := .network { interfaces := some ifaces } }] := by
  rw [exportNetwork]
  split
  next => exact .inl rfl
  next =>
    split
    next => exact .inr ⟨_, rfl⟩
    next => exact .inl rfl

/-- A list with no entry or one. -/
theorem mem_of_eq_nil_or {α β : Type} {l : List α} {f : β → α}
    (h : l = [] ∨ ∃ c, l = [f c]) {a : α} (ha : a ∈ l) : ∃ c, l = [f c] ∧ a = f c := by
  obtain rfl | ⟨c, rfl⟩ := h
  · cases ha
  · exact ⟨c, rfl, List.mem_singleton.mp ha⟩

/-- What is exported is read off the records of the running modules. -/
theorem mem_exportResources {r : Resource} : r ∈ exportResources order [] b ↔ Exported b r := by
  have hparts : r ∈ exportResources order [] b ↔ ∃ r', r = redactResource r' ∧
      (r' ∈ exportGateways order b ∨ r' ∈ exportServices order b ∨
        r' ∈ exportModuleConfigs order b ∨
        (isServiceRunning b "nftables" ∧ r' ∈ exportNftables b) ∨ r' ∈ exportPlcs order b ∨
        (isServiceRunning b "network" ∧ r' ∈ exportNetwork b)) := by
    rw [exportResources, redactSecrets, List.mem_map]
    apply exists_congr
    intro r'
    rw [and_comm, eq_comm]
    refine and_congr_right fun _ => ?_
    simp only [includes, List.isEmpty_nil, Bool.true_or, if_true, List.mem_append,
      List.mem_ite_nil_right, or_assoc]
  rw [hparts]
  constructor
  · rintro ⟨r', rfl, h | h | h | h | h | h⟩
    · obtain ⟨key, kv, hkv, rfl⟩ := mem_bucketResources.mp h
      exact .gateway hkv
    · obtain ⟨key, kv, hkv, rfl⟩ := mem_bucketResources.mp h
      exact .service hkv
    · obtain ⟨moduleID, values, hvalues, rfl⟩ := mem_exportModuleConfigs.mp h
      exact .moduleConfig hvalues
    · obtain ⟨hrunning, h⟩ := h
      obtain ⟨rules, -, rfl⟩ := mem_of_eq_nil_or (exportNftables_eq b) h
      exact .nftables hrunning h
    · obtain ⟨key, kv, hkv, rfl⟩ := mem_bucketResources.mp h
      exact .plc hkv
    · obtain ⟨hrunning, h⟩ := h
      obtain ⟨ifaces, -, rfl⟩ := mem_of_eq_nil_or (exportNetwork_eq b) h
      exact .network hrunning h
  · intro h
    cases h with
    | gateway hkv => exact ⟨_, rfl, .inl (mem_bucketResources.mpr ⟨_, _, hkv, rfl⟩)⟩
    | service hkv => exact ⟨_, rfl, .inr (.inl (mem_bucketResources.mpr ⟨_, _, hkv, rfl⟩))⟩
    | moduleConfig hvalues =>
      exact ⟨_, rfl, .inr (.inr (.inl (mem_exportModuleConfigs.mpr ⟨_, _, hvalues, rfl⟩)))⟩
    | nftables hrunning h => exact ⟨_, rfl, .inr (.inr (.inr (.inl ⟨hrunning, h⟩)))⟩
    | plc hkv =>
      exact ⟨_, rfl, .inr (.inr (.inr (.inr (.inl (mem_bucketResources.mpr ⟨_, _, hkv, rfl⟩)))))⟩
    | network hrunning h => exact ⟨_, rfl, .inr (.inr (.inr (.inr (.inr ⟨hrunning, h⟩))))⟩

/-- A grouped value is the setting of its key. -/
theorem moduleGroups_value {moduleID envVar value : String} {values : StrMap String}
    (hvalues : (moduleGroups b)[moduleID]? = some values) (h : values[envVar]? = some value) :
    b.tentacleConfig[configKey moduleID envVar]? = some value := by
  have hvalue : envValue (moduleGroups b) moduleID envVar = some value := by
    rw [envValue, hvalues]
    exact h
  rw [moduleGroups, envValue_groupModules] at hvalue
  split at hvalue
  next => exact hvalue
  next => cases hvalue

/-! ## The configuration without its stamps -/

def GatewayConfigKV.unstamped (kv : GatewayConfigKV) : GatewayConfigKV := { kv with updatedAt := 0 }

def DesiredServiceKV.unstamped (kv : DesiredServiceKV) : DesiredServiceKV :=
  { kv with updatedAt := 0 }

def ServiceEnabledKV.unstamped (kv : ServiceEnabledKV) : ServiceEnabledKV :=
  { kv with updatedAt := 0 }

def PlcConfigKV.unstamped (kv : PlcConfigKV) : PlcConfigKV := { kv with updatedAt := 0 }

def PlcProgramKV.unstamped (kv : PlcProgramKV) : PlcProgramKV :=
  { kv with updatedAt := 0, updatedBy := "" }

/-- The buckets are equal, but for the times and the authors of the records. -/
def SameBucket {α : Type} (view : α → α) (bucket bucket' : Bucket α) : Prop :=
  bucket'.map (fun _ => Option.map view) = bucket.map (fun _ => Option.map view)

/-- All configuration buckets are equal, the metadata apart. -/
structure SameConfig (b b' : Bus) : Prop where
  gatewayConfig : SameBucket GatewayConfigKV.unstamped b.gatewayConfig b'.gatewayConfig
  desiredServices : SameBucket DesiredServiceKV.unstamped b.desiredServices b'.desiredServices
  serviceEnabled : SameBucket ServiceEnabledKV.unstamped b.serviceEnabled b'.serviceEnabled
  tentacleConfig : b'.tentacleConfig = b.tentacleConfig
  plcConfig : SameBucket PlcConfigKV.unstamped b.plcConfig b'.plcConfig
  plcPrograms : SameBucket PlcProgramKV.unstamped b.plcPrograms b'.plcPrograms

/-! ## What comes back -/

def GatewayDeviceConfig.NoPassword (dev : GatewayDeviceConfig) : Prop :=
  ∀ auth, dev.v3Auth = some auth → auth.authPassword = "" ∧ auth.privPassword = ""

structure GatewayConfigKV.Restorable (key : String) (kv : GatewayConfigKV) : Prop where
  gatewayID : kv.gatewayID = key
  devices : ∃ devices, kv.devices = some devices ∧
    ∀ (devID : String) dev, devices[devID]? = some dev → dev.NoPassword
  variableConfigs : kv.variableConfigs ≠ none

structure PlcConfigKV.Restorable (key : String) (kv : PlcConfigKV) : Prop where
  plcID : kv.plcID = key
  devices : kv.devices ≠ none
  variableConfigs : kv.variableConfigs ≠ none
  tasks : kv.tasks ≠ none

/-- A task of some PLC refers to the program. -/
def Referenced (b : Bus) (program : String) : Prop :=
  program ≠ "" ∧ ∃ (key : String) (kv : PlcConfigKV) (taskID : String) (task : PlcTaskConfigKV),
    record? b.plcConfig key = some kv ∧ (kv.tasks.getD ∅)[taskID]? = some task ∧
      task.programRef = program

/-- Every record that is exported names its own key, its maps are there, and no gateway
device has a password. -/
structure Restorable (b : Bus) : Prop where
  gateways : ∀ key kv, record? b.gatewayConfig key = some kv → kv.Restorable key
  services : ∀ key kv, record? b.desiredServices key = some kv → kv.moduleID = key
  enabled : ∀ key kv, (record? b.desiredServices key).isSome →
    record? b.serviceEnabled key = some kv → kv.moduleID = key
  plcs : ∀ key kv, record? b.plcConfig key = some kv → kv.Restorable key
  programs : ∀ key kv, Referenced b key → record? b.plcPrograms key = some kv → kv.name = key

variable (call : Call)

def restoredGateway (key : String) (kv : GatewayConfigKV) : GatewayConfigKV :=
  { kv with
    gatewayID := key
    devices := some ((kv.devices.getD ∅).map fun _ dev => dev.redact)
    variableConfigs := some (kv.variableConfigs.getD ∅)
    updatedAt := call.now }

def restoredPlc (key : String) (kv : PlcConfigKV) : PlcConfigKV :=
  { kv with
    plcID := key
    devices := some (kv.devices.getD ∅)
    variableConfigs := some (kv.variableConfigs.getD ∅)
    tasks := some (kv.tasks.getD ∅)
    updatedAt := call.now }

/-- A device without passwords is exported as it is. -/
theorem redact_eq_self_iff (dev : GatewayDeviceConfig) : dev.redact = dev ↔ dev.NoPassword := by
  have hv3Auth : dev.redact = dev ↔ dev.v3Auth.map V3Auth.redact = dev.v3Auth := by
    constructor
    · intro h
      exact congrArg GatewayDeviceConfig.v3Auth h
    · intro h
      rw [GatewayDeviceConfig.redact, h]
  rw [hv3Auth, GatewayDeviceConfig.NoPassword]
  cases dev.v3Auth with
  | none => simp
  | some auth =>
    rw [Option.map_some, Option.some.injEq]
    constructor
    · rintro h auth' ⟨⟩
      exact ⟨(congrArg V3Auth.authPassword h).symm, (congrArg V3Auth.privPassword h).symm⟩
    · intro h
      obtain ⟨username, level, authProtocol, authPassword, privProtocol, privPassword⟩ := auth
      obtain ⟨rfl, rfl⟩ := h _ rfl
      rfl

theorem some_getD_eq_iff {V : Type} (m : Option (StrMap V)) : some (m.getD ∅) = m ↔ m ≠ none := by
  cases m <;> simp

theorem map_redact_eq_self_iff (devices : StrMap GatewayDeviceConfig) :
    devices.map (fun _ dev => dev.redact) = devices ↔
      ∀ (devID : String) dev, devices[devID]? = some dev → dev.NoPassword := by
  rw [ExtTreeMap.ext_getElem?_iff]
  apply forall_congr'
  intro devID
  rw [ExtTreeMap.getElem?_map]
  cases devices[devID]? with
  | none => simp
  | some dev => simp [redact_eq_self_iff]

/-- A gateway is restored exactly if it has its own key and nothing to redact. -/
theorem unstamped_restoredGateway (key : String) (kv : GatewayConfigKV) :
    (restoredGateway call key kv).unstamped = kv.unstamped ↔ kv.Restorable key := by
  obtain ⟨gatewayID, devices, variableConfigs, templates, udts, updatedAt⟩ := kv
  simp only [restoredGateway, GatewayConfigKV.unstamped, GatewayConfigKV.mk.injEq, and_true,
    some_getD_eq_iff]
  constructor
  · rintro ⟨rfl, hdevices, hvariables⟩
    refine ⟨rfl, ?_, hvariables⟩
    cases devices with
    | none => cases hdevices
    | some devices =>
      exact ⟨devices, rfl, (map_redact_eq_self_iff devices).mp (Option.some.inj hdevices)⟩
  · rintro ⟨hid, ⟨devices, rfl, hdevices⟩, hvariables⟩
    exact ⟨hid.symm, congrArg some ((map_redact_eq_self_iff devices).mpr hdevices), hvariables⟩

theorem unstamped_restoredPlc (key : String) (kv : PlcConfigKV) :
    (restoredPlc call key kv).unstamped = kv.unstamped ↔ kv.Restorable key := by
  obtain ⟨plcID, devices, variableConfigs, templates, tasks, updatedAt⟩ := kv
  simp only [restoredPlc, PlcConfigKV.unstamped, PlcConfigKV.mk.injEq, true_and, and_true,
    some_getD_eq_iff]
  constructor
  · rintro ⟨rfl, hdevices, hvariables, htasks⟩
    exact ⟨rfl, hdevices, hvariables, htasks⟩
  · rintro ⟨hid, hdevices, hvariables, htasks⟩
    exact ⟨hid.symm, hdevices, hvariables, htasks⟩

/-! ## The writes of an exported resource -/

variable {call}

/-- What a bucket is written when its records come back: under some of its keys, the record
there as it was restored. -/
def Restores {α : Type} (bucket : Bucket α) (reach : String → Prop) (restored : String → α → α)
    (w : String × Option α) : Prop :=
  ∃ key a, reach key ∧ record? bucket key = some a ∧ w = (key, some (restored key a))

section

variable {α : Type} {view : α → α} {bucket : Bucket α} {reach : String → Prop}
  {restored : String → α → α} {writes : List (String × Option α)}

theorem getElem?_of_record {key : String} {a : α} (h : record? bucket key = some a) :
    bucket[key]? = some (some a) := by
  rwa [record?, Option.join_eq_some_iff] at h

/-- A bucket is the same after writes that restore its records. -/
theorem sameBucket_of_restores (hwrites : ∀ w ∈ writes, Restores bucket reach restored w)
    (h : ∀ key a, reach key → record? bucket key = some a → view (restored key a) = view a) :
    SameBucket view bucket (writeAll bucket writes) := by
  apply map_writeAll_of_same
  intro w hw
  obtain ⟨key, a, hreach, ha, rfl⟩ := hwrites w hw
  rw [getElem?_of_record ha, Option.map_some, Option.map_some, Option.map_some,
    h key a hreach ha]

/-- A bucket that is the same after the writes has had its records restored. -/
theorem eq_of_sameBucket (hwrites : ∀ w, w ∈ writes ↔ Restores bucket reach restored w)
    (h : SameBucket view bucket (writeAll bucket writes)) (key : String) (a : α)
    (hreach : reach key) (ha : record? bucket key = some a) :
    view (restored key a) = view a := by
  have hconsistent : Consistent writes := by
    intro w hw w' hw' hkey
    obtain ⟨key, c, -, hc, rfl⟩ := (hwrites w).mp hw
    obtain ⟨key', c', -, hc', rfl⟩ := (hwrites w').mp hw'
    obtain rfl : key = key' := hkey
    rw [hc, Option.some.injEq] at hc'
    rw [hc']
  have hsame := (map_writeAll_eq_iff hconsistent).mp h (key, some (restored key a))
    ((hwrites _).mpr ⟨key, a, hreach, ha, rfl⟩)
  rw [getElem?_of_record ha, Option.map_some, Option.map_some, Option.map_some,
    Option.some.injEq, Option.some.injEq] at hsame
  exact hsame.symm

end

/-- The writes of the exported gateways restore all gateways. -/
theorem mem_gatewayWrites (w : String × Option GatewayConfigKV) :
    w ∈ (exportResources order [] b).flatMap (gatewayWrites call) ↔
      Restores b.gatewayConfig (fun _ => True) (restoredGateway call) w := by
  rw [List.mem_flatMap]
  constructor
  · rintro ⟨r, hr, hw⟩
    cases mem_exportResources.mp hr with
    | gateway hkv =>
      cases List.mem_singleton.mp hw
      exact ⟨_, _, trivial, hkv, rfl⟩
    | _ => cases hw
  · rintro ⟨key, kv, -, hkv, rfl⟩
    exact ⟨_, mem_exportResources.mpr (.gateway hkv), .head _⟩

theorem mem_serviceWrites (w : String × Option DesiredServiceKV) :
    w ∈ (exportResources order [] b).flatMap (serviceWrites call) ↔
      Restores b.desiredServices (fun _ => True)
        (fun key kv => { kv with moduleID := key, updatedAt := call.now }) w := by
  rw [List.mem_flatMap]
  constructor
  · rintro ⟨r, hr, hw⟩
    cases mem_exportResources.mp hr with
    | service hkv =>
      cases List.mem_singleton.mp hw
      exact ⟨_, _, trivial, hkv, rfl⟩
    | _ => cases hw
  · rintro ⟨key, kv, -, hkv, rfl⟩
    exact ⟨_, mem_exportResources.mpr (.service hkv), .head _⟩

/-- The writes of the exported switches restore those of services that have a record. -/
theorem mem_enabledWrites (w : String × Option ServiceEnabledKV) :
    w ∈ (exportResources order [] b).flatMap (enabledWrites call) ↔
      Restores b.serviceEnabled (fun key => (record? b.desiredServices key).isSome)
        (fun key kv => { kv with moduleID := key, updatedAt := call.now }) w := by
  rw [List.mem_flatMap]
  constructor
  · rintro ⟨r, hr, hw⟩
    cases mem_exportResources.mp hr with
    | @service key kv hkv =>
      rw [serviceResource, enabledWrites] at hw
      dsimp only at hw
      cases henabled : record? b.serviceEnabled key with
      | none =>
        rw [henabled] at hw
        cases hw
      | some enabled =>
        rw [henabled] at hw
        cases List.mem_singleton.mp hw
        exact ⟨key, enabled, by simp [hkv], henabled, rfl⟩
    | _ => cases hw
  · rintro ⟨key, enabled, hservice, henabled, rfl⟩
    obtain ⟨kv, hkv⟩ := Option.isSome_iff_exists.mp hservice
    refine ⟨_, mem_exportResources.mpr (.service hkv), ?_⟩
    rw [serviceResource, enabledWrites, henabled]
    exact .head _

theorem mem_plcWrites (w : String × Option PlcConfigKV) :
    w ∈ (exportResources order [] b).flatMap (plcWrites call) ↔
      Restores b.plcConfig (fun _ => True) (restoredPlc call) w := by
  rw [List.mem_flatMap]
  constructor
  · rintro ⟨r, hr, hw⟩
    cases mem_exportResources.mp hr with
    | plc hkv =>
      cases List.mem_singleton.mp hw
      exact ⟨_, _, trivial, hkv, rfl⟩
    | _ => cases hw
  · rintro ⟨key, kv, -, hkv, rfl⟩
    exact ⟨_, mem_exportResources.mpr (.plc hkv), .head _⟩

/-! ### Programs -/

/-- What one round of the loop over the tasks adds to the programs. -/
def taskWrite (programs : Bucket PlcProgramKV) (e : String × PlcTaskConfigKV) :
    Option (String × PlcProgramSpec) :=
  if e.2.programRef = "" then none
  else (record? programs e.2.programRef).map fun kv => (e.2.programRef, programSpec kv)

/-- The programs of the tasks are collected in the order of the tasks. -/
theorem taskPrograms_eq (programs : Bucket PlcProgramKV) (tasks : StrMap PlcTaskConfigKV) :
    taskPrograms programs tasks = writeAll ∅ (tasks.toList.filterMap (taskWrite programs)) := by
  rw [taskPrograms]
  generalize (∅ : StrMap PlcProgramSpec) = found
  induction tasks.toList generalizing found with
  | nil => rfl
  | cons e entries ih =>
    rw [List.foldl_cons, ih, List.filterMap_cons, taskWrite]
    split
    next => rfl
    next =>
      cases record? programs e.2.programRef with
      | none => rfl
      | some kv => rfl

/-- A task collects the program that it names, if it is stored. -/
theorem taskWrite_eq_some {programs : Bucket PlcProgramKV} {e : String × PlcTaskConfigKV}
    {w : String × PlcProgramSpec} :
    taskWrite programs e = some w ↔ e.2.programRef ≠ "" ∧ e.2.programRef = w.1 ∧
      (record? programs w.1).map programSpec = some w.2 := by
  obtain ⟨name, spec⟩ := w
  rw [taskWrite]
  split
  next hempty => simp [hempty]
  next hname =>
    rw [Option.map_eq_some_iff, Option.map_eq_some_iff, and_iff_right hname]
    constructor
    · rintro ⟨kv, hkv, ⟨⟩⟩
      exact ⟨rfl, kv, hkv, rfl⟩
    · rintro ⟨rfl, kv, hkv, rfl⟩
      exact ⟨kv, hkv, rfl⟩

/-- A program is collected exactly if a task names it and it is stored. -/
theorem taskPrograms_getElem? (programs : Bucket PlcProgramKV) (tasks : StrMap PlcTaskConfigKV)
    (name : String) (spec : PlcProgramSpec) :
    (taskPrograms programs tasks)[name]? = some spec ↔
      (∃ (taskID : String) (task : PlcTaskConfigKV), tasks[taskID]? = some task ∧
        task.programRef = name) ∧ name ≠ "" ∧
      (record? programs name).map programSpec = some spec := by
  have hconsistent : Consistent (tasks.toList.filterMap (taskWrite programs)) := by
    intro w hw w' hw' hkey
    obtain ⟨e, -, he⟩ := List.mem_filterMap.mp hw
    obtain ⟨e', -, he'⟩ := List.mem_filterMap.mp hw'
    have hspec := (taskWrite_eq_some.mp he).2.2
    rw [hkey, (taskWrite_eq_some.mp he').2.2] at hspec
    exact (Option.some.inj hspec).symm
  rw [taskPrograms_eq, hconsistent.getElem?_writeAll_empty, List.mem_filterMap]
  constructor
  · rintro ⟨e, he, hwrite⟩
    obtain ⟨hname, rfl, hspec⟩ := taskWrite_eq_some.mp hwrite
    exact ⟨⟨e.1, e.2, ExtTreeMap.mem_toList_iff_getElem?_eq_some.mp he, rfl⟩, hname, hspec⟩
  · rintro ⟨⟨taskID, task, htask, rfl⟩, hname, hspec⟩
    exact ⟨(taskID, task), ExtTreeMap.mem_toList_iff_getElem?_eq_some.mpr htask,
      taskWrite_eq_some.mpr ⟨hname, rfl, hspec⟩⟩

/-- The writes of the exported PLCs restore the programs that a task names. -/
theorem mem_programWrites (w : String × Option PlcProgramKV) :
    w ∈ (exportResources order [] b).flatMap (programWrites call) ↔
      Restores b.plcPrograms (Referenced b)
        (fun key kv => { kv with name := key, updatedAt := call.now, updatedBy := call.source })
        w := by
  rw [List.mem_flatMap]
  constructor
  · rintro ⟨r, hr, hw⟩
    cases mem_exportResources.mp hr with
    | @plc key kv hkv =>
      obtain ⟨⟨name, spec⟩, he, rfl⟩ := List.mem_map.mp hw
      rw [Option.getD_some, ExtTreeMap.mem_toList_iff_getElem?_eq_some,
        taskPrograms_getElem?] at he
      obtain ⟨⟨taskID, task, htask, href⟩, hname, hspec⟩ := he
      obtain ⟨program, hprogram, rfl⟩ := Option.map_eq_some_iff.mp hspec
      exact ⟨name, program, ⟨hname, key, kv, taskID, task, hkv, htask, href⟩, hprogram, rfl⟩
    | _ => cases hw
  · rintro ⟨name, program, ⟨hname, key, kv, taskID, task, hkv, htask, href⟩, hprogram, rfl⟩
    refine ⟨_, mem_exportResources.mpr (.plc hkv), ?_⟩
    refine List.mem_map.mpr ⟨(name, programSpec program), ?_, rfl⟩
    rw [Option.getD_some, ExtTreeMap.mem_toList_iff_getElem?_eq_some, taskPrograms_getElem?,
      hprogram]
    exact ⟨⟨taskID, task, htask, href⟩, hname, rfl⟩

/-! ### Module configuration -/

/-- A value is exported as it is or as the placeholder. -/
theorem redactValue_eq_or (key val : String) :
    redactValue key val = val ∨ isSecretPlaceholder (redactValue key val) := by
  rw [redactValue]
  split
  next => exact .inl rfl
  next =>
    split
    next => exact .inr (decide_eq_true rfl)
    next => exact .inl rfl

/-- A value that was redacted is skipped, so each value that is written is the stored one. -/
theorem getElem?_of_mem_configWrites {w : String × String}
    (h : w ∈ (exportResources order [] b).flatMap configWrites) :
    b.tentacleConfig[w.1]? = some w.2 := by
  obtain ⟨r, hr, hw⟩ := List.mem_flatMap.mp h
  cases mem_exportResources.mp hr with
  | @moduleConfig moduleID values hvalues =>
    obtain ⟨⟨envVar, value⟩, he, hwrite⟩ := List.mem_filterMap.mp hw
    rw [ExtTreeMap.mem_toList_iff_getElem?_eq_some] at he
    change (values.map redactValue)[envVar]? = some value at he
    rw [ExtTreeMap.getElem?_map, Option.map_eq_some_iff] at he
    obtain ⟨stored, hstored, rfl⟩ := he
    rw [valueWrite] at hwrite
    split at hwrite
    next => cases hwrite
    next hplaceholder =>
      cases hwrite
      have hvalue := (redactValue_eq_or envVar stored).resolve_right hplaceholder
      dsimp only
      rw [hvalue]
      exact moduleGroups_value hvalues hstored
  | _ => cases hw

/-! ## The parsed list -/

theorem getD_nilIfEmpty {V : Type} (m : StrMap V) : (nilIfEmpty m).getD ∅ = m := by
  rw [nilIfEmpty]
  split
  next hempty => exact (ExtTreeMap.isEmpty_iff.mp hempty).symm
  next => rfl

/-- What is read back writes the same programs. -/
theorem programWrites_wire (r : Resource) : programWrites call r.wire = programWrites call r := by
  obtain ⟨name, spec⟩ := r
  cases spec with
  | plc spec =>
    change ((nilIfEmpty (spec.programs.getD ∅)).getD ∅).toList.map _ = _
    rw [getD_nilIfEmpty]
    rfl
  | _ => rfl

/-- The parsed resources are written as those that were serialised. -/
theorem Written.of_wire {b b' : Bus} {resources : List Resource}
    (h : Written call b (resources.map Resource.wire) b') : Written call b resources b' := by
  have hspec : ∀ {α : Type} {f : Resource → List α}, (∀ r, f r.wire = f r) →
      (resources.map Resource.wire).flatMap f = resources.flatMap f := by
    intro α f hf
    rw [List.flatMap_map]
    exact congrArg (List.flatMap · resources) (funext hf)
  refine { h with
    gatewayConfig := h.gatewayConfig.trans (congrArg _ (hspec ?_))
    desiredServices := h.desiredServices.trans (congrArg _ (hspec ?_))
    serviceEnabled := h.serviceEnabled.trans (congrArg _ (hspec ?_))
    tentacleConfig := h.tentacleConfig.trans (congrArg _ (hspec ?_))
    plcConfig := h.plcConfig.trans (congrArg _ (hspec ?_))
    plcPrograms := h.plcPrograms.trans (congrArg _ (hspec programWrites_wire)) }
  all_goals
    rintro ⟨name, spec⟩
    cases spec <;> rfl

/-- A missing map of programs is checked less than an empty one. -/
theorem issuesOf_wire {r : Resource} (h : issuesOf r = []) : issuesOf r.wire = [] := by
  obtain ⟨name, spec⟩ := r
  cases spec with
  | plc spec =>
    change validatePlc name spec.wire = []
    change validatePlc name spec = [] at h
    simp only [validatePlc, List.append_eq_nil_iff] at h ⊢
    obtain ⟨⟨⟨hname, hvariables⟩, htasks⟩, hdevices⟩ := h
    refine ⟨⟨⟨hname, hvariables⟩, ?_⟩, hdevices⟩
    rw [entryIssues_eq_nil_iff] at htasks ⊢
    intro taskID task htask
    obtain ⟨hprogram, hrate⟩ := List.append_eq_nil_iff.mp (htasks taskID task htask)
    refine List.append_eq_nil_iff.mpr ⟨?_, hrate⟩
    split at hprogram
    next => cases hprogram
    next href =>
      rw [if_neg href]
      cases hprograms : spec.programs with
      | none =>
        rw [PlcSpec.wire, hprograms]
        rfl
      | some programs =>
        rw [hprograms] at hprogram
        rw [PlcSpec.wire, hprograms, Option.getD_some, nilIfEmpty]
        split
        next => rfl
        next hsome =>
          split at hsome
          next => cases hsome
          next =>
            cases hsome
            exact hprogram
  | _ => exact h

theorem validate_wire {resources : List Resource} (h : validate resources = []) :
    validate (resources.map Resource.wire) = [] := by
  rw [validate_eq_nil_iff] at h ⊢
  intro r hr
  obtain ⟨r', hr', rfl⟩ := List.mem_map.mp hr
  exact issuesOf_wire (h r' hr')

/-! ## The round trip -/

/-- The state after the export was serialised, parsed and applied, when it was parsed. -/
def roundTrip (yaml : Yaml) (order : KeyOrder) (call : Call) (b : Bus) : Except ParseError Bus :=
  (parse yaml (serialize yaml (exportResources order [] b))).map fun resources =>
    (apply call resources b).1

theorem roundTrip_eq (yaml : Yaml) (h : validate (exportResources order [] b) = []) :
    roundTrip yaml order call b =
      .ok (applyLoop call ((exportResources order [] b).map Resource.wire) b {}).1 := by
  rw [roundTrip, parse_serialize, Except.map, apply, validate_wire h]

/-- On a restorable state an apply of part of the export changes nothing. -/
theorem sameConfig_of_written (hb : Restorable b) {done rest : List Resource} {b' : Bus}
    (hdone : exportResources order [] b = done ++ rest) (h : Written call b done b') :
    SameConfig b b' := by
  have hmem : ∀ {α : Type} {f : Resource → List α} {w : α}, w ∈ done.flatMap f →
      w ∈ (exportResources order [] b).flatMap f := by
    intro α f w hw
    rw [hdone, List.flatMap_append]
    exact List.mem_append_left _ hw
  constructor
  · rw [h.gatewayConfig]
    apply sameBucket_of_restores (fun w hw => (mem_gatewayWrites w).mp (hmem hw))
    intro key kv _ hkv
    exact (unstamped_restoredGateway call key kv).mpr (hb.gateways key kv hkv)
  · rw [h.desiredServices]
    apply sameBucket_of_restores (fun w hw => (mem_serviceWrites w).mp (hmem hw))
    intro key kv _ hkv
    rw [← hb.services key kv hkv]
    rfl
  · rw [h.serviceEnabled]
    apply sameBucket_of_restores (fun w hw => (mem_enabledWrites w).mp (hmem hw))
    intro key kv hservice hkv
    rw [← hb.enabled key kv hservice hkv]
    rfl
  · rw [h.tentacleConfig]
    have hsame : (writeAll b.tentacleConfig (done.flatMap configWrites)).map (fun _ v => v) =
        b.tentacleConfig.map fun _ v => v := by
      apply map_writeAll_of_same
      intro w hw
      rw [getElem?_of_mem_configWrites (hmem hw), Option.map_some]
    rwa [ExtTreeMap.map_id, ExtTreeMap.map_id] at hsame
  · rw [h.plcConfig]
    apply sameBucket_of_restores (fun w hw => (mem_plcWrites w).mp (hmem hw))
    intro key kv _ hkv
    exact (unstamped_restoredPlc call key kv).mpr (hb.plcs key kv hkv)
  · rw [h.plcPrograms]
    apply sameBucket_of_restores (fun w hw => (mem_programWrites w).mp (hmem hw))
    intro key kv hreferenced hkv
    rw [← hb.programs key kv hreferenced hkv]
    rfl

/-- A state that an apply of its export does not change is restorable. -/
theorem restorable_of_written {b' : Bus} (h : Written call b (exportResources order [] b) b')
    (hsame : SameConfig b b') : Restorable b where
  gateways key kv hkv := by
    have hgateways := hsame.gatewayConfig
    rw [h.gatewayConfig] at hgateways
    exact (unstamped_restoredGateway call key kv).mp
      (eq_of_sameBucket mem_gatewayWrites hgateways key kv trivial hkv)
  services key kv hkv := by
    have hservices := hsame.desiredServices
    rw [h.desiredServices] at hservices
    exact (congrArg DesiredServiceKV.moduleID
      (eq_of_sameBucket mem_serviceWrites hservices key kv trivial hkv)).symm
  enabled key kv hservice hkv := by
    have henabled := hsame.serviceEnabled
    rw [h.serviceEnabled] at henabled
    exact (congrArg ServiceEnabledKV.moduleID
      (eq_of_sameBucket mem_enabledWrites henabled key kv hservice hkv)).symm
  plcs key kv hkv := by
    have hplcs := hsame.plcConfig
    rw [h.plcConfig] at hplcs
    exact (unstamped_restoredPlc call key kv).mp
      (eq_of_sameBucket mem_plcWrites hplcs key kv trivial hkv)
  programs key kv hreferenced hkv := by
    have hprograms := hsame.plcPrograms
    rw [h.plcPrograms] at hprograms
    exact (congrArg PlcProgramKV.name
      (eq_of_sameBucket mem_programWrites hprograms key kv hreferenced hkv)).symm

/-- A call whose commands all succeed. -/
def quietCall : Call where
  source := "gitops"
  now := 0
  commandError _ := none

/-- Without a failing write the apply goes to its end. -/
theorem applyLoop_quiet (resources : List Resource) (b : Bus) (result : ApplyResult) :
    (applyLoop quietCall resources b result).2.2 = none := by
  induction resources generalizing b result with
  | nil => rfl
  | cons r resources ih =>
    have hok : ∃ s, applyResource quietCall b r = .ok s := by
      obtain ⟨name, spec⟩ := r
      cases spec <;> exact ⟨_, rfl⟩
    obtain ⟨s, hs⟩ := hok
    rw [applyLoop, hs]
    exact ih s.1 _

/-- A state that comes back from export and apply is restorable. -/
theorem restorable_of_roundTrip {yaml : Yaml} {b' : Bus}
    (h : validate (exportResources order [] b) = [])
    (hb' : roundTrip yaml order quietCall b = .ok b') (hsame : SameConfig b b') :
    Restorable b := by
  rw [roundTrip_eq _ h, Except.ok.injEq] at hb'
  obtain ⟨done, rest, hdone, hwritten, hrest⟩ := @applyLoop_written quietCall
    ((exportResources order [] b).map Resource.wire) b {}
  rw [hrest (applyLoop_quiet _ _ _), List.append_nil] at hdone
  rw [← hdone, hb'] at hwritten
  exact restorable_of_written hwritten.of_wire hsame

/-- An export that validates, serialised, parsed and applied again, leaves every
configuration bucket as it was exactly when all that is exported can be restored. -/
theorem roundTrip_sameConfig_iff (h : validate (exportResources order [] b) = []) :
    (∀ yaml call, ∃ b', roundTrip yaml order call b = .ok b' ∧ SameConfig b b') ↔
      Restorable b := by
  constructor
  · intro hall
    obtain ⟨b', hb', hsame⟩ := hall .tree quietCall
    exact restorable_of_roundTrip h hb' hsame
  · intro hb yaml call
    refine ⟨_, roundTrip_eq yaml h, ?_⟩
    obtain ⟨done, rest, hdone, hwritten, -⟩ := @applyLoop_written call
      ((exportResources order [] b).map Resource.wire) b {}
    obtain ⟨done', rest', hexport, rfl, rfl⟩ := List.map_eq_append_iff.mp hdone
    exact sameConfig_of_written hb hexport hwritten.of_wire

theorem validate_snmpBus (community authPassword : String) :
    validate (exportResources order [] (snmpBus community authPassword)) = [] := by
  rw [validate_eq_nil_iff]
  intro r hr
  cases mem_exportResources.mp hr with
  | gateway hkv =>
    obtain ⟨rfl, rfl⟩ := eq_snmpGateway_of_record _ _ _ _ hkv
    rfl
  | moduleConfig hvalues =>
    rw [moduleGroups, groupModules, snmpBus] at hvalues
    cases hvalues
  | service hkv => cases hkv
  | nftables hrunning => cases hrunning
  | plc hkv => cases hkv
  | network hrunning => cases hrunning

theorem noPassword_snmpDevice (community : String) : (snmpDevice community "").NoPassword := by
  rintro auth ⟨⟩
  exact ⟨rfl, rfl⟩

/-- The gateway of the example is restorable exactly if its password is empty. -/
theorem restorable_snmpGateway_iff (community authPassword : String) :
    (snmpGateway community authPassword).Restorable "gateway" ↔ authPassword = "" := by
  constructor
  · intro h
    obtain ⟨devices, ⟨⟩, hdevices⟩ := h.devices
    exact (hdevices "agent" _ (getElem?_insert_self ..) _ rfl).1
  · rintro rfl
    refine ⟨rfl, ⟨_, rfl, ?_⟩, nofun⟩
    intro devID dev hdev
    rw [getElem?_insert] at hdev
    split at hdev
    next =>
      cases hdev
      exact noPassword_snmpDevice community
    next =>
      rw [ExtTreeMap.getElem?_empty] at hdev
      cases hdev

theorem restorable_snmpBus_iff (community authPassword : String) :
    Restorable (snmpBus community authPassword) ↔ authPassword = "" := by
  rw [← restorable_snmpGateway_iff community]
  constructor
  · intro h
    exact h.gateways "gateway" _ (record?_snmpBus ..)
  · intro h
    constructor
    case gateways =>
      intro key kv hkv
      obtain ⟨rfl, rfl⟩ := eq_snmpGateway_of_record _ _ _ _ hkv
      exact h
    case programs =>
      intro key kv _ hkv
      cases hkv
    all_goals exact nofun

/-- Without a password all comes back. -/
theorem roundTrip_snmpBus :
    validate (exportResources .sorted [] (snmpBus "public" "")) = [] ∧
      ∀ yaml call, ∃ b', roundTrip yaml .sorted call (snmpBus "public" "") = .ok b' ∧
        SameConfig (snmpBus "public" "") b' :=
  ⟨validate_snmpBus .., (roundTrip_sameConfig_iff (validate_snmpBus ..)).mpr
    ((restorable_snmpBus_iff ..).mpr rfl)⟩

/-- A password is lost: the export has none, and the apply writes the device without one. -/
theorem roundTrip_snmpBus_password :
    validate (exportResources .sorted [] (snmpBus "public" "one")) = [] ∧
      ¬∃ b', roundTrip .tree .sorted quietCall (snmpBus "public" "one") = .ok b' ∧
        SameConfig (snmpBus "public" "one") b' := by
  refine ⟨validate_snmpBus .., ?_⟩
  rintro ⟨b', hb', hsame⟩
  have hrestorable := restorable_of_roundTrip (validate_snmpBus ..) hb' hsame
  exact absurd ((restorable_snmpBus_iff ..).mp hrestorable) (by decide)

end Manifest
