import Tentacle.ManifestRoundTrip
import Tentacle.ReadModifyWrite

/-!
# The gateway configuration in the API

Every handler reads the configuration of a gateway, changes it and puts it back. Reading a
gateway is one of them: it adds devices for the network interfaces and for the status of the
gateway and MQTT modules. The validator of manifests knows none of their protocols, and
nothing orders two handlers that are between their read and their write.
-/

namespace GatewayApi

open JsonCodec Manifest Std

/-! ## The parts of a configuration -/

def ensureMaps (cfg : GatewayConfigKV) : GatewayConfigKV :=
  { cfg with
    devices := some (cfg.devices.getD ∅)
    variableConfigs := some (cfg.variableConfigs.getD ∅) }

def newConfig (gatewayID : String) : GatewayConfigKV where
  gatewayID := gatewayID
  devices := some ∅
  variableConfigs := some ∅
  udtTemplates := ∅
  udtVariables := ∅
  updatedAt := 0

/-- The configuration with other devices, and so on for the variables. -/
def withDevices (cfg : GatewayConfigKV)
    (f : StrMap GatewayDeviceConfig → StrMap GatewayDeviceConfig) : GatewayConfigKV :=
  { cfg with devices := some (f (cfg.devices.getD ∅)) }

def withVariables (cfg : GatewayConfigKV)
    (f : StrMap GatewayVariableConfig → StrMap GatewayVariableConfig) : GatewayConfigKV :=
  { cfg with variableConfigs := some (f (cfg.variableConfigs.getD ∅)) }

def removeOrphanedTemplates (cfg : GatewayConfigKV) : GatewayConfigKV :=
  { cfg with udtTemplates := cfg.udtTemplates.filter fun name _ =>
      cfg.udtVariables.toList.any fun e => e.2.templateName = name }

/-- A loop that deletes entries, and whether it deleted any. -/
def deleteWhere {V : Type} (m : StrMap V) (p : String → V → Bool) : StrMap V × Bool :=
  (m.filter fun k v => !p k v, m.toList.any fun e => p e.1 e.2)

/-! ## Auto-sync -/

/-- What a module answers to a browse request: the network interfaces, or the status
variables of the gateway or MQTT module. -/
inductive Sync where
  | network (instances : List String)
  | status (moduleType : String) (names : List String)
  deriving DecidableEq, Repr

/-- The ID of the device that a sync manages, which is also its protocol. -/
def Sync.device : Sync → String
  | .network _ => "network"
  | .status moduleType _ => moduleType

def Sync.names : Sync → List String
  | .network instances => instances
  | .status _ names => names

def ensureDevice (id : String) (s : GatewayConfigKV × Bool) : GatewayConfigKV × Bool :=
  match (s.1.devices.getD ∅)[id]? with
  | none => (withDevices s.1 (·.insert id { protocol := id, autoManaged := true }), true)
  | some dev =>
    if dev.autoManaged then s
    else (withDevices s.1 (·.insert id { dev with autoManaged := true }), true)

def memberTypes : List (String × String) := [
  ("operstate", "string"), ("carrier", "boolean"), ("speed", "number"), ("mtu", "number"),
  ("mac", "string"), ("rxBytes", "number"), ("txBytes", "number"), ("rxPackets", "number"),
  ("txPackets", "number"), ("rxErrors", "number"), ("txErrors", "number"),
  ("rxDropped", "number"), ("txDropped", "number")]

def networkTemplate : GatewayUdtTemplateConfig where
  name := "NetworkInterface"
  version := "1.0"
  members := some (memberTypes.map fun e => { name := e.1, datatype := e.2 })

def networkVariable (name : String) : GatewayUdtVariableConfig where
  id := name
  deviceID := "network"
  tag := name
  templateName := "NetworkInterface"
  memberTags := some (.ofList (memberTypes.map fun e => (e.1, name ++ "_" ++ e.1)))

/-- The devices of an earlier format, one for each interface. -/
def removeOldDevices (s : GatewayConfigKV × Bool) : GatewayConfigKV × Bool :=
  let kept := deleteWhere (s.1.devices.getD ∅) fun id dev => dev.protocol = "network" ∧ id ≠ "network"
  (withDevices s.1 fun _ => kept.1, s.2 || kept.2)

def ensureTemplate (s : GatewayConfigKV × Bool) : GatewayConfigKV × Bool :=
  if s.1.udtTemplates[networkTemplate.name]?.isSome then s
  else ({ s.1 with
    udtTemplates := s.1.udtTemplates.insert networkTemplate.name networkTemplate }, true)

def removeInterfaces (p : String → GatewayUdtVariableConfig → Bool) (s : GatewayConfigKV × Bool) :
    GatewayConfigKV × Bool :=
  let kept := deleteWhere s.1.udtVariables p
  ({ s.1 with udtVariables := kept.1 }, s.2 || kept.2)

/-- One round of the loop over the interfaces. -/
def addInterface (s : GatewayConfigKV × Bool) (name : String) : GatewayConfigKV × Bool :=
  match s.1.udtVariables[name]? with
  | some existing =>
    if existing.deviceID = "network" then s
    else ({ s.1 with
      udtVariables := s.1.udtVariables.insert name { existing with deviceID := "network" } }, true)
  | none =>
    ({ s.1 with udtVariables := s.1.udtVariables.insert name (networkVariable name) }, true)

def syncNetworkInterfaces (instances : List String) (cfg : GatewayConfigKV) :
    GatewayConfigKV × Bool :=
  let s := ensureTemplate (removeOldDevices (ensureDevice "network" (ensureMaps cfg, false)))
  let s := removeInterfaces (fun id uv => uv.deviceID = "network" ∧
    uv.templateName = networkTemplate.name ∧ id ∉ instances) s
  let s := removeInterfaces (fun _ uv => uv.templateName = networkTemplate.name ∧
    uv.deviceID ≠ "network") s
  instances.foldl addInterface s

/-- The browse cache that the source also fills is kept elsewhere. -/
def syncModuleStatus (moduleType : String) (names : List String) (cfg : GatewayConfigKV) :
    GatewayConfigKV × Bool :=
  let s := ensureDevice moduleType (ensureMaps cfg, false)
  let kept := deleteWhere (s.1.variableConfigs.getD ∅) fun _ v =>
    v.deviceID = moduleType ∧ v.tag ∉ names
  (withVariables s.1 fun _ => kept.1, s.2 || kept.2)

/-- One of the syncs; an empty answer changes nothing. -/
def Sync.run (cfg : GatewayConfigKV) (sync : Sync) : GatewayConfigKV × Bool :=
  if sync.names = [] then (cfg, false)
  else
    match sync with
    | .network instances => syncNetworkInterfaces instances cfg
    | .status moduleType names => syncModuleStatus moduleType names cfg

def runSyncs (cfg : GatewayConfigKV) (syncs : List Sync) : GatewayConfigKV × Bool :=
  syncs.foldl (fun s sync => ((sync.run s.1).1, s.2 || (sync.run s.1).2)) (cfg, false)

/-! ## Handlers -/

/-- The body of the two requests that take over what a browse has found. -/
structure BrowseBody where
  atomicVariables : List GatewayVariableConfig := []
  udtTemplates : List GatewayUdtTemplateConfig := []
  udtVariables : List GatewayUdtVariableConfig := []

def addBrowse (cfg : GatewayConfigKV) (body : BrowseBody) : GatewayConfigKV :=
  { withVariables cfg (writeAll · (body.atomicVariables.map fun v => (v.id, v))) with
    udtTemplates := writeAll cfg.udtTemplates (body.udtTemplates.map fun t => (t.name, t))
    udtVariables := writeAll cfg.udtVariables (body.udtVariables.map fun uv => (uv.id, uv)) }

/-- The configuration without the variables of a device. -/
def removeDeviceVariables (cfg : GatewayConfigKV) (deviceID : String) : GatewayConfigKV :=
  { withVariables cfg (·.filter fun _ v => v.deviceID ≠ deviceID) with
    udtVariables := cfg.udtVariables.filter fun _ uv => uv.deviceID ≠ deviceID }

/-- The first member with the name gets the deadband. -/
def setMemberDeadband (members : List GatewayUdtTemplateMemberConfig) (name : String)
    (deadband : Option DeadBandConfig) : List GatewayUdtTemplateMemberConfig :=
  match members with
  | [] => []
  | m :: members =>
    if m.name = name then { m with defaultDeadband := deadband } :: members
    else m :: setMemberDeadband members name deadband

def updateTemplate (updates : StrMap (Option DeadBandConfig)) (t : GatewayUdtTemplateConfig) :
    GatewayUdtTemplateConfig :=
  { t with members := t.members.map fun members =>
      updates.toList.foldl (fun members e => setMemberDeadband members e.1 e.2) members }

/-- One round of the loop over the instance updates. -/
def updateInstance (udts : StrMap GatewayUdtVariableConfig)
    (e : String × StrMap DeadBandOverride) : StrMap GatewayUdtVariableConfig :=
  match udts[e.1]? with
  | none => udts
  | some uv => udts.insert e.1 { uv with memberDeadbands := e.2 }

/-- A request with a body that could be read. A `GET` comes with the answers of the modules
that are running, in the order in which the three goroutines take effect. -/
inductive Operation where
  | getGateway (syncs : List Sync)
  | setDevice (deviceID : String) (device : GatewayDeviceConfig)
  | deleteDevice (deviceID : String)
  | setTemplateOverrides (deviceID : String) (overrides : StrMap String)
  | setVariable (variableID : String) (v : GatewayVariableConfig)
  | setVariables (vars : List GatewayVariableConfig)
  | deleteVariable (variableID : String)
  | deleteVariables (variableIDs : List String)
  | deleteUdtVariable (udtVariableID : String)
  | deleteUdtVariables (udtVariableIDs : List String)
  | syncDeviceVariables (deviceID : String) (body : BrowseBody)
  | importBrowse (body : BrowseBody)
  | updateUdtConfig (templateName : String) (memberUpdates : StrMap (Option DeadBandConfig))
      (instanceUpdates : StrMap (StrMap DeadBandOverride))

structure Request where
  gatewayID : String
  now : Int
  op : Operation

/-- What a handler makes of the configuration that it has read, if it puts one back. -/
def Operation.change (gatewayID : String) (read : Option GatewayConfigKV) :
    Operation → Option GatewayConfigKV
  | .getGateway syncs =>
    match read with
    | none => none
    | some cfg => if (runSyncs cfg syncs).2 then some (runSyncs cfg syncs).1 else none
  | .setDevice deviceID device =>
    if deviceID = "" then none
    else some (withDevices (ensureMaps (read.getD (newConfig gatewayID))) (·.insert deviceID device))
  | .deleteDevice deviceID => read.map fun cfg =>
    removeOrphanedTemplates
      (removeDeviceVariables (withDevices (ensureMaps cfg) (·.erase deviceID)) deviceID)
  | .setTemplateOverrides deviceID overrides => do
    let cfg := ensureMaps (← read)
    let dev ← (cfg.devices.getD ∅)[deviceID]?
    some (withDevices cfg (·.insert deviceID { dev with templateNameOverrides := overrides }))
  | .setVariable variableID v => read.map fun cfg =>
    withVariables (ensureMaps cfg) (·.insert variableID { v with id := variableID })
  | .setVariables vars => read.map fun cfg =>
    withVariables (ensureMaps cfg) (writeAll · (vars.map fun v => (v.id, v)))
  | .deleteVariable variableID => read.map fun cfg =>
    withVariables (ensureMaps cfg) (·.erase variableID)
  | .deleteVariables variableIDs => read.map fun cfg =>
    withVariables (ensureMaps cfg) (variableIDs.foldl (·.erase ·) ·)
  | .deleteUdtVariable udtVariableID => read.map fun cfg =>
    removeOrphanedTemplates { ensureMaps cfg with
      udtVariables := cfg.udtVariables.erase udtVariableID }
  | .deleteUdtVariables udtVariableIDs => read.map fun cfg =>
    removeOrphanedTemplates { ensureMaps cfg with
      udtVariables := udtVariableIDs.foldl (·.erase ·) cfg.udtVariables }
  | .syncDeviceVariables deviceID body =>
    let cfg := ensureMaps (read.getD (newConfig gatewayID))
    some (removeOrphanedTemplates (addBrowse (removeDeviceVariables cfg deviceID) body))
  | .importBrowse body => some (addBrowse (ensureMaps (read.getD (newConfig gatewayID))) body)
  | .updateUdtConfig templateName memberUpdates instanceUpdates => read.map fun cfg =>
    { ensureMaps cfg with
      udtTemplates := cfg.udtTemplates.modify templateName (updateTemplate memberUpdates)
      udtVariables := instanceUpdates.toList.foldl updateInstance cfg.udtVariables }

/-- `getGatewayConfig`, and `putGatewayConfig` with what the handler has made. -/
def api : ReadModifyWrite.Access (Bucket GatewayConfigKV) Request (Option GatewayConfigKV) where
  read r bucket := record? bucket r.gatewayID
  change r read := (r.op.change r.gatewayID read).map fun cfg bucket =>
    bucket.insert cfg.gatewayID (some { cfg with updatedAt := r.now })

/-! ## Configurations that validate -/

/-- The references and the protocols of a configuration are in order. -/
structure ValidMaps (devices : StrMap GatewayDeviceConfig) (vars : StrMap GatewayVariableConfig)
    (templates : StrMap GatewayUdtTemplateConfig) (udts : StrMap GatewayUdtVariableConfig) :
    Prop where
  vars : ∀ (id : String) v, vars[id]? = some v → v.deviceID ≠ "" ∧ devices[v.deviceID]?.isSome
  udts : ∀ (id : String) uv, udts[id]? = some uv →
    (uv.deviceID ≠ "" ∧ devices[uv.deviceID]?.isSome) ∧
      uv.templateName ≠ "" ∧ templates[uv.templateName]?.isSome
  devices : ∀ (id : String) dev, devices[id]? = some dev → dev.protocol ∈ validProtocols

def Valid (cfg : GatewayConfigKV) : Prop :=
  ValidMaps (cfg.devices.getD ∅) (cfg.variableConfigs.getD ∅) cfg.udtTemplates cfg.udtVariables

/-- The export of a gateway is accepted when it has a name and its configuration is valid;
the redacted devices have the same protocols. -/
theorem issuesOf_gateway_iff (key : String) (cfg : GatewayConfigKV) :
    issuesOf (redactResource (gatewayResource key cfg)) = [] ↔ key ≠ "" ∧ Valid cfg := by
  have hsome : ∀ id : String, ((cfg.devices.getD ∅).map fun _ dev => dev.redact)[id]?.isSome =
      (cfg.devices.getD ∅)[id]?.isSome := by
    intro id
    rw [ExtTreeMap.getElem?_map, Option.isSome_map]
  simp only [redactResource, gatewayResource, redactSpec, issuesOf, validateGateway,
    List.append_eq_nil_iff, nameIssues_eq_nil_iff, entryIssues_eq_nil_iff,
    referenceIssues_eq_nil_iff, protocolIssues_eq_nil_iff, Option.map_some, Option.getD_some, hsome,
    and_assoc]
  refine and_congr_right fun _ => ?_
  constructor
  · rintro ⟨hvars, hudts, hdevices⟩
    refine ⟨hvars, ?_, ?_⟩
    · intro id uv huv
      obtain ⟨hid, hdevice, htemplate⟩ := hudts id uv huv
      exact ⟨⟨hid, hdevice⟩, htemplate⟩
    · intro id dev hdev
      apply hdevices id dev.redact
      rw [ExtTreeMap.getElem?_map, hdev]
      rfl
  · intro h
    refine ⟨h.vars, ?_, ?_⟩
    · intro id uv huv
      obtain ⟨⟨hid, hdevice⟩, htemplate⟩ := h.udts id uv huv
      exact ⟨hid, hdevice, htemplate⟩
    · intro id dev hdev
      rw [ExtTreeMap.getElem?_map, Option.map_eq_some_iff] at hdev
      obtain ⟨dev', hdev', rfl⟩ := hdev
      exact h.devices id dev' hdev'

/-! ## What keeps a configuration valid -/

section

variable {devices devices' : StrMap GatewayDeviceConfig} {vars vars' : StrMap GatewayVariableConfig}
  {templates templates' : StrMap GatewayUdtTemplateConfig}
  {udts udts' : StrMap GatewayUdtVariableConfig}

/-- No device or template that is referred to goes away, and all else is from before. -/
theorem ValidMaps.extend (h : ValidMaps devices vars templates udts)
    (hdevices : ∀ id : String, devices[id]?.isSome → devices'[id]?.isSome)
    (hprotocols : ∀ (id : String) dev, devices'[id]? = some dev → dev.protocol ∈ validProtocols)
    (htemplates : ∀ name : String, templates[name]?.isSome → templates'[name]?.isSome) :
    ValidMaps devices' vars templates' udts where
  vars id v hv := (h.vars id v hv).imp_right (hdevices _)
  udts id uv huv := (h.udts id uv huv).imp (.imp_right (hdevices _)) (.imp_right (htemplates _))
  devices := hprotocols

theorem ValidMaps.restrict (h : ValidMaps devices vars templates udts)
    (hvars : ∀ (id : String) v, vars'[id]? = some v → vars[id]? = some v)
    (hudts : ∀ (id : String) uv, udts'[id]? = some uv → udts[id]? = some uv) :
    ValidMaps devices vars' templates udts' where
  vars id v hv := h.vars id v (hvars id v hv)
  udts id uv huv := h.udts id uv (hudts id uv huv)
  devices := h.devices

/-- A device of a known protocol may be added. -/
theorem ValidMaps.insert_device (h : ValidMaps devices vars templates udts) (id : String)
    {dev : GatewayDeviceConfig} (hdev : dev.protocol ∈ validProtocols) :
    ValidMaps (devices.insert id dev) vars templates udts := by
  refine h.extend ?_ ?_ ?_
  · intro id' hid'
    exact isSome_insert_of_isSome hid' id dev
  · intro id' dev' hdev'
    rw [getElem?_insert] at hdev'
    split at hdev'
    next =>
      cases hdev'
      exact hdev
    next => exact h.devices id' dev' hdev'
  · exact fun _ htemplate => htemplate

/-- Without a device and what refers to it. -/
theorem ValidMaps.erase_device (h : ValidMaps devices vars templates udts) (deviceID : String) :
    ValidMaps (devices.erase deviceID) (vars.filter fun _ v => v.deviceID ≠ deviceID) templates
      (udts.filter fun _ uv => uv.deviceID ≠ deviceID) := by
  have hdevice : ∀ id : String, devices[id]?.isSome → id ≠ deviceID →
      (devices.erase deviceID)[id]?.isSome := by
    intro id hid hne
    rwa [getElem?_erase, if_neg hne.symm]
  refine ⟨?_, ?_, ?_⟩
  · intro id v hv
    obtain ⟨hv, hne⟩ := getElem?_filter_eq_some.mp hv
    obtain ⟨hid, hsome⟩ := h.vars id v hv
    exact ⟨hid, hdevice _ hsome (of_decide_eq_true hne)⟩
  · intro id uv huv
    obtain ⟨huv, hne⟩ := getElem?_filter_eq_some.mp huv
    obtain ⟨⟨hid, hsome⟩, htemplate⟩ := h.udts id uv huv
    exact ⟨⟨hid, hdevice _ hsome (of_decide_eq_true hne)⟩, htemplate⟩
  · intro id dev hdev
    rw [getElem?_erase] at hdev
    split at hdev
    next => cases hdev
    next => exact h.devices id dev hdev

/-- A template that some variable refers to is not an orphan. -/
theorem ValidMaps.remove_orphans (h : ValidMaps devices vars templates udts) :
    ValidMaps devices vars
      (templates.filter fun name _ => udts.toList.any fun e => e.2.templateName = name) udts where
  vars := h.vars
  udts id uv huv := by
    obtain ⟨hdevice, hname, htemplate⟩ := h.udts id uv huv
    refine ⟨hdevice, hname, ?_⟩
    obtain ⟨t, ht⟩ := Option.isSome_iff_exists.mp htemplate
    rw [Option.isSome_iff_exists]
    refine ⟨t, getElem?_filter_eq_some.mpr ⟨ht, ?_⟩⟩
    rw [List.any_eq_true]
    exact ⟨(id, uv), ExtTreeMap.mem_toList_iff_getElem?_eq_some.mpr huv, decide_eq_true rfl⟩
  devices := h.devices

end

theorem valid_newConfig (gatewayID : String) : Valid (newConfig gatewayID) where
  vars id v hv := by
    rw [newConfig, Option.getD_some, ExtTreeMap.getElem?_empty] at hv
    cases hv
  udts id uv huv := by
    rw [newConfig, ExtTreeMap.getElem?_empty] at huv
    cases huv
  devices id dev hdev := by
    rw [newConfig, Option.getD_some, ExtTreeMap.getElem?_empty] at hdev
    cases hdev

/-! ### Syncs -/

/-- A configuration that was valid and had the device of the sync, with its devices. -/
structure Synced (device : String) (cfg : GatewayConfigKV) (s : GatewayConfigKV × Bool) : Prop where
  gatewayID : s.1.gatewayID = cfg.gatewayID
  valid : Valid s.1
  device : (s.1.devices.getD ∅)[device]?.isSome
  devices : ∀ id : String, (cfg.devices.getD ∅)[id]?.isSome → (s.1.devices.getD ∅)[id]?.isSome

variable {cfg : GatewayConfigKV} {s : GatewayConfigKV × Bool} {device : String}

/-- A device that is there is not made again, and the config stays valid. -/
theorem synced_ensureDevice (h : Valid cfg) (hdevice : (cfg.devices.getD ∅)[device]?.isSome)
    (changed : Bool) : Synced device cfg (ensureDevice device (ensureMaps cfg, changed)) := by
  obtain ⟨dev, hdev⟩ := Option.isSome_iff_exists.mp hdevice
  have hfind : ((ensureMaps cfg).devices.getD ∅)[device]? = some dev := hdev
  rw [ensureDevice, hfind]
  dsimp only
  split
  next => exact ⟨rfl, h, hdevice, fun _ hid => hid⟩
  next =>
    exact ⟨rfl, h.insert_device device (h.devices device dev hdev),
      isSome_insert_of_isSome hdevice _ _, fun _ hid => isSome_insert_of_isSome hid _ _⟩

theorem Synced.restrict (h : Synced device cfg s) {cfg' : GatewayConfigKV} {changed : Bool}
    (hid : cfg'.gatewayID = s.1.gatewayID) (hdevices : cfg'.devices.getD ∅ = s.1.devices.getD ∅)
    (htemplates : cfg'.udtTemplates = s.1.udtTemplates)
    (hvars : ∀ (id : String) v, (cfg'.variableConfigs.getD ∅)[id]? = some v →
      (s.1.variableConfigs.getD ∅)[id]? = some v)
    (hudts : ∀ (id : String) uv, cfg'.udtVariables[id]? = some uv →
      s.1.udtVariables[id]? = some uv) : Synced device cfg (cfg', changed) := by
  refine ⟨hid.trans h.gatewayID, ?_, ?_, ?_⟩
  · rw [Valid, hdevices, htemplates]
    exact h.valid.restrict hvars hudts
  · rw [hdevices]
    exact h.device
  · rw [hdevices]
    exact h.devices

theorem of_getElem?_deleteWhere {V : Type} {m : StrMap V} {p : String → V → Bool} {id : String}
    {v : V} (h : (deleteWhere m p).1[id]? = some v) : m[id]? = some v :=
  (getElem?_filter_eq_some.mp h).1

theorem Synced.removeInterfaces (h : Synced device cfg s)
    (p : String → GatewayUdtVariableConfig → Bool) :
    Synced device cfg (GatewayApi.removeInterfaces p s) :=
  h.restrict rfl rfl rfl (fun _ _ hv => hv) fun _ _ huv => of_getElem?_deleteWhere huv

/-- No device of a valid configuration has the protocol of an old interface device. -/
theorem Synced.removeOldDevices (h : Synced device cfg s) :
    Synced device cfg (GatewayApi.removeOldDevices s) := by
  have hkept : (deleteWhere (s.1.devices.getD ∅) fun id dev =>
      dev.protocol = "network" ∧ id ≠ "network").1 = s.1.devices.getD ∅ := by
    refine ExtTreeMap.ext_getElem? ?_
    intro id
    apply Option.ext
    intro dev
    rw [deleteWhere, getElem?_filter_eq_some, and_iff_left_iff_imp]
    intro hdev
    have hprotocol := h.valid.devices id dev hdev
    have hne : dev.protocol ≠ "network" := by
      intro heq
      rw [heq] at hprotocol
      revert hprotocol
      decide
    simp [hne]
  rw [GatewayApi.removeOldDevices, hkept]
  exact h.restrict rfl rfl rfl (fun _ _ hv => hv) fun _ _ huv => huv

/-- The template of the interfaces is there once it has been made sure of. -/
theorem Synced.ensureTemplate (h : Synced device cfg s) :
    Synced device cfg (GatewayApi.ensureTemplate s) ∧
      (GatewayApi.ensureTemplate s).1.udtTemplates[networkTemplate.name]?.isSome := by
  rw [GatewayApi.ensureTemplate]
  split
  next hsome => exact ⟨h, hsome⟩
  next =>
    refine ⟨⟨h.gatewayID, ?_, h.device, h.devices⟩, ?_⟩
    · exact h.valid.extend (fun _ hid => hid) h.valid.devices
        fun name hname => isSome_insert_of_isSome hname _ _
    · rw [getElem?_insert_self]
      rfl

/-- An interface is added to a device and a template that exist. -/
theorem Synced.addInterface (h : Synced "network" cfg s)
    (htemplate : s.1.udtTemplates[networkTemplate.name]?.isSome) (name : String) :
    Synced "network" cfg (GatewayApi.addInterface s name) ∧
      (GatewayApi.addInterface s name).1.udtTemplates = s.1.udtTemplates := by
  have hinsert : ∀ uv : GatewayUdtVariableConfig, uv.deviceID = "network" →
      uv.templateName ≠ "" → s.1.udtTemplates[uv.templateName]?.isSome →
      Synced "network" cfg
        ({ s.1 with udtVariables := s.1.udtVariables.insert name uv }, true) := by
    intro uv hdevice hname hsome
    refine ⟨h.gatewayID, ⟨h.valid.vars, ?_, h.valid.devices⟩, h.device, h.devices⟩
    intro id uv' huv'
    dsimp only at huv'
    rw [getElem?_insert] at huv'
    split at huv'
    next =>
      cases huv'
      rw [hdevice]
      exact ⟨⟨by decide, h.device⟩, hname, hsome⟩
    next => exact h.valid.udts id uv' huv'
  rw [GatewayApi.addInterface]
  split
  next existing hexisting =>
    split
    next => exact ⟨h, rfl⟩
    next =>
      obtain ⟨-, hname, hsome⟩ := h.valid.udts name existing hexisting
      exact ⟨hinsert _ rfl hname hsome, rfl⟩
  next => exact ⟨hinsert _ rfl (show networkTemplate.name ≠ "" by decide) htemplate, rfl⟩

/-- All of the interfaces are added, one after the other. -/
theorem Synced.foldl_addInterface (h : Synced "network" cfg s)
    (htemplate : s.1.udtTemplates[networkTemplate.name]?.isSome) (instances : List String) :
    Synced "network" cfg (instances.foldl GatewayApi.addInterface s) := by
  induction instances generalizing s with
  | nil => exact h
  | cons name instances ih =>
    obtain ⟨hadd, htemplates⟩ := h.addInterface htemplate name
    exact ih hadd (by rwa [htemplates])

theorem synced_syncNetworkInterfaces (h : Valid cfg)
    (hdevice : (cfg.devices.getD ∅)["network"]?.isSome) (instances : List String) :
    Synced "network" cfg (syncNetworkInterfaces instances cfg) := by
  obtain ⟨hsynced, htemplate⟩ :=
    (synced_ensureDevice h hdevice false).removeOldDevices.ensureTemplate
  exact ((hsynced.removeInterfaces _).removeInterfaces _).foldl_addInterface htemplate instances

theorem synced_syncModuleStatus (h : Valid cfg) {moduleType : String}
    (hdevice : (cfg.devices.getD ∅)[moduleType]?.isSome) (names : List String) :
    Synced moduleType cfg (syncModuleStatus moduleType names cfg) :=
  (synced_ensureDevice h hdevice false).restrict rfl rfl rfl
    (fun _ _ hv => of_getElem?_deleteWhere hv) fun _ _ huv => huv

/-- A sync whose device is there already keeps the configuration valid, with all devices. -/
theorem Sync.run_valid (h : Valid cfg) (sync : Sync)
    (hdevice : sync.names ≠ [] → (cfg.devices.getD ∅)[sync.device]?.isSome) :
    (sync.run cfg).1.gatewayID = cfg.gatewayID ∧ Valid (sync.run cfg).1 ∧
      ∀ id : String, (cfg.devices.getD ∅)[id]?.isSome →
        ((sync.run cfg).1.devices.getD ∅)[id]?.isSome := by
  unfold Sync.run
  split
  next => exact ⟨rfl, h, fun _ hid => hid⟩
  next hnames =>
    have hdevice := hdevice hnames
    cases sync with
    | network instances =>
      have hsynced := synced_syncNetworkInterfaces h hdevice instances
      exact ⟨hsynced.gatewayID, hsynced.valid, hsynced.devices⟩
    | status moduleType names =>
      have hsynced := synced_syncModuleStatus h hdevice names
      exact ⟨hsynced.gatewayID, hsynced.valid, hsynced.devices⟩

/-- The syncs of a request leave the gateway its name and a valid config. -/
theorem runSyncs_valid (h : Valid cfg) {syncs : List Sync}
    (hdevices : ∀ sync ∈ syncs, sync.names ≠ [] → (cfg.devices.getD ∅)[sync.device]?.isSome) :
    (runSyncs cfg syncs).1.gatewayID = cfg.gatewayID ∧ Valid (runSyncs cfg syncs).1 := by
  rw [runSyncs]
  generalize false = changed
  induction syncs generalizing cfg changed with
  | nil => exact ⟨rfl, h⟩
  | cons sync syncs ih =>
    obtain ⟨hid, hvalid, hkept⟩ := sync.run_valid h (hdevices sync (.head _))
    rw [List.foldl_cons]
    obtain ⟨hid', hvalid'⟩ := ih hvalid
      (fun sync' hsync' hnames => hkept _ (hdevices sync' (.tail _ hsync') hnames)) _
    exact ⟨hid'.trans hid, hvalid'⟩

/-! ### Requests -/

/-- What a browse body brings refers to devices of the configuration, and to templates that
are there or come with it. -/
structure BrowseBody.Refers (cfg : GatewayConfigKV) (body : BrowseBody) : Prop where
  vars : ∀ id v, lastWrite (body.atomicVariables.map fun v => (v.id, v)) id = some v →
    v.deviceID ≠ "" ∧ (cfg.devices.getD ∅)[v.deviceID]?.isSome
  udts : ∀ id uv, lastWrite (body.udtVariables.map fun uv => (uv.id, uv)) id = some uv →
    (uv.deviceID ≠ "" ∧ (cfg.devices.getD ∅)[uv.deviceID]?.isSome) ∧ uv.templateName ≠ "" ∧
      (cfg.udtTemplates[uv.templateName]?.isSome ∨
        ∃ t ∈ body.udtTemplates, t.name = uv.templateName)

/-- The gateway has a name, a device has a protocol that the validator knows, a variable
refers to a device of the configuration that was read, and no device is made by a sync. -/
def Operation.Allowed (gatewayID : String) (read : Option GatewayConfigKV) : Operation → Prop
  | .getGateway syncs => ∀ cfg ∈ read, ∀ sync ∈ syncs, sync.names ≠ [] →
      (cfg.devices.getD ∅)[sync.device]?.isSome
  | .setDevice _ device => gatewayID ≠ "" ∧ device.protocol ∈ validProtocols
  | .setVariable _ v => ∀ cfg ∈ read, v.deviceID ≠ "" ∧ (cfg.devices.getD ∅)[v.deviceID]?.isSome
  | .setVariables vars => ∀ cfg ∈ read, ∀ id v, lastWrite (vars.map fun v => (v.id, v)) id = some v →
      v.deviceID ≠ "" ∧ (cfg.devices.getD ∅)[v.deviceID]?.isSome
  | .syncDeviceVariables _ body => gatewayID ≠ "" ∧ body.Refers (read.getD (newConfig gatewayID))
  | .importBrowse body => gatewayID ≠ "" ∧ body.Refers (read.getD (newConfig gatewayID))
  | _ => True

/-- Variables of known devices may be written; of several under one name the last counts. -/
theorem ValidMaps.write_vars {devices : StrMap GatewayDeviceConfig}
    {vars : StrMap GatewayVariableConfig} {templates : StrMap GatewayUdtTemplateConfig}
    {udts : StrMap GatewayUdtVariableConfig} (h : ValidMaps devices vars templates udts)
    {writes : List (String × GatewayVariableConfig)}
    (hwrites : ∀ id v, lastWrite writes id = some v →
      v.deviceID ≠ "" ∧ devices[v.deviceID]?.isSome) :
    ValidMaps devices (writeAll vars writes) templates udts where
  vars id v hv := by
    rw [getElem?_writeAll] at hv
    cases hlast : lastWrite writes id with
    | none =>
      rw [hlast, Option.none_or] at hv
      exact h.vars id v hv
    | some v' =>
      rw [hlast, Option.some_or] at hv
      cases hv
      exact hwrites id v hlast
  udts := h.udts
  devices := h.devices

/-- A browse result that refers to known devices and templates may be added. -/
theorem valid_addBrowse (h : Valid cfg) {body : BrowseBody} (hbody : body.Refers cfg) :
    Valid (addBrowse cfg body) := by
  have hvars := ValidMaps.write_vars h hbody.vars
  refine ⟨hvars.vars, ?_, h.devices⟩
  have htemplate : ∀ name : String, (cfg.udtTemplates[name]?.isSome ∨
      ∃ t ∈ body.udtTemplates, t.name = name) →
      (addBrowse cfg body).udtTemplates[name]?.isSome := by
    rintro name (hsome | ⟨t, ht, rfl⟩)
    · exact isSome_writeAll_iff.mpr (.inl hsome)
    · exact isSome_writeAll_iff.mpr (.inr ⟨(t.name, t), List.mem_map.mpr ⟨t, ht, rfl⟩, rfl⟩)
  intro id uv huv
  change (writeAll cfg.udtVariables _)[id]? = some uv at huv
  rw [getElem?_writeAll] at huv
  cases hlast : lastWrite (body.udtVariables.map fun uv => (uv.id, uv)) id with
  | none =>
    rw [hlast, Option.none_or] at huv
    obtain ⟨hdevice, hname, hsome⟩ := h.udts id uv huv
    exact ⟨hdevice, hname, htemplate _ (.inl hsome)⟩
  | some uv' =>
    rw [hlast, Option.some_or] at huv
    cases huv
    obtain ⟨hdevice, hname, hsome⟩ := hbody.udts id uv hlast
    exact ⟨hdevice, hname, htemplate _ hsome⟩

theorem valid_removeDeviceVariables (h : Valid cfg) (deviceID : String) :
    Valid (removeDeviceVariables cfg deviceID) :=
  ValidMaps.restrict h (fun _ _ hv => (getElem?_filter_eq_some.mp hv).1)
    fun _ _ huv => (getElem?_filter_eq_some.mp huv).1

/-- What is left after erasures was there before. -/
theorem of_getElem?_foldl_erase {V : Type} {ids : List String} {m : StrMap V} {id : String} {v : V}
    (h : (ids.foldl (·.erase ·) m)[id]? = some v) : m[id]? = some v := by
  induction ids generalizing m with
  | nil => exact h
  | cons id' ids ih =>
    have herase := ih h
    rw [getElem?_erase] at herase
    split at herase
    next => cases herase
    next => exact herase

/-- An instance update changes no reference. -/
theorem updateInstance_refs {udts : StrMap GatewayUdtVariableConfig}
    (updates : List (String × StrMap DeadBandOverride)) {id : String}
    {uv : GatewayUdtVariableConfig} (h : (updates.foldl updateInstance udts)[id]? = some uv) :
    ∃ uv', udts[id]? = some uv' ∧ uv'.deviceID = uv.deviceID ∧
      uv'.templateName = uv.templateName := by
  induction updates generalizing udts with
  | nil => exact ⟨uv, h, rfl, rfl⟩
  | cons e updates ih =>
    obtain ⟨uv', huv', hdevice, htemplate⟩ := ih h
    rw [updateInstance] at huv'
    split at huv'
    next => exact ⟨uv', huv', hdevice, htemplate⟩
    next old hold =>
      rw [getElem?_insert] at huv'
      split at huv'
      next hid =>
        subst hid
        cases huv'
        exact ⟨old, hold, hdevice, htemplate⟩
      next => exact ⟨uv', huv', hdevice, htemplate⟩

/-- A configuration that may be stored under the key. -/
structure Accepted (key : String) (cfg : GatewayConfigKV) : Prop where
  key_ne : key ≠ ""
  gatewayID : cfg.gatewayID = key
  valid : Valid cfg

theorem Accepted.of_valid {key : String} {cfg cfg' : GatewayConfigKV} (h : Accepted key cfg)
    (hid : cfg'.gatewayID = cfg.gatewayID) (hvalid : Valid cfg') : Accepted key cfg' :=
  ⟨h.key_ne, hid.trans h.gatewayID, hvalid⟩

/-- An update of deadbands leaves the templates in place and the references as they are. -/
theorem valid_updateUdt (h : Valid cfg) (templateName : String)
    (memberUpdates : StrMap (Option DeadBandConfig))
    (instanceUpdates : StrMap (StrMap DeadBandOverride)) :
    Valid { ensureMaps cfg with
      udtTemplates := cfg.udtTemplates.modify templateName (updateTemplate memberUpdates)
      udtVariables := instanceUpdates.toList.foldl updateInstance cfg.udtVariables } := by
  have htemplate : ∀ name : String, cfg.udtTemplates[name]?.isSome →
      (cfg.udtTemplates.modify templateName (updateTemplate memberUpdates))[name]?.isSome := by
    intro name hname
    rw [ExtTreeMap.getElem?_modify]
    split
    next heq =>
      rw [Option.isSome_map, LawfulEqCmp.eq_of_compare heq]
      exact hname
    next => exact hname
  refine ⟨h.vars, ?_, h.devices⟩
  intro id uv huv
  obtain ⟨uv', huv', hdevice, hname⟩ := updateInstance_refs _ huv
  obtain ⟨hdev, hne, hsome⟩ := h.udts id uv' huv'
  rw [hdevice] at hdev
  rw [hname] at hne hsome
  exact ⟨hdev, hne, htemplate _ hsome⟩

/-- An allowed request makes an accepted configuration of an accepted one. -/
theorem Operation.change_accepted {gatewayID : String} {read : Option GatewayConfigKV}
    {op : Operation} (hread : ∀ cfg ∈ read, Accepted gatewayID cfg)
    (hallowed : op.Allowed gatewayID read) {cfg' : GatewayConfigKV}
    (h : op.change gatewayID read = some cfg') : Accepted gatewayID cfg' := by
  have hbase : gatewayID ≠ "" → Accepted gatewayID (read.getD (newConfig gatewayID)) := by
    intro hid
    cases read with
    | none => exact ⟨hid, rfl, valid_newConfig gatewayID⟩
    | some cfg => exact hread cfg rfl
  -- most handlers give up when there is nothing to read
  have hmap : ∀ f : GatewayConfigKV → GatewayConfigKV, read.map f = some cfg' →
      (∀ cfg, (f cfg).gatewayID = cfg.gatewayID) → (∀ cfg ∈ read, Valid cfg → Valid (f cfg)) →
      Accepted gatewayID cfg' := by
    intro f hf hid hvalid
    obtain ⟨cfg, hcfg, rfl⟩ := Option.map_eq_some_iff.mp hf
    exact (hread cfg hcfg).of_valid (hid cfg) (hvalid cfg hcfg (hread cfg hcfg).valid)
  cases op with
  | getGateway syncs =>
    cases read with
    | none => cases h
    | some cfg =>
      rw [Operation.change] at h
      split at h
      next =>
        cases h
        obtain ⟨hid, hvalid⟩ := runSyncs_valid (hread cfg rfl).valid (hallowed cfg rfl)
        exact (hread cfg rfl).of_valid hid hvalid
      next => cases h
  | setDevice deviceID device =>
    rw [Operation.change] at h
    split at h
    next => cases h
    next =>
      cases h
      have hbase := hbase hallowed.1
      exact hbase.of_valid rfl (hbase.valid.insert_device deviceID hallowed.2)
  | deleteDevice deviceID =>
    apply hmap _ h (fun _ => rfl)
    intro cfg _ hvalid
    exact (hvalid.erase_device deviceID).remove_orphans
  | setTemplateOverrides deviceID overrides =>
    obtain ⟨cfg, rfl, h⟩ := Option.bind_eq_some_iff.mp h
    obtain ⟨dev, hdev, h⟩ := Option.bind_eq_some_iff.mp h
    cases h
    have hcfg := hread cfg rfl
    exact hcfg.of_valid rfl (hcfg.valid.insert_device deviceID (hcfg.valid.devices _ dev hdev))
  | setVariable variableID v =>
    apply hmap _ h (fun _ => rfl)
    intro cfg hcfg hvalid
    apply @ValidMaps.write_vars _ _ _ _ hvalid [(variableID, { v with id := variableID })]
    intro id v' hv'
    cases List.mem_singleton.mp (mem_of_lastWrite hv')
    exact hallowed cfg hcfg
  | setVariables vars =>
    apply hmap _ h (fun _ => rfl)
    intro cfg hcfg hvalid
    exact hvalid.write_vars (hallowed cfg hcfg)
  | deleteVariable variableID =>
    apply hmap _ h (fun _ => rfl)
    intro cfg _ hvalid
    exact ValidMaps.restrict hvalid
      (fun _ _ hv => @of_getElem?_foldl_erase _ [variableID] _ _ _ hv) fun _ _ huv => huv
  | deleteVariables variableIDs =>
    apply hmap _ h (fun _ => rfl)
    intro cfg _ hvalid
    exact ValidMaps.restrict hvalid (fun _ _ hv => of_getElem?_foldl_erase hv) fun _ _ huv => huv
  | deleteUdtVariable udtVariableID =>
    apply hmap _ h (fun _ => rfl)
    intro cfg _ hvalid
    exact (ValidMaps.restrict hvalid (fun _ _ hv => hv)
      fun _ _ huv => @of_getElem?_foldl_erase _ [udtVariableID] _ _ _ huv).remove_orphans
  | deleteUdtVariables udtVariableIDs =>
    apply hmap _ h (fun _ => rfl)
    intro cfg _ hvalid
    exact (ValidMaps.restrict hvalid (fun _ _ hv => hv)
      fun _ _ huv => of_getElem?_foldl_erase huv).remove_orphans
  | syncDeviceVariables deviceID body =>
    cases h
    have hbase := hbase hallowed.1
    have hkept := @valid_removeDeviceVariables (ensureMaps (read.getD (newConfig gatewayID)))
      hbase.valid deviceID
    refine hbase.of_valid rfl (valid_addBrowse hkept ?_).remove_orphans
    exact ⟨hallowed.2.vars, hallowed.2.udts⟩
  | importBrowse body =>
    cases h
    have hbase := hbase hallowed.1
    refine hbase.of_valid rfl (valid_addBrowse hbase.valid ?_)
    exact ⟨hallowed.2.vars, hallowed.2.udts⟩
  | updateUdtConfig templateName memberUpdates instanceUpdates =>
    apply hmap _ h (fun _ => rfl)
    intro cfg _ hvalid
    exact valid_updateUdt hvalid templateName memberUpdates instanceUpdates

/-! ## Exports of what the API has written -/

abbrev State := ReadModifyWrite.State (Bucket GatewayConfigKV) Request (Option GatewayConfigKV)

abbrev Step := ReadModifyWrite.Step Request

/-- A request that reads is allowed on the configuration that it reads. -/
def Allows (s : State) : Step → Prop
  | .read r => r.op.Allowed r.gatewayID (record? s.store r.gatewayID)
  | .write _ => True

def AllAccepted (bucket : Bucket GatewayConfigKV) : Prop :=
  ∀ key cfg, record? bucket key = some cfg → Accepted key cfg

theorem AllAccepted.validate {b : Bus} (h : AllAccepted b.gatewayConfig) (order : KeyOrder) :
    Manifest.validate (exportResources order ["Gateway"] b) = [] := by
  rw [validate_eq_nil_iff, exportResources_gateway]
  intro r hr
  obtain ⟨r', hr', rfl⟩ := List.mem_map.mp hr
  obtain ⟨key, cfg, hcfg, rfl⟩ := mem_bucketResources.mp hr'
  exact (issuesOf_gateway_iff key cfg).mpr ⟨(h key cfg hcfg).key_ne, (h key cfg hcfg).valid⟩

/-- A config that would be accepted may be put under its own key. -/
theorem AllAccepted.insert {bucket : Bucket GatewayConfigKV} (h : AllAccepted bucket)
    {key : String} {cfg : GatewayConfigKV} (hcfg : Accepted key cfg) :
    AllAccepted (bucket.insert key (some cfg)) := by
  intro key' cfg' hcfg'
  rw [record?, getElem?_insert] at hcfg'
  split at hcfg'
  next hkey =>
    subst hkey
    cases hcfg'
    exact hcfg
  next => exact h key' cfg' hcfg'

/-- What an allowed request reads from accepted configurations. -/
def ReadAccepted (r : Request) (read : Option GatewayConfigKV) : Prop :=
  (∀ cfg ∈ read, Accepted r.gatewayID cfg) ∧ r.op.Allowed r.gatewayID read

/-- However the requests of the API are interleaved, as long as each is allowed on the
configuration that it reads, the validator accepts the export of what they have written. -/
theorem validate_export_of_allowed {schedule : List Step} {t : State}
    (hok : Runs.Meets (ReadModifyWrite.step api) Allows { store := ∅ } schedule)
    (hrun : Runs.run (ReadModifyWrite.step api) { store := ∅ } schedule = some t)
    (order : KeyOrder) (b : Bus) (hb : b.gatewayConfig = t.store) :
    validate (exportResources order ["Gateway"] b) = [] := by
  have haccepted : AllAccepted t.store := by
    refine @ReadModifyWrite.run_keeps _ _ _ api AllAccepted ReadAccepted Allows ?_ ?_ _ _ _ ?_ ?_
      hok hrun
    · intro s r hs hallowed
      exact ⟨fun cfg hcfg => hs r.gatewayID cfg hcfg, hallowed⟩
    · rintro bucket r read f hbucket ⟨hread, hallowed⟩ hf
      obtain ⟨cfg, hcfg, rfl⟩ := Option.map_eq_some_iff.mp hf
      have hchange := Operation.change_accepted hread hallowed hcfg
      dsimp only
      rw [hchange.gatewayID]
      exact hbucket.insert ⟨hchange.key_ne, rfl, hchange.valid⟩
    · intro key cfg hcfg
      cases hcfg
    · intro e he
      cases he
  rw [← hb] at haccepted
  exact haccepted.validate order

/-- A device is set by hand. -/
def setModbus : Request where
  gatewayID := "gateway"
  now := 1
  op := .setDevice "plc" { protocol := "modbus", host := "10.0.0.5" }

/-- The gateway is read while the network module runs. -/
def getWithNetwork : Request where
  gatewayID := "gateway"
  now := 2
  op := .getGateway [.network ["eth0"]]

theorem validate_export_setModbus : ∃ t,
    Runs.Meets (ReadModifyWrite.step api) Allows { store := ∅ } [.read setModbus, .write 0] ∧
    Runs.run (ReadModifyWrite.step api) { store := ∅ } [.read setModbus, .write 0] = some t ∧
    ∀ order b, b.gatewayConfig = t.store → validate (exportResources order ["Gateway"] b) = [] := by
  have hok : Runs.Meets (ReadModifyWrite.step api) Allows { store := ∅ }
      [.read setModbus, .write 0] := by
    refine ⟨⟨by decide, by decide⟩, ?_⟩
    intro t _
    exact ⟨trivial, fun _ _ => trivial⟩
  exact ⟨_, hok, rfl, validate_export_of_allowed hok rfl⟩

/-- The read has made a device that the validator does not accept. -/
theorem not_validate_export_getWithNetwork : ∃ t,
    Runs.run (ReadModifyWrite.step api) { store := ∅ }
      [.read setModbus, .write 0, .read getWithNetwork, .write 0] = some t ∧
    validate (exportResources .sorted ["Gateway"] { gatewayConfig := t.store }) ≠ [] := by
  refine ⟨_, rfl, ?_⟩
  decide +kernel

/-! ## Requests one after another -/

/-- A request that writes finds the configuration of its gateway as it has read it. -/
def Undisturbed (s : State) : Step → Prop
  | .read _ => True
  | .write i => ∀ r read, s.pending[i]? = some (r, read) → record? s.store r.gatewayID = read

/-- Requests of which each writes before the configuration that it has read is changed leave
what they leave when they run one after another, in some order. -/
theorem serial_of_undisturbed {store : Bucket GatewayConfigKV} {schedule : List Step} {t : State}
    (hok : Runs.Meets (ReadModifyWrite.step api) Undisturbed { store := store } schedule)
    (hrun : Runs.run (ReadModifyWrite.step api) { store := store } schedule = some t)
    (hdone : t.pending = []) :
    ∃ order : List Request, order.Perm (ReadModifyWrite.requests schedule) ∧
      t.store = order.foldl (ReadModifyWrite.serve api) store := by
  have hfresh : Undisturbed = ReadModifyWrite.Fresh api := by
    funext s a
    cases a <;> rfl
  rw [hfresh] at hok
  exact ReadModifyWrite.run_serial api hrun hok hdone

def setLevel : Request where
  gatewayID := "gateway"
  now := 3
  op := .setVariable "level" { deviceID := "plc", datatype := "number" }

/-- A gateway with one device. -/
def oneDevice : Bucket GatewayConfigKV :=
  ReadModifyWrite.serve api ∅ setModbus

theorem serial_setLevel : ∃ t,
    Runs.Meets (ReadModifyWrite.step api) Undisturbed { store := oneDevice }
      [.read getWithNetwork, .write 0, .read setLevel, .write 0] ∧
    Runs.run (ReadModifyWrite.step api) { store := oneDevice }
      [.read getWithNetwork, .write 0, .read setLevel, .write 0] = some t ∧ t.pending = [] ∧
    ∃ order : List Request, order.Perm [getWithNetwork, setLevel] ∧
      t.store = order.foldl (ReadModifyWrite.serve api) oneDevice := by
  have hok : Runs.Meets (ReadModifyWrite.step api) Undisturbed { store := oneDevice }
      [.read getWithNetwork, .write 0, .read setLevel, .write 0] := by
    refine ⟨trivial, ?_⟩
    rintro _ ⟨⟩
    refine ⟨?_, ?_⟩
    · rintro r read ⟨⟩
      rfl
    rintro _ ⟨⟩
    refine ⟨trivial, ?_⟩
    rintro _ ⟨⟩
    refine ⟨?_, fun _ _ => trivial⟩
    rintro r read ⟨⟩
    rfl
  exact ⟨_, hok, rfl, rfl, serial_of_undisturbed hok rfl rfl⟩

/-- Whether a variable is in the configuration of the gateway. -/
def hasVariable (bucket : Bucket GatewayConfigKV) (variableID : String) : Bool :=
  ((record? bucket "gateway").bind fun cfg => (cfg.variableConfigs.getD ∅)[variableID]?).isSome

/-- The gateway is read, a variable is set and stored, and the read writes back what it has
found before: the variable is lost, and no order of the two requests loses it. -/
theorem not_serial_getWithNetwork : ∃ t,
    Runs.run (ReadModifyWrite.step api) { store := oneDevice }
      [.read getWithNetwork, .read setLevel, .write 1, .write 0] = some t ∧ t.pending = [] ∧
    ¬∃ order : List Request, order.Perm [getWithNetwork, setLevel] ∧
      t.store = order.foldl (ReadModifyWrite.serve api) oneDevice := by
  refine ⟨_, rfl, rfl, ?_⟩
  rintro ⟨order, hperm, hstore⟩
  have horder := ReadModifyWrite.eq_or_eq_of_perm_pair hperm
  have hlevel := congrArg (hasVariable · "level") hstore
  obtain rfl | rfl := horder
  · revert hlevel
    decide +kernel
  · revert hlevel
    decide +kernel

end GatewayApi
