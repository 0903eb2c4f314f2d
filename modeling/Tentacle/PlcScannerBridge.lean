import Tentacle.ScannerRecords

/-!
# The scanner bridge of the soft PLC

`subscribe` writes one record for each device that an input variable of the config takes its
value from. It never deletes one, so that the records of a run are those of all its configs.
-/

namespace PlcScannerBridge

open GoValues Manifest ScannerRecords Subjects
open ModbusScanner (ModbusTagConfig)
open ModbusWrites (functionCodeToString)

/-- The part of the config of a PLC that the bridge reads. -/
structure PlcConfigKV where
  devices : GoMap String PlcDeviceConfigKV := ∅
  variableConfigs : GoMap String PlcVariableConfigKV := ∅

/-- What the pass over the variables builds: the variables of each scanner subject, and the
requests by protocol and device. -/
structure Requests where
  tagIndex : GoMap String (List String) := ∅
  eipRequests : GoMap String EthernetIPSubscribeRequest := ∅
  modbusRequests : GoMap String ModbusScannerSubscribeRequest := ∅
  opcuaRequests : GoMap String OpcUASubscribeRequest := ∅
  snmpRequests : GoMap String SNMPSubscribeRequest := ∅

/-- The request under the key, made if there is none, with one more item. -/
def addItem {R : Type} (requests : GoMap String R) (dk : String) (fresh : R) (add : R → R) :
    GoMap String R :=
  requests.insert dk (add ((requests.lookup dk).getD fresh))

def subscriberKey (plcID : String) : String := "plc-" ++ plcID

section Pass

variable (plcID : String) (src : PlcVariableSourceKV) (device : PlcDeviceConfigKV)

def deviceKey : String := src.protocol ++ ":" ++ src.deviceID

def freshEthernetIP : EthernetIPSubscribeRequest where
  subscriberID := subscriberKey plcID
  deviceID := src.deviceID
  host := device.host
  port := device.port.getD 44818
  slot := device.slot.getD 0
  scanRate := device.scanRate.getD 1000

def addEthernetIP (req : EthernetIPSubscribeRequest) : EthernetIPSubscribeRequest :=
  { req with
    tags := req.tags ++ [src.tag]
    cipTypes := if src.cipType = "" then req.cipTypes else req.cipTypes.insert src.tag src.cipType }

def freshModbus : ModbusScannerSubscribeRequest where
  subscriberID := subscriberKey plcID
  deviceID := src.deviceID
  host := device.host
  port := device.port.getD 502
  unitID := device.unitID.getD 1
  scanRate := device.scanRate.getD 1000

def modbusTag : ModbusTagConfig where
  id := src.tag
  address := src.address.getD 0
  functionCode := (src.functionCode.map functionCodeToString).getD "holding"
  datatype := if src.modbusDatatype = "" then "uint16" else src.modbusDatatype
  byteOrder := src.byteOrder

def addModbus (req : ModbusScannerSubscribeRequest) : ModbusScannerSubscribeRequest :=
  { req with tags := req.tags ++ [modbusTag src] }

def freshOpcUA : OpcUASubscribeRequest where
  subscriberID := subscriberKey plcID
  deviceID := src.deviceID
  endpointURL := device.endpointURL
  scanRate := device.scanRate.getD 1000

def addOpcUA (req : OpcUASubscribeRequest) : OpcUASubscribeRequest :=
  { req with nodeIDs := req.nodeIDs ++ [src.tag] }

def freshSNMP : SNMPSubscribeRequest where
  subscriberID := subscriberKey plcID
  deviceID := src.deviceID
  host := device.host
  port := device.port.getD 161
  version := device.version
  community := device.community
  scanRate := device.scanRate.getD 1000

def addSNMP (req : SNMPSubscribeRequest) : SNMPSubscribeRequest :=
  { req with oids := req.oids ++ [src.tag] }

/-- The part of the pass for a variable whose device is known. -/
def addSource (r : Requests) (varID : String) : Requests :=
  let key := src.protocol ++ "." ++ src.deviceID ++ "." ++ sanitizeForSubject src.tag
  let r := { r with tagIndex := addItem r.tagIndex key [] (· ++ [varID]) }
  let dk := deviceKey src
  if src.protocol = "ethernetip" then
    { r with eipRequests :=
        addItem r.eipRequests dk (freshEthernetIP plcID src device) (addEthernetIP src) }
  else if src.protocol = "modbus" then
    { r with modbusRequests :=
        addItem r.modbusRequests dk (freshModbus plcID src device) (addModbus src) }
  else if src.protocol = "opcua" then
    { r with opcuaRequests :=
        addItem r.opcuaRequests dk (freshOpcUA plcID src device) (addOpcUA src) }
  else if src.protocol = "snmp" then
    { r with snmpRequests :=
        addItem r.snmpRequests dk (freshSNMP plcID src device) (addSNMP src) }
  else r

end Pass

/-- The source and the device of an input variable; none if there is no such device. -/
def inputSource (config : PlcConfigKV) (vcfg : PlcVariableConfigKV) :
    Option (PlcVariableSourceKV × PlcDeviceConfigKV) :=
  if vcfg.direction = "input" then
    vcfg.source.bind fun src => (config.devices.lookup src.deviceID).map fun device => (src, device)
  else none

def addVariable (plcID : String) (config : PlcConfigKV) (r : Requests)
    (e : Sigma fun _ : String => PlcVariableConfigKV) : Requests :=
  match inputSource config e.2 with
  | none => r
  | some (src, device) => addSource plcID src device r e.1

def buildRequests (plcID : String) (config : PlcConfigKV) : Requests :=
  config.variableConfigs.entries.foldl (addVariable plcID config) {}

/-- The bridge of one PLC with the buckets of the scanners, decoded. The channel bus takes any
key, and a put succeeds. -/
structure Bridge where
  buckets : ScannerProtocol → GoMap String SubscribeRecord
  tagIndex : GoMap String (List String) := ∅
  subs : List String := []

def recordKey (plcID deviceID : String) : String := subscriberKey plcID ++ ":" ++ deviceID

def writeSubscription (plcID : String) (bucket : GoMap String SubscribeRecord)
    (record : SubscribeRecord) : GoMap String SubscribeRecord :=
  bucket.insert (recordKey plcID record.deviceID) record

/-- The requests for the bucket of a protocol. -/
def Requests.records (r : Requests) : ScannerProtocol → List SubscribeRecord
  | .ethernetip => r.eipRequests.entries.map fun e => .ethernetip e.2
  | .modbus => r.modbusRequests.entries.map fun e => .modbus e.2
  | .opcua => r.opcuaRequests.entries.map fun e => .opcua e.2
  | .snmp => r.snmpRequests.entries.map fun e => .snmp e.2

/-- `topics.DataWildcard`. -/
def dataWildcard (moduleID : String) : String := moduleID ++ ".data.>"

/-- The protocols of all input variables with a source, that of an unknown device too. -/
def protocols (config : PlcConfigKV) : List String :=
  (config.variableConfigs.entries.filterMap fun e =>
    if e.2.direction = "input" then e.2.source.map (·.protocol) else none).dedup

def subscribe (plcID : String) (sb : Bridge) : Option PlcConfigKV → Bridge
  | none => { sb with tagIndex := ∅, subs := [] }
  | some config =>
    let r := buildRequests plcID config
    { buckets := fun p => (r.records p).foldl (writeSubscription plcID) (sb.buckets p)
      tagIndex := r.tagIndex
      subs := (protocols config).map dataWildcard }

/-- The bridge after a sequence of configs. -/
def subscribeAll (plcID : String) (sb : Bridge) (configs : List (Option PlcConfigKV)) : Bridge :=
  configs.foldl (subscribe plcID) sb

/-! ## The records of a PLC -/

/-- An input variable of the config takes its value from the device by the protocol, and the
device is one of the config. -/
structure UsedBy (config : PlcConfigKV) (p : ScannerProtocol) (deviceID : String)
    (vcfg : PlcVariableConfigKV) (src : PlcVariableSourceKV) (device : PlcDeviceConfigKV) :
    Prop where
  direction : vcfg.direction = "input"
  source : vcfg.source = some src
  protocol : src.protocol = p.name
  known : config.devices.lookup deviceID = some device
  named : src.deviceID = deviceID

def Uses (config : Option PlcConfigKV) (p : ScannerProtocol) (deviceID : String) : Prop :=
  ∃ c ∈ config, ∃ varID vcfg, c.variableConfigs.lookup varID = some vcfg ∧
    ∃ src device, UsedBy c p deviceID vcfg src device

/-- The record of the PLC for the device stands under the key. -/
def Holds (plcID : String) (bucket : GoMap String SubscribeRecord) (key deviceID : String) :
    Prop :=
  ∃ record, bucket.lookup key = some record ∧ record.subscriberID = subscriberKey plcID ∧
    record.deviceID = deviceID

/-- The PLC has one record for each device that the config uses, and no other. -/
structure ExactRecords (plcID : String) (config : Option PlcConfigKV) (sb : Bridge) : Prop where
  one : ∀ p deviceID, Uses config p deviceID → ∃! key, Holds plcID (sb.buckets p) key deviceID
  none : ∀ p deviceID, ¬ Uses config p deviceID → ∀ key, ¬ Holds plcID (sb.buckets p) key deviceID

/-- No record in the buckets is the PLC's. -/
def NoRecords (plcID : String) (sb : Bridge) : Prop :=
  ∀ p key deviceID, ¬ Holds plcID (sb.buckets p) key deviceID

/-- The records of the PLC stand under the keys of their devices. -/
def Keyed (plcID : String) (bucket : GoMap String SubscribeRecord) : Prop :=
  ∀ key deviceID, Holds plcID bucket key deviceID → key = recordKey plcID deviceID

section Buckets

variable {plcID : String} {bucket : GoMap String SubscribeRecord} {record : SubscribeRecord}

/-- A record is held under the key of its device. -/
theorem holds_writeSubscription_iff (hkeyed : Keyed plcID bucket)
    (hown : record.subscriberID = subscriberKey plcID) (key deviceID : String) :
    Holds plcID (writeSubscription plcID bucket record) key deviceID ↔
      Holds plcID bucket key deviceID ∨
        (key = recordKey plcID deviceID ∧ record.deviceID = deviceID) := by
  constructor
  · rintro ⟨record', hlookup, hown', rfl⟩
    by_cases hkey : key = recordKey plcID record.deviceID
    · subst hkey
      rw [writeSubscription, AList.lookup_insert] at hlookup
      cases hlookup
      exact Or.inr ⟨rfl, rfl⟩
    · rw [writeSubscription, AList.lookup_insert_ne hkey] at hlookup
      exact Or.inl ⟨record', hlookup, hown', rfl⟩
  · rintro (hold | ⟨rfl, rfl⟩)
    · by_cases hkey : key = recordKey plcID record.deviceID
      · -- the record that stood there was for the same device
        have hdevice : record.deviceID = deviceID := by
          have hsame := hkey.symm.trans (hkeyed key deviceID hold)
          simpa [recordKey] using hsame
        refine ⟨record, ?_, hown, hdevice⟩
        rw [hkey, writeSubscription, AList.lookup_insert]
      · obtain ⟨record', hlookup, hown', hdevice⟩ := hold
        refine ⟨record', ?_, hown', hdevice⟩
        rw [writeSubscription, AList.lookup_insert_ne hkey]
        exact hlookup
    · exact ⟨record, by rw [writeSubscription, AList.lookup_insert], hown, rfl⟩

theorem Keyed.writeSubscription (hkeyed : Keyed plcID bucket)
    (hown : record.subscriberID = subscriberKey plcID) :
    Keyed plcID (writeSubscription plcID bucket record) := by
  intro key deviceID h
  obtain hold | ⟨hkey, -⟩ := (holds_writeSubscription_iff hkeyed hown key deviceID).mp h
  · exact hkeyed key deviceID hold
  · exact hkey

/-- Records are held under the keys of their devices, and those from before stay. -/
theorem holds_foldl_iff (records : List SubscribeRecord) (hkeyed : Keyed plcID bucket)
    (hown : ∀ record ∈ records, record.subscriberID = subscriberKey plcID) :
    Keyed plcID (records.foldl (writeSubscription plcID) bucket) ∧
      ∀ key deviceID, Holds plcID (records.foldl (writeSubscription plcID) bucket) key deviceID ↔
        Holds plcID bucket key deviceID ∨
          (key = recordKey plcID deviceID ∧ ∃ record ∈ records, record.deviceID = deviceID) := by
  induction records generalizing bucket with
  | nil => simp [hkeyed]
  | cons record records ih =>
    have hrecord := hown record List.mem_cons_self
    obtain ⟨hkeyed', hiff⟩ := ih (hkeyed.writeSubscription hrecord)
      fun r hr => hown r (List.mem_cons_of_mem _ hr)
    refine ⟨hkeyed', fun key deviceID => ?_⟩
    rw [List.foldl_cons, hiff, holds_writeSubscription_iff hkeyed hrecord]
    simp only [List.exists_mem_cons_iff]
    tauto

end Buckets

/-! ## The requests of a config -/

/-- The requests are those of the PLC for the devices, each under the key of its device. -/
structure Covers {R : Type} (plcID protocol : String) (record : R → SubscribeRecord)
    (requests : GoMap String R) (used : String → Prop) : Prop where
  key : ∀ dk req, requests.lookup dk = some req → dk = protocol ++ ":" ++ (record req).deviceID
  own : ∀ dk req, requests.lookup dk = some req →
    (record req).subscriberID = subscriberKey plcID
  sound : ∀ dk req, requests.lookup dk = some req → used (record req).deviceID
  complete : ∀ d, used d → ∃ req, requests.lookup (protocol ++ ":" ++ d) = some req

section Covering

variable {R : Type} {plcID protocol : String} {record : R → SubscribeRecord}
  {requests : GoMap String R} {used used' : String → Prop}

theorem covers_empty (plcID protocol : String) (record : R → SubscribeRecord) :
    Covers plcID protocol record (∅ : GoMap String R) fun _ => False where
  key dk req h := by simp at h
  own dk req h := by simp at h
  sound dk req h := by simp at h
  complete d h := h.elim

theorem Covers.congr (h : Covers plcID protocol record requests used)
    (hused : ∀ d, used d ↔ used' d) : Covers plcID protocol record requests used' := by
  rwa [← funext fun d => propext (hused d)]

/-- An item of a device is added to its request, or starts one. -/
theorem Covers.addItem (h : Covers plcID protocol record requests used) {d : String} (fresh : R)
    (add : R → R) (hown : (record fresh).subscriberID = subscriberKey plcID)
    (hdevice : (record fresh).deviceID = d)
    (hadd : ∀ req, (record (add req)).subscriberID = (record req).subscriberID ∧
      (record (add req)).deviceID = (record req).deviceID) :
    Covers plcID protocol record (addItem requests (protocol ++ ":" ++ d) fresh add)
      fun x => used x ∨ x = d := by
  -- the request that gets the item is for this device, made now or before
  have hreq : ∀ req, (requests.lookup (protocol ++ ":" ++ d)).getD fresh = req →
      (record req).subscriberID = subscriberKey plcID ∧ (record req).deviceID = d := by
    rintro req rfl
    cases hlookup : requests.lookup (protocol ++ ":" ++ d) with
    | none => exact ⟨hown, hdevice⟩
    | some req =>
      have hkey := h.key _ _ hlookup
      exact ⟨h.own _ _ hlookup, by simpa [eq_comm] using hkey⟩
  obtain ⟨hreqOwn, hreqDevice⟩ := hreq _ rfl
  have hadded : ∀ dk req, (PlcScannerBridge.addItem requests (protocol ++ ":" ++ d) fresh
      add).lookup dk = some req →
      (dk = protocol ++ ":" ++ d ∧ (record req).subscriberID = subscriberKey plcID ∧
        (record req).deviceID = d) ∨ requests.lookup dk = some req := by
    intro dk req hlookup
    by_cases hdk : dk = protocol ++ ":" ++ d
    · subst hdk
      rw [PlcScannerBridge.addItem, AList.lookup_insert] at hlookup
      cases hlookup
      exact Or.inl ⟨rfl, (hadd _).1.trans hreqOwn, (hadd _).2.trans hreqDevice⟩
    · rw [PlcScannerBridge.addItem, AList.lookup_insert_ne hdk] at hlookup
      exact Or.inr hlookup
  constructor
  · intro dk req hlookup
    obtain ⟨hdk, -, hd⟩ | hold := hadded dk req hlookup
    · rw [hdk, hd]
    · exact h.key dk req hold
  · intro dk req hlookup
    obtain ⟨-, hsub, -⟩ | hold := hadded dk req hlookup
    · exact hsub
    · exact h.own dk req hold
  · intro dk req hlookup
    obtain ⟨-, -, hd⟩ | hold := hadded dk req hlookup
    · exact Or.inr hd
    · exact Or.inl (h.sound dk req hold)
  · intro x hx
    by_cases hxd : x = d
    · subst hxd
      exact ⟨_, by rw [PlcScannerBridge.addItem, AList.lookup_insert]⟩
    · obtain ⟨req, hlookup⟩ := h.complete x (hx.resolve_right hxd)
      refine ⟨req, ?_⟩
      rw [PlcScannerBridge.addItem, AList.lookup_insert_ne (by simpa using hxd)]
      exact hlookup

/-- The requests as records: all are the PLC's, and they are for the devices. -/
theorem Covers.records (h : Covers plcID protocol record requests used) :
    (∀ r ∈ requests.entries.map fun e => record e.2, r.subscriberID = subscriberKey plcID) ∧
      ∀ d, (∃ r ∈ requests.entries.map fun e => record e.2, r.deviceID = d) ↔ used d := by
  have hentry : ∀ r ∈ requests.entries.map fun e => record e.2,
      ∃ dk req, requests.lookup dk = some req ∧ record req = r := by
    intro r hr
    obtain ⟨e, he, rfl⟩ := List.mem_map.mp hr
    exact ⟨e.1, e.2, (mem_entries_iff requests e.1 e.2).mp he, rfl⟩
  constructor
  · intro r hr
    obtain ⟨dk, req, hlookup, rfl⟩ := hentry r hr
    exact h.own dk req hlookup
  · intro d
    constructor
    · rintro ⟨r, hr, rfl⟩
      obtain ⟨dk, req, hlookup, rfl⟩ := hentry r hr
      exact h.sound dk req hlookup
    · intro hused
      obtain ⟨req, hlookup⟩ := h.complete d hused
      have hkey := h.key _ _ hlookup
      refine ⟨record req, ?_, by simpa [eq_comm] using hkey⟩
      exact List.mem_map_of_mem (f := fun e => record e.2)
        ((mem_entries_iff requests _ req).mpr hlookup)

end Covering

/-- A variable among these takes its value from the device by the protocol. -/
def UsedIn (config : PlcConfigKV) (es : List (Sigma fun _ : String => PlcVariableConfigKV))
    (p : ScannerProtocol) (deviceID : String) : Prop :=
  ∃ e ∈ es, ∃ src device, inputSource config e.2 = some (src, device) ∧
    src.protocol = p.name ∧ src.deviceID = deviceID

/-- A variable is read from a device exactly if it is an input of a known one. -/
theorem inputSource_eq_some_iff (config : PlcConfigKV) (vcfg : PlcVariableConfigKV)
    (src : PlcVariableSourceKV) (device : PlcDeviceConfigKV) :
    inputSource config vcfg = some (src, device) ↔
      vcfg.direction = "input" ∧ vcfg.source = some src ∧
        config.devices.lookup src.deviceID = some device := by
  simp only [inputSource]
  constructor
  · intro h
    split at h
    · rename_i hinput
      obtain ⟨src', hsrc, hmap⟩ := Option.bind_eq_some_iff.mp h
      obtain ⟨device', hdevice, hpair⟩ := Option.map_eq_some_iff.mp hmap
      cases hpair
      exact ⟨hinput, hsrc, hdevice⟩
    · cases h
  · rintro ⟨hinput, hsrc, hdevice⟩
    rw [if_pos hinput, hsrc, Option.bind_some, hdevice, Option.map_some]

/-- A config uses the devices of its variables. -/
theorem uses_some_iff (config : PlcConfigKV) (p : ScannerProtocol) (deviceID : String) :
    Uses (some config) p deviceID ↔ UsedIn config config.variableConfigs.entries p deviceID := by
  simp only [Uses, UsedIn, inputSource_eq_some_iff]
  constructor
  · rintro ⟨c, hc, varID, vcfg, hlookup, src, device, hused⟩
    cases hc
    exact ⟨⟨varID, vcfg⟩, (mem_entries_iff _ _ _).mpr hlookup, src, device,
      ⟨hused.direction, hused.source, by rw [hused.named]; exact hused.known⟩, hused.protocol,
      hused.named⟩
  · rintro ⟨⟨varID, vcfg⟩, he, src, device, ⟨hinput, hsrc, hdevice⟩, hp, rfl⟩
    exact ⟨config, rfl, varID, vcfg, (mem_entries_iff _ _ _).mp he, src, device,
      ⟨hinput, hsrc, hp, hdevice, rfl⟩⟩

/-- The requests cover the devices of the variables that the pass has seen. -/
structure Built (plcID : String) (config : PlcConfigKV)
    (es : List (Sigma fun _ : String => PlcVariableConfigKV)) (r : Requests) : Prop where
  ethernetip : Covers plcID "ethernetip" .ethernetip r.eipRequests (UsedIn config es .ethernetip)
  modbus : Covers plcID "modbus" .modbus r.modbusRequests (UsedIn config es .modbus)
  opcua : Covers plcID "opcua" .opcua r.opcuaRequests (UsedIn config es .opcua)
  snmp : Covers plcID "snmp" .snmp r.snmpRequests (UsedIn config es .snmp)

section Pass

variable {plcID : String} {config : PlcConfigKV} {r : Requests}
  (es : List (Sigma fun _ : String => PlcVariableConfigKV))
  {e : Sigma fun _ : String => PlcVariableConfigKV}
  {src : PlcVariableSourceKV} {device : PlcDeviceConfigKV}

/-- A variable without a source adds no device. -/
theorem usedIn_snoc_none (h : inputSource config e.2 = none) (p : ScannerProtocol)
    (deviceID : String) : UsedIn config (es ++ [e]) p deviceID ↔ UsedIn config es p deviceID := by
  simp only [UsedIn, List.mem_append, List.mem_singleton]
  constructor
  · rintro ⟨e', he' | rfl, src, device, hsrc, hrest⟩
    · exact ⟨e', he', src, device, hsrc, hrest⟩
    · rw [h] at hsrc
      cases hsrc
  · rintro ⟨e', he', hrest⟩
    exact ⟨e', Or.inl he', hrest⟩

theorem usedIn_snoc_some (h : inputSource config e.2 = some (src, device)) (p : ScannerProtocol)
    (deviceID : String) :
    UsedIn config (es ++ [e]) p deviceID ↔
      UsedIn config es p deviceID ∨ (src.protocol = p.name ∧ deviceID = src.deviceID) := by
  simp only [UsedIn, List.mem_append, List.mem_singleton]
  constructor
  · rintro ⟨e', he' | rfl, src', device', hsrc, hp, rfl⟩
    · exact Or.inl ⟨e', he', src', device', hsrc, hp, rfl⟩
    · rw [h] at hsrc
      cases hsrc
      exact Or.inr ⟨hp, rfl⟩
  · rintro (⟨e', he', hrest⟩ | ⟨hp, rfl⟩)
    · exact ⟨e', Or.inl he', hrest⟩
    · exact ⟨e, Or.inr rfl, src, device, h, hp, rfl⟩

/-- A protocol that is not the variable's keeps its requests. -/
theorem usedIn_snoc_other (h : inputSource config e.2 = some (src, device)) {p : ScannerProtocol}
    (hp : src.protocol ≠ p.name) (deviceID : String) :
    UsedIn config es p deviceID ↔ UsedIn config (es ++ [e]) p deviceID := by
  rw [usedIn_snoc_some es h]
  simp [hp]

theorem usedIn_snoc_same (h : inputSource config e.2 = some (src, device)) {p : ScannerProtocol}
    (hp : src.protocol = p.name) (deviceID : String) :
    (UsedIn config es p deviceID ∨ deviceID = src.deviceID) ↔
      UsedIn config (es ++ [e]) p deviceID := by
  rw [usedIn_snoc_some es h]
  simp [hp]

variable {es}

/-- With each variable the requests cover its device as well. -/
theorem Built.addVariable (h : Built plcID config es r) :
    Built plcID config (es ++ [e]) (addVariable plcID config r e) := by
  unfold PlcScannerBridge.addVariable
  cases hsrc : inputSource config e.2 with
  | none =>
    have hsame := fun p d => (usedIn_snoc_none es hsrc p d).symm
    exact ⟨h.ethernetip.congr (hsame _), h.modbus.congr (hsame _), h.opcua.congr (hsame _),
      h.snmp.congr (hsame _)⟩
  | some pair =>
    obtain ⟨src, device⟩ := pair
    have hother := fun (p : ScannerProtocol) (hp : src.protocol ≠ p.name) =>
      usedIn_snoc_other es hsrc hp
    have hsame := fun (p : ScannerProtocol) (hp : src.protocol = p.name) =>
      usedIn_snoc_same es hsrc hp
    simp only [addSource, deviceKey]
    by_cases heip : src.protocol = "ethernetip"
    · rw [if_pos heip, heip]
      have hnew := h.ethernetip.addItem (freshEthernetIP plcID src device) (addEthernetIP src)
        rfl rfl fun _ => ⟨rfl, rfl⟩
      exact ⟨hnew.congr (hsame .ethernetip heip),
        h.modbus.congr (hother .modbus (by simp [heip, ScannerProtocol.name])),
        h.opcua.congr (hother .opcua (by simp [heip, ScannerProtocol.name])),
        h.snmp.congr (hother .snmp (by simp [heip, ScannerProtocol.name]))⟩
    have heip' := h.ethernetip.congr (hother .ethernetip heip)
    rw [if_neg heip]
    by_cases hmodbus : src.protocol = "modbus"
    · rw [if_pos hmodbus, hmodbus]
      have hnew := h.modbus.addItem (freshModbus plcID src device) (addModbus src) rfl rfl
        fun _ => ⟨rfl, rfl⟩
      exact ⟨heip', hnew.congr (hsame .modbus hmodbus),
        h.opcua.congr (hother .opcua (by simp [hmodbus, ScannerProtocol.name])),
        h.snmp.congr (hother .snmp (by simp [hmodbus, ScannerProtocol.name]))⟩
    have hmodbus' := h.modbus.congr (hother .modbus hmodbus)
    rw [if_neg hmodbus]
    by_cases hopcua : src.protocol = "opcua"
    · rw [if_pos hopcua, hopcua]
      have hnew := h.opcua.addItem (freshOpcUA plcID src device) (addOpcUA src) rfl rfl
        fun _ => ⟨rfl, rfl⟩
      exact ⟨heip', hmodbus',
        hnew.congr (hsame .opcua hopcua),
        h.snmp.congr (hother .snmp (by simp [hopcua, ScannerProtocol.name]))⟩
    have hopcua' := h.opcua.congr (hother .opcua hopcua)
    rw [if_neg hopcua]
    by_cases hsnmp : src.protocol = "snmp"
    · rw [if_pos hsnmp, hsnmp]
      have hnew := h.snmp.addItem (freshSNMP plcID src device) (addSNMP src) rfl rfl
        fun _ => ⟨rfl, rfl⟩
      exact ⟨heip', hmodbus', hopcua',
        hnew.congr (hsame .snmp hsnmp)⟩
    rw [if_neg hsnmp]
    exact ⟨heip', hmodbus', hopcua', h.snmp.congr (hother .snmp hsnmp)⟩

/-- After all of them the requests cover the devices of the config. -/
theorem built_foldl (es : List (Sigma fun _ : String => PlcVariableConfigKV)) :
    Built plcID config es (es.foldl (addVariable plcID config) {}) := by
  induction es using List.reverseRecOn with
  | nil =>
    have hnone : ∀ p d, False ↔ UsedIn config [] p d := fun p d => by simp [UsedIn]
    exact ⟨(covers_empty _ _ _).congr (hnone _), (covers_empty _ _ _).congr (hnone _),
      (covers_empty _ _ _).congr (hnone _), (covers_empty _ _ _).congr (hnone _)⟩
  | append_singleton es e ih =>
    rw [List.foldl_append, List.foldl_cons, List.foldl_nil]
    exact ih.addVariable

/-- What a config is turned into: records of the PLC, for the devices that the config uses. -/
theorem records_buildRequests (plcID : String) (config : PlcConfigKV) (p : ScannerProtocol) :
    (∀ r ∈ (buildRequests plcID config).records p, r.subscriberID = subscriberKey plcID) ∧
      ∀ d, (∃ r ∈ (buildRequests plcID config).records p, r.deviceID = d) ↔
        Uses (some config) p d := by
  have hbuilt : Built plcID config _ (buildRequests plcID config) := built_foldl _
  simp only [uses_some_iff]
  cases p with
  | ethernetip => exact hbuilt.ethernetip.records
  | opcua => exact hbuilt.opcua.records
  | modbus => exact hbuilt.modbus.records
  | snmp => exact hbuilt.snmp.records

end Pass

/-! ## Runs -/

section Runs

variable {plcID : String} {sb : Bridge}

/-- One config adds the records of its devices to those that there are. -/
theorem holds_subscribe_iff (hkeyed : ∀ p, Keyed plcID (sb.buckets p))
    (config : Option PlcConfigKV) (p : ScannerProtocol) :
    Keyed plcID ((subscribe plcID sb config).buckets p) ∧
      ∀ key deviceID, Holds plcID ((subscribe plcID sb config).buckets p) key deviceID ↔
        Holds plcID (sb.buckets p) key deviceID ∨
          (key = recordKey plcID deviceID ∧ Uses config p deviceID) := by
  cases config with
  | none =>
    refine ⟨hkeyed p, fun key deviceID => ?_⟩
    simp [subscribe, Uses]
  | some config =>
    obtain ⟨hown, hdevices⟩ := records_buildRequests plcID config p
    obtain ⟨hkeyed', hiff⟩ := holds_foldl_iff _ (hkeyed p) hown
    refine ⟨hkeyed', fun key deviceID => ?_⟩
    rw [← hdevices]
    exact hiff key deviceID

/-- After any configs there are the records of the devices that one of them uses. -/
theorem holds_subscribeAll_iff (hkeyed : ∀ p, Keyed plcID (sb.buckets p))
    (configs : List (Option PlcConfigKV)) (p : ScannerProtocol) :
    Keyed plcID ((subscribeAll plcID sb configs).buckets p) ∧
      ∀ key deviceID, Holds plcID ((subscribeAll plcID sb configs).buckets p) key deviceID ↔
        Holds plcID (sb.buckets p) key deviceID ∨
          (key = recordKey plcID deviceID ∧ ∃ config ∈ configs, Uses config p deviceID) := by
  induction configs generalizing sb with
  | nil => simp [subscribeAll, hkeyed p]
  | cons config configs ih =>
    have hstep := holds_subscribe_iff hkeyed config
    obtain ⟨hkeyed', hiff⟩ := ih fun p => (hstep p).1
    refine ⟨hkeyed', fun key deviceID => ?_⟩
    have hfirst := (hstep p).2 key deviceID
    have hrest := hiff key deviceID
    rw [subscribeAll, List.foldl_cons]
    rw [subscribeAll] at hrest
    rw [hrest, hfirst]
    simp only [List.exists_mem_cons_iff]
    tauto

theorem NoRecords.keyed (h : NoRecords plcID sb) (p : ScannerProtocol) :
    Keyed plcID (sb.buckets p) := fun key deviceID hheld => absurd hheld (h p key deviceID)

/-- After a run the records are those of the last config exactly when no earlier config used a
device that the last one does not use. -/
theorem exactRecords_iff (hstart : NoRecords plcID sb) (configs : List (Option PlcConfigKV))
    (last : Option PlcConfigKV) :
    ExactRecords plcID last (subscribeAll plcID sb (configs ++ [last])) ↔
      ∀ config ∈ configs, ∀ p deviceID, Uses config p deviceID → Uses last p deviceID := by
  have hholds : ∀ p key deviceID,
      Holds plcID ((subscribeAll plcID sb (configs ++ [last])).buckets p) key deviceID ↔
        key = recordKey plcID deviceID ∧ ∃ config ∈ configs ++ [last], Uses config p deviceID := by
    intro p key deviceID
    rw [(holds_subscribeAll_iff hstart.keyed (configs ++ [last]) p).2 key deviceID]
    simp [hstart p key deviceID]
  constructor
  · intro hexact config hconfig p deviceID huses
    by_contra hlast
    exact hexact.none p deviceID hlast (recordKey plcID deviceID)
      ((hholds p _ deviceID).mpr ⟨rfl, config, List.mem_append_left _ hconfig, huses⟩)
  · intro hcond
    have hlast : ∀ p deviceID, (∃ config ∈ configs ++ [last], Uses config p deviceID) →
        Uses last p deviceID := by
      rintro p deviceID ⟨config, hconfig, huses⟩
      obtain hconfig | hconfig := List.mem_append.mp hconfig
      · exact hcond config hconfig p deviceID huses
      · rw [List.mem_singleton.mp hconfig] at huses
        exact huses
    constructor
    · intro p deviceID huses
      have hheld := (hholds p (recordKey plcID deviceID) deviceID).mpr
        ⟨rfl, last, by simp, huses⟩
      exact ⟨recordKey plcID deviceID, hheld, fun key hkey => ((hholds p key deviceID).mp hkey).1⟩
    · intro p deviceID hunused key hheld
      exact hunused (hlast p deviceID ((hholds p key deviceID).mp hheld).2)

end Runs

/-- One Modbus input on one device. -/
def oneInput (deviceID : String) : PlcConfigKV where
  devices := AList.singleton deviceID { protocol := "modbus" }
  variableConfigs := AList.singleton "level"
    { direction := "input", source := some { protocol := "modbus", deviceID := deviceID } }

def emptyBridge : Bridge := { buckets := fun _ => ∅ }

theorem noRecords_emptyBridge (plcID : String) : NoRecords plcID emptyBridge := by
  rintro p key deviceID ⟨record, hlookup, -⟩
  simp [emptyBridge] at hlookup

/-- The config of the example uses one device. -/
theorem uses_oneInput_iff (used deviceID : String) (p : ScannerProtocol) :
    Uses (some (oneInput used)) p deviceID ↔ p = .modbus ∧ deviceID = used := by
  constructor
  · rintro ⟨c, hc, varID, vcfg, hvar, src, device, hused⟩
    cases hc
    obtain ⟨-, rfl⟩ := eq_of_lookup_singleton hvar
    obtain rfl : _ = src := Option.some.inj hused.source
    refine ⟨?_, hused.named.symm⟩
    have hp := hused.protocol
    cases p with
    | modbus => rfl
    | ethernetip => simp [ScannerProtocol.name] at hp
    | opcua => simp [ScannerProtocol.name] at hp
    | snmp => simp [ScannerProtocol.name] at hp
  · rintro ⟨rfl, rfl⟩
    have hlookup : ∀ {V : Type} (k : String) (v : V),
        (AList.singleton k v : GoMap String V).lookup k = some v :=
      fun k v => (mem_entries_iff _ k v).mp (by simp [AList.singleton_entries])
    exact ⟨_, rfl, "level", _, hlookup _ _, _, _, ⟨rfl, rfl, rfl, hlookup _ _, rfl⟩⟩

/-- A config that is applied again keeps its one record. -/
theorem exactRecords_again :
    NoRecords "plc" emptyBridge ∧
      ExactRecords "plc" (some (oneInput "pump")) (subscribeAll "plc" emptyBridge
        ([some (oneInput "pump")] ++ [some (oneInput "pump")])) := by
  refine ⟨noRecords_emptyBridge "plc", (exactRecords_iff (noRecords_emptyBridge "plc") _ _).mpr ?_⟩
  intro config hconfig p deviceID huses
  rwa [← List.mem_singleton.mp hconfig]

/-- A device that is gone from the config is still requested. -/
theorem removed_device_requested :
    ¬ ∀ (plcID : String) (sb : Bridge), NoRecords plcID sb →
      ∀ (configs : List (Option PlcConfigKV)) (last : Option PlcConfigKV),
        ExactRecords plcID last (subscribeAll plcID sb (configs ++ [last])) := by
  intro h
  have hexact := h "plc" emptyBridge (noRecords_emptyBridge "plc") [some (oneInput "pump")]
    (some (oneInput "valve"))
  have hgone : ¬ Uses (some (oneInput "valve")) .modbus "pump" := by
    rw [uses_oneInput_iff]
    decide
  have hheld := ((holds_subscribeAll_iff (noRecords_emptyBridge "plc").keyed
    ([some (oneInput "pump")] ++ [some (oneInput "valve")]) .modbus).2 (recordKey "plc" "pump")
    "pump").mpr (Or.inr ⟨rfl, _, List.mem_append_left _ (List.mem_singleton.mpr rfl),
      (uses_oneInput_iff "pump" "pump" .modbus).mpr ⟨rfl, rfl⟩⟩)
  exact hexact.none .modbus "pump" hgone _ hheld

/-! ## Deleted keys -/

/-- Who writes records into the buckets of the scanners. -/
inductive Writer where
  | gateway (gatewayID : String)
  | plc (plcID : String)

/-- The writer puts the record under the key. -/
inductive Writes : Writer → String → SubscribeRecord → Prop
  | gateway {gatewayID bucket key deviceID : String} {device : GatewayDeviceConfig}
      {udtVariables : GoMap String GatewayUdtVariableConfig}
      {vars : GoMap String GatewayVariableConfig} {record : SubscribeRecord}
      (h : writeSubscriptionConfig gatewayID udtVariables deviceID device vars =
        some ⟨bucket, key, some record⟩) :
      Writes (.gateway gatewayID) key record
  | plc {plcID : String} {config : PlcConfigKV} {p : ScannerProtocol} {record : SubscribeRecord}
      (h : record ∈ (buildRequests plcID config).records p) :
      Writes (.plc plcID) (recordKey plcID record.deviceID) record

/-- The key tells the scanner which record was deleted exactly if the gateway wrote it, and the
ID of the gateway has no dot. The PLC separates the two parts by a colon. -/
theorem deletedSubscription_iff {w : Writer} {key : String} {record : SubscribeRecord}
    (h : Writes w key record) :
    deletedSubscription key = some (record.subscriberID, record.deviceID) ↔
      ∃ gatewayID, w = .gateway gatewayID ∧ '.' ∉ gatewayID.toList := by
  cases h with
  | @gateway gatewayID _ _ _ _ _ _ _ h =>
    obtain ⟨rfl, hsub, hdevice⟩ := writeSubscriptionConfig_ids h rfl
    rw [hsub, hdevice, deletedSubscription]
    have hdot : '.' ∈ ("gateway-" ++ gatewayID).toList ↔ '.' ∈ gatewayID.toList := by
      simp
    constructor
    · intro hsplit
      exact ⟨gatewayID, rfl, fun hmem => (splitKey_eq_some hsplit).2 (hdot.mpr hmem)⟩
    · rintro ⟨_, hw, hnot⟩
      cases hw
      exact splitKey_dot (fun hmem => hnot (hdot.mp hmem)) _
  | @plc plcID config p _ h =>
    have hsub := (records_buildRequests plcID config p).1 record h
    constructor
    · intro hsplit
      rw [hsub] at hsplit
      -- after the subscriber the key has a colon where the scanner looks for a dot
      have hkey := (splitKey_eq_some hsplit).1
      simp [recordKey] at hkey
    · rintro ⟨_, hw, -⟩
      cases hw

/-- A gateway without a dot in its ID, and a device with one. -/
theorem deletedSubscription_line1 :
    ∃ record, Writes (.gateway "line1") "gateway-line1.plc.7" record ∧
      deletedSubscription "gateway-line1.plc.7" = some (record.subscriberID, record.deviceID) := by
  have hwrites : Writes (.gateway "line1") "gateway-line1.plc.7" (.modbus (gatewayModbus
      "gateway-line1" "plc.7" { protocol := "modbus" } ∅)) := by
    have hwrite : writeSubscriptionConfig "line1" ∅ "plc.7" { protocol := "modbus" } ∅ =
        some ⟨"scanner_config_modbus", "gateway-line1.plc.7", some (.modbus (gatewayModbus
          "gateway-line1" "plc.7" { protocol := "modbus" } ∅))⟩ := by
      simp [writeSubscriptionConfig, scannerBucket, ScannerProtocol.bucket]
    exact .gateway hwrite
  exact ⟨_, hwrites, (deletedSubscription_iff hwrites).mpr ⟨"line1", rfl, by decide⟩⟩

/-- The scanner ignores the deletion of a record of the PLC. -/
theorem plc_deletion_lost :
    ¬ ∀ (w : Writer) (key : String) (record : SubscribeRecord), Writes w key record →
      deletedSubscription key = some (record.subscriberID, record.deviceID) := by
  intro h
  obtain ⟨record, hrecord, hdevice⟩ :=
    ((records_buildRequests "plc" (oneInput "pump") .modbus).2 "pump").mpr
      ((uses_oneInput_iff "pump" "pump" .modbus).mpr ⟨rfl, rfl⟩)
  have hsplit := h (.plc "plc") _ record (.plc hrecord)
  rw [hdevice] at hsplit
  have hnone : deletedSubscription (recordKey "plc" "pump") = none := by decide
  rw [hnone] at hsplit
  cases hsplit

end PlcScannerBridge
