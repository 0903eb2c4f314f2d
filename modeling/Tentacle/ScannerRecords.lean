import Tentacle.ManifestTypes
import Tentacle.ModbusWrites
import Tentacle.ScannerKvWatch

/-!
# The records in the buckets of the scanners

The gateway and the soft PLC tell a scanner what to poll by a record in its bucket. The record
names its subscriber and its device, and so does the key: a scanner learns of a deletion by the
key alone, and reads both from it by `strings.SplitN(key, ".", 2)`.
-/

namespace ScannerRecords

open GoValues Manifest ModbusWrites
open ModbusScanner (ModbusTagConfig)
open ScannerKvWatch (splitKey)

/-- The protocols for which both writers have a record. -/
inductive ScannerProtocol where
  | ethernetip | opcua | modbus | snmp
  deriving DecidableEq, Repr

def ScannerProtocol.name : ScannerProtocol → String
  | .ethernetip => "ethernetip"
  | .opcua => "opcua"
  | .modbus => "modbus"
  | .snmp => "snmp"

def ScannerProtocol.bucket : ScannerProtocol → String
  | .ethernetip => "scanner_config_ethernetip"
  | .opcua => "scanner_config_opcua"
  | .modbus => "scanner_config_modbus"
  | .snmp => "scanner_config_snmp"

/-- `topics.ScannerBucket`. -/
def scannerBucket (protocol : String) : String :=
  if protocol = "ethernetip" then ScannerProtocol.ethernetip.bucket
  else if protocol = "opcua" then ScannerProtocol.opcua.bucket
  else if protocol = "modbus" then ScannerProtocol.modbus.bucket
  else if protocol = "snmp" then ScannerProtocol.snmp.bucket
  else if protocol = "profinetcontroller" then "scanner_config_profinetcontroller"
  else ""

structure EthernetIPSubscribeRequest where
  subscriberID : String
  deviceID : String
  host : String
  port : Int
  slot : Int
  tags : List String := []
  scanRate : Int
  cipTypes : GoMap String String := ∅
  structTypes : GoMap String String := ∅
  deadbands : GoMap String DeadBandConfig := ∅
  disableRBE : GoMap String Bool := ∅

structure OpcUASubscribeRequest where
  subscriberID : String
  deviceID : String
  endpointURL : String
  nodeIDs : List String := []
  scanRate : Int

structure SNMPSubscribeRequest where
  subscriberID : String
  deviceID : String
  host : String
  port : Int
  version : String
  community : String
  v3Auth : Option V3Auth := none
  oids : List String := []
  scanRate : Int

structure ModbusScannerSubscribeRequest where
  subscriberID : String
  deviceID : String
  host : String
  port : Int
  unitID : Int
  byteOrder : String := ""
  scanRate : Int
  tags : List ModbusTagConfig := []

/-- What stands under a key of a scanner's bucket, as the scanner decodes it. -/
inductive SubscribeRecord where
  | ethernetip (req : EthernetIPSubscribeRequest)
  | opcua (req : OpcUASubscribeRequest)
  | modbus (req : ModbusScannerSubscribeRequest)
  | snmp (req : SNMPSubscribeRequest)

def SubscribeRecord.subscriberID : SubscribeRecord → String
  | .ethernetip req => req.subscriberID
  | .opcua req => req.subscriberID
  | .modbus req => req.subscriberID
  | .snmp req => req.subscriberID

def SubscribeRecord.deviceID : SubscribeRecord → String
  | .ethernetip req => req.deviceID
  | .opcua req => req.deviceID
  | .modbus req => req.deviceID
  | .snmp req => req.deviceID

/-- A `KVPut`. -/
structure KvWrite (P : Type) where
  bucket : String
  key : String
  payload : P

/-! ## The gateway -/

section Gateway

variable (subscriberID deviceID : String) (device : GatewayDeviceConfig)
  (vars : GoMap String GatewayVariableConfig)

def gatewayEthernetIP (udtVariables : GoMap String GatewayUdtVariableConfig) :
    EthernetIPSubscribeRequest where
  subscriberID := subscriberID
  deviceID := deviceID
  host := device.host
  port := device.port.getD 44818
  slot := device.slot.getD 0
  tags := vars.entries.map (·.2.tag)
  scanRate := device.scanRate.getD 1000
  cipTypes := vars.entries.foldl (fun m e =>
    if e.2.cipType = "" then m else m.insert e.2.tag e.2.cipType) ∅
  structTypes := udtVariables.entries.foldl (fun m e =>
    if e.2.deviceID = deviceID then m.insert e.2.tag e.2.templateName else m) ∅
  deadbands := vars.entries.foldl (fun m e =>
    match e.2.deadband with
    | none => m
    | some d => m.insert e.2.tag d) ∅
  disableRBE := vars.entries.foldl (fun m e =>
    if e.2.disableRBE then m.insert e.2.tag true else m) ∅

def gatewayOpcUA : OpcUASubscribeRequest where
  subscriberID := subscriberID
  deviceID := deviceID
  endpointURL := device.endpointURL
  nodeIDs := vars.entries.map (·.2.tag)
  scanRate := device.scanRate.getD 1000

def gatewaySNMP : SNMPSubscribeRequest where
  subscriberID := subscriberID
  deviceID := deviceID
  host := device.host
  port := device.port.getD 161
  version := device.version
  community := device.community
  v3Auth := device.v3Auth
  oids := vars.entries.map (·.2.tag)
  scanRate := device.scanRate.getD 5000

def gatewayModbus : ModbusScannerSubscribeRequest where
  subscriberID := subscriberID
  deviceID := deviceID
  host := device.host
  port := device.port.getD 502
  unitID := device.unitID.getD 1
  byteOrder := device.byteOrder
  scanRate := device.scanRate.getD 1000
  tags := vars.entries.map fun e =>
    { id := e.2.tag
      address := e.2.address.getD 0
      functionCode := (e.2.functionCode.map functionCodeToString).getD "holding"
      datatype := if e.2.modbusDatatype = "" then "uint16" else e.2.modbusDatatype
      byteOrder := if e.2.byteOrder = "" then device.byteOrder else e.2.byteOrder }

end Gateway

/-- A device that manages itself or has no scanner gets no record. The protocol of the PROFINET
controller has a bucket but no case, so that its payload stays nil. -/
def writeSubscriptionConfig (gatewayID : String)
    (udtVariables : GoMap String GatewayUdtVariableConfig) (deviceID : String)
    (device : GatewayDeviceConfig) (vars : GoMap String GatewayVariableConfig) :
    Option (KvWrite (Option SubscribeRecord)) :=
  if device.autoManaged then none
  else if scannerBucket device.protocol = "" then none
  else
    let subscriberID := "gateway-" ++ gatewayID
    some
      { bucket := scannerBucket device.protocol
        key := subscriberID ++ "." ++ deviceID
        payload :=
          if device.protocol = "ethernetip" then
            some (.ethernetip (gatewayEthernetIP subscriberID deviceID device vars udtVariables))
          else if device.protocol = "opcua" then
            some (.opcua (gatewayOpcUA subscriberID deviceID device vars))
          else if device.protocol = "snmp" then
            some (.snmp (gatewaySNMP subscriberID deviceID device vars))
          else if device.protocol = "modbus" then
            some (.modbus (gatewayModbus subscriberID deviceID device vars))
          else none }

/-- Which devices get a record does not depend on their variables. -/
theorem writeSubscriptionConfig_cases (gatewayID : String)
    (udtVariables : GoMap String GatewayUdtVariableConfig) (deviceID : String)
    (device : GatewayDeviceConfig) (vars : GoMap String GatewayVariableConfig) :
    ((device.autoManaged = true ∨ scannerBucket device.protocol = "") ∧
      writeSubscriptionConfig gatewayID udtVariables deviceID device vars = none) ∨
    (device.autoManaged = false ∧ scannerBucket device.protocol ≠ "" ∧ ∃ payload,
      writeSubscriptionConfig gatewayID udtVariables deviceID device vars =
        some ⟨scannerBucket device.protocol, "gateway-" ++ gatewayID ++ "." ++ deviceID,
          payload⟩) := by
  cases hauto : device.autoManaged with
  | true => exact .inl ⟨.inl rfl, by rw [writeSubscriptionConfig, if_pos hauto]⟩
  | false =>
    by_cases hbucket : scannerBucket device.protocol = ""
    · exact .inl ⟨.inr hbucket, by rw [writeSubscriptionConfig, if_pos hbucket, ite_self]⟩
    · refine .inr ⟨rfl, hbucket, ?_⟩
      rw [writeSubscriptionConfig, hauto, if_neg Bool.false_ne_true, if_neg hbucket]
      exact ⟨_, rfl⟩

/-- A record stands under the key of its gateway and its device. -/
theorem writeSubscriptionConfig_ids {gatewayID : String}
    {udtVariables : GoMap String GatewayUdtVariableConfig} {deviceID : String}
    {device : GatewayDeviceConfig} {vars : GoMap String GatewayVariableConfig}
    {w : KvWrite (Option SubscribeRecord)} {record : SubscribeRecord}
    (h : writeSubscriptionConfig gatewayID udtVariables deviceID device vars = some w)
    (hrecord : w.payload = some record) :
    w.key = "gateway-" ++ gatewayID ++ "." ++ deviceID ∧
      record.subscriberID = "gateway-" ++ gatewayID ∧ record.deviceID = deviceID := by
  unfold writeSubscriptionConfig at h
  split at h
  · cases h
  · split at h
    · cases h
    · cases h
      refine ⟨rfl, ?_⟩
      simp only at hrecord
      split at hrecord
      · cases hrecord
        exact ⟨rfl, rfl⟩
      · split at hrecord
        · cases hrecord
          exact ⟨rfl, rfl⟩
        · split at hrecord
          · cases hrecord
            exact ⟨rfl, rfl⟩
          · split at hrecord
            · cases hrecord
              exact ⟨rfl, rfl⟩
            · cases hrecord

/-! ## The scanner -/

/-- The subscriber and the device that a scanner takes a deleted key to be for. -/
def deletedSubscription (key : String) : Option (String × String) := splitKey key

/-- A key is split at its first dot. -/
theorem splitKey_eq_some {key subscriberID deviceID : String}
    (h : splitKey key = some (subscriberID, deviceID)) :
    key.toList = subscriberID.toList ++ '.' :: deviceID.toList ∧ '.' ∉ subscriberID.toList := by
  have hsplit : key.toList = key.toList.takeWhile (· ≠ '.') ++ key.toList.dropWhile (· ≠ '.') :=
    List.takeWhile_append_dropWhile.symm
  simp only [splitKey, Option.map_eq_some_iff, Prod.mk.injEq, Subjects.afterDot] at h
  obtain ⟨rest, hrest, rfl, rfl⟩ := h
  cases hdrop : key.toList.dropWhile (· ≠ '.') with
  | nil =>
    rw [hdrop] at hrest
    cases hrest
  | cons c tail =>
    rw [hdrop] at hrest hsplit
    cases hrest
    have hc : c = '.' := by
      have hhead := List.head?_dropWhile_not (fun c : Char => decide (c ≠ '.')) key.toList
      rw [hdrop] at hhead
      simpa using hhead
    subst hc
    refine ⟨by simpa using hsplit, ?_⟩
    intro hmem
    have htake := List.mem_takeWhile_imp (by simpa using hmem)
    simp at htake

/-- So a subscriber without a dot is split off its device. -/
theorem splitKey_dot {subscriberID : String} (h : '.' ∉ subscriberID.toList) (deviceID : String) :
    splitKey (subscriberID ++ "." ++ deviceID) = some (subscriberID, deviceID) := by
  have hkey : (subscriberID ++ "." ++ deviceID).toList =
      subscriberID.toList ++ '.' :: deviceID.toList := by
    simp
  have htake : (subscriberID.toList ++ '.' :: deviceID.toList).takeWhile (· ≠ '.') =
      subscriberID.toList := by
    rw [List.takeWhile_append_of_pos]
    · simp
    · intro c hc
      simp only [ne_eq, decide_not, Bool.not_eq_true', decide_eq_false_iff_not]
      rintro rfl
      exact h hc
  rw [splitKey, hkey, Subjects.afterDot_append h, htake]
  simp

end ScannerRecords
