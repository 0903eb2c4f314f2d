import Tentacle.ModbusScanner

/-!
# Writes from the gateway to Modbus devices

The gateway tells the Modbus scanner in a subscription record which tags it wants,
and forwards commands as they come. Neither fits the scanner: the record never
makes a tag writable, and a command is the plain value, where the scanner expects
an object around it. So no command for a Modbus variable is ever written.
-/

namespace ModbusWrites

open GoValues IeeeFloat Subjects GatewayVariables ModbusCodec ModbusScanner Runs
open ModbusScanner (step)

/-! ## The subscription record -/

section Record

variable {F64 : Type}

def functionCodeToString (fc : Int) : String :=
  if fc = 1 then "coil"
  else if fc = 2 then "discrete"
  else if fc = 3 then "holding"
  else if fc = 4 then "input"
  else "holding"

def modbusStringFCToInt (fc : String) : Int :=
  if fc = "coil" then 1
  else if fc = "discrete" then 2
  else if fc = "holding" then 3
  else if fc = "input" then 4
  else 3

/-- The tag of a variable in the record. -/
def modbusTag (device : GatewayDeviceConfig F64) (v : GatewayVariableConfig F64) :
    ModbusTagConfig :=
  { id := v.tag
    address := v.address.getD 0
    functionCode := (v.functionCode.map functionCodeToString).getD "holding"
    datatype := if v.modbusDatatype = "" then "uint16" else v.modbusDatatype
    byteOrder := if v.byteOrder = "" then device.byteOrder else v.byteOrder }

/-- The variable that stands for a member of a UDT in the record of its device. -/
def syntheticVariable (config : GatewayConfig F64) (device : GatewayDeviceConfig F64)
    (udtVar : GatewayUdtVariableConfig) (memberName memberTag : String) :
    GatewayVariableConfig F64 :=
  let member := (config.udtTemplates.lookup udtVar.templateName).bind fun tmpl =>
    tmpl.members.find? (·.name = memberName)
  { id := "__udt__" ++ udtVar.id ++ "__" ++ memberName
    deviceID := udtVar.deviceID
    tag := memberTag
    datatype := "number"
    cipType := (udtVar.memberCipTypes.lookup memberName).getD ""
    functionCode :=
      if device.protocol = "modbus" then
        ((member.map (·.functionCode)).filter (· ≠ "")).map modbusStringFCToInt
      else none
    modbusDatatype :=
      if device.protocol = "modbus" then (member.map (·.modbusDatatype)).getD "" else ""
    address :=
      if device.protocol = "modbus" then udtVar.memberAddresses.lookup memberName else none
    byteOrder :=
      if device.protocol = "modbus" then (udtVar.memberByteOrders.lookup memberName).getD "" else "" }

/-- The variables of a device, those for UDT members included. -/
def deviceGroup (config : GatewayConfig F64) (deviceID : String)
    (device : GatewayDeviceConfig F64) : GoMap String (GatewayVariableConfig F64) :=
  let atomic := config.variableConfigs.entries.foldl (fun group e =>
    if e.2.deviceID = deviceID then group.insert e.1 e.2 else group) ∅
  config.udtVariables.entries.foldl (fun group e =>
    if e.2.deviceID = deviceID then
      e.2.memberTags.entries.foldl (fun group m =>
        let v := syntheticVariable config device e.2 m.1 m.2
        group.insert v.id v) group
    else group) atomic

/-- `writeSubscriptionConfig` for a Modbus device. -/
def modbusSubscribeRequest (config : GatewayConfig F64) (deviceID : String)
    (device : GatewayDeviceConfig F64) : Option SubscribeRequest :=
  if device.autoManaged ∨ device.protocol ≠ "modbus" then none
  else some
    { subscriberID := "gateway-" ++ gatewayModuleID
      deviceID := deviceID
      host := device.host
      port := device.port.getD 502
      unitID := device.unitID.getD 1
      byteOrder := device.byteOrder
      scanRate := device.scanRate.getD 1000
      tags := (deviceGroup config deviceID device).entries.map fun e => modbusTag device e.2 }

end Record

/-! ## Commands -/

/-- What a message on the gateway's command subject leads to. -/
def commandAttempt (config : GatewayConfig Double) (s : Scanner) (gwOrder order : List String)
    (msg : BusMessage (Option (Json Double))) : Option WriteAttempt :=
  (GatewayVariables.handleCommand (applyConfig config) gwOrder msg).bind (receive s order)

/-- A bidirectional variable of a Modbus device, on a holding register or a coil. -/
structure CommandVariable (config : GatewayConfig Double) where
  varID : String
  varCfg : GatewayVariableConfig Double
  device : GatewayDeviceConfig Double
  configured : config.variableConfigs.lookup varID = some varCfg
  bidirectional : varCfg.bidirectional = true
  known : config.devices.lookup varCfg.deviceID = some device
  modbus : device.protocol = "modbus"
  writable : (modbusTag device varCfg).functionCode ∈ ["holding", "coil"]

/-- A JSON value that is neither an object nor an array. -/
inductive Scalar where
  | null
  | bool (b : Bool)
  | number (x : Double)
  | string (s : String)

def Scalar.toJson : Scalar → Json Double
  | null => .null
  | bool b => .bool b
  | number x => .number x
  | string s => .string s

/-- The value, published on the variable's command subject, is written once: to
its device, at its address, with its function code and in its datatype. -/
def WrittenOnce {config : GatewayConfig Double} (var : CommandVariable config) (s : Scanner)
    (v : Scalar) : Prop :=
  ∀ gwOrder : List String, gwOrder.Perm (applyConfig config).tracked.keys →
    ∀ order : List String, order.Perm s.devices.keys →
      ∃ attempt, commandAttempt config s gwOrder order
          ⟨command gatewayModuleID (sanitizeForSubject var.varCfg.tag), some v.toJson⟩ =
            some attempt ∧
        attempt.deviceID = var.varCfg.deviceID ∧
        writeRequest (modbusTag var.device var.varCfg) var.device.byteOrder (goValue v.toJson) =
          some attempt.request

theorem encodeValue_other (datatype : Datatype) (byteOrder : ByteOrder) :
    ∃ e, encodeValue .other datatype byteOrder = .error e := by
  cases datatype <;> exact ⟨_, rfl⟩

theorem writeRequest_other (tag : ModbusTagConfig) (deviceByteOrder : String) :
    writeRequest tag deviceByteOrder .other = none := by
  rw [writeRequest]
  split
  · rfl
  · rw [(encodeValue_other _ _).choose_spec]

/-- A plain value is no command to the scanner, and `null` is a command without a
value; neither is written, whatever tags there are. -/
theorem handleCommand_scalar (s : Scanner) (order : List String) (subject : String) (v : Scalar) :
    ModbusScanner.handleCommand s order subject v.toJson = none := by
  rw [ModbusScanner.handleCommand]
  cases v with
  | null => simp [Scalar.toJson, parseCommand, goValue, writeRequest_other]
  | bool b => simp [Scalar.toJson, parseCommand]
  | number x => simp [Scalar.toJson, parseCommand]
  | string text => simp [Scalar.toJson, parseCommand]

theorem receive_scalar (s : Scanner) (order : List String) (subject : String) (v : Scalar) :
    receive s order ⟨subject, some v.toJson⟩ = none := by
  rw [receive]
  split
  · exact handleCommand_scalar s order subject v
  · rfl

/-- A scalar makes the scanner attempt no write. -/
theorem commandAttempt_scalar (config : GatewayConfig Double) (s : Scanner)
    {gwOrder : List String} (hgw : gwOrder.Perm (applyConfig config).tracked.keys)
    (order : List String) (subject : String) (v : Scalar) :
    commandAttempt config s gwOrder order ⟨subject, some v.toJson⟩ = none := by
  rw [commandAttempt, Option.bind_eq_none_iff]
  rintro ⟨subject', data⟩ hout
  -- the gateway changes the subject only
  obtain ⟨-, -, -, hdata⟩ := handleCommand_mem hgw hout
  rw [show data = some v.toJson from hdata]
  exact receive_scalar s order subject' v

/-- No value that is published for a variable of a Modbus device is written, in
whatever state the scanner is. -/
theorem never_written {config : GatewayConfig Double} (var : CommandVariable config) (s : Scanner)
    (v : Scalar) : ¬ WrittenOnce var s v := by
  intro hwritten
  obtain ⟨attempt, hattempt, -⟩ := hwritten _ (.refl _) _ (.refl _)
  rw [commandAttempt_scalar config s (.refl _)] at hattempt
  cases hattempt

/-! ## Permission -/

/-- The requests of a run are records of the gateway. -/
def FromGateway (_ : Scanner) : ScannerAction → Prop
  | .subscribe req _ => ∃ (config : GatewayConfig Double) (deviceID : String)
      (device : GatewayDeviceConfig Double),
      modbusSubscribeRequest config deviceID device = some req
  | _ => True

/-- The gateway subscribes to read-only tags. -/
theorem writable_modbusSubscribeRequest {config : GatewayConfig Double} {deviceID : String}
    {device : GatewayDeviceConfig Double} {req : SubscribeRequest}
    (h : modbusSubscribeRequest config deviceID device = some req) :
    ∀ tag ∈ req.tags, tag.writable = false := by
  rw [modbusSubscribeRequest] at h
  split at h
  · cases h
  · cases h
    intro tag htag
    obtain ⟨e, -, rfl⟩ := List.mem_map.mp htag
    rfl

/-- No device has a writable tag. -/
def AllReadOnly (s : Scanner) : Prop :=
  ∀ deviceID dev, s.devices.lookup deviceID = some dev → ReadOnly dev

theorem AllReadOnly.insert {s : Scanner} (h : AllReadOnly s) (deviceID : String)
    {dev : DeviceState} (hdev : ReadOnly dev) :
    AllReadOnly ⟨s.devices.insert deviceID dev⟩ :=
  forall_lookup_insert (P := fun _ dev => ReadOnly dev) h hdev

theorem newSubscriber_readOnly {req : SubscribeRequest}
    (hreq : ∀ tag ∈ req.tags, tag.writable = false) :
    ∀ tagID tag, (newSubscriber req).tags.lookup tagID = some tag → tag.writable = false :=
  forall_lookup_foldl_insert (P := fun _ (tag : ModbusTagConfig) => tag.writable = false)
    ModbusTagConfig.id (tagConfig req) req.tags ∅ (by simp) hreq

/-- A subscriber with read-only tags leaves the device without a writable one. -/
theorem withSubscriber_readOnly {s : Scanner} (hs : AllReadOnly s) {req : SubscribeRequest}
    (hreq : ∀ tag ∈ req.tags, tag.writable = false) :
    ∀ id sub, (withSubscriber s req).subscribers.lookup id = some sub → ∀ tagID tag,
      sub.tags.lookup tagID = some tag → tag.writable = false := by
  refine forall_lookup_insert ?_ (newSubscriber_readOnly hreq)
  intro id sub hsub
  cases hdev : s.devices.lookup req.deviceID with
  | none =>
    rw [hdev] at hsub
    simp [newDevice] at hsub
  | some dev =>
    rw [hdev] at hsub
    exact (hs _ _ hdev).subscribers id sub hsub

/-- A subscriber that goes makes no tag writable. -/
theorem removeSubscriber_readOnly {dev : DeviceState} (hdev : ReadOnly dev)
    (req : UnsubscribeRequest) :
    ∀ id sub, (removeSubscriber dev.subscribers req).lookup id = some sub → ∀ tagID tag,
      sub.tags.lookup tagID = some tag → tag.writable = false := by
  rw [removeSubscriber]
  split
  · exact forall_lookup_erase hdev.subscribers req.subscriberID
  · split
    · exact hdev.subscribers
    next old hold =>
      dsimp only
      split
      · exact forall_lookup_erase hdev.subscribers req.subscriberID
      · apply forall_lookup_insert hdev.subscribers
        intro tagID tag htag
        rw [lookup_foldl_erase] at htag
        split at htag
        · cases htag
        · exact hdev.subscribers _ old hold tagID tag htag

/-- Requests of the gateway leave every device read-only. -/
theorem step_readOnly {s t : Scanner} {act : ScannerAction} (hs : AllReadOnly s)
    (hact : FromGateway s act) (hstep : step s act = some t) : AllReadOnly t := by
  cases act with
  | subscribe req order =>
    obtain ⟨config, deviceID, device, hreq⟩ := hact
    rw [step] at hstep
    split at hstep
    · cases hstep
      rw [handleSubscribe]
      split
      · exact hs
      · exact hs.insert _ (readOnly_rebuildDevicePlan order
          (withSubscriber_readOnly hs (writable_modbusSubscribeRequest hreq)))
    · cases hstep
  | unsubscribe req order =>
    rw [step] at hstep
    split at hstep
    · cases hstep
      rw [handleUnsubscribe]
      split
      · exact hs
      next dev hdev =>
        dsimp only
        split
        · exact forall_lookup_erase hs req.deviceID
        · exact hs.insert _ (readOnly_rebuildDevicePlan order
            (removeSubscriber_readOnly (hs _ _ hdev) req))
    · cases hstep
  | setConnected deviceID connected =>
    obtain ⟨dev, hdev, rfl⟩ := Option.map_eq_some_iff.mp hstep
    exact hs.insert _ ⟨(hs _ _ hdev).subscribers, (hs _ _ hdev).allTags⟩

/-- While the gateway alone subscribes, the scanner refuses every command,
whatever it carries. -/
theorem refused_of_fromGateway {s : Scanner} {acts : List ScannerAction}
    (hacts : Meets step FromGateway Scanner.start acts)
    (hrun : run step Scanner.start acts = some s) (order : List String)
    (msg : BusMessage (Option (Json Double))) : receive s order msg = none := by
  have hreadOnly : AllReadOnly s := by
    refine run_invariant (fun _ _ _ => step_readOnly) ?_ hacts hrun
    intro d c hc
    simp [Scanner.start] at hc
  have hnone : ∀ tagID, firstMatch s.devices order (fun dev => (writableTag tagID dev).isSome) =
      none := by
    intro tagID
    rw [← Option.not_isSome_iff_eq_none, Option.isSome_iff_exists]
    rintro ⟨dev, hfirst⟩
    obtain ⟨hwritable, deviceID, hdev⟩ := firstMatch_eq_some hfirst
    obtain ⟨tag, htag⟩ := Option.isSome_iff_exists.mp hwritable
    rw [writableTag, Option.filter_eq_some_iff] at htag
    have hfalse := (hreadOnly _ _ hdev).allTags tagID tag htag.1
    rw [hfalse] at htag
    cases htag.2
  rw [receive]
  split
  · cases msg.data with
    | none => rfl
    | some data => simp [ModbusScanner.handleCommand, hnone]
  · rfl

/-! ## A coil -/

def pumpDevice : GatewayDeviceConfig Double := { protocol := "modbus", host := "10.0.0.5" }

def pumpVariable : GatewayVariableConfig Double :=
  { id := "run"
    deviceID := "plc1"
    tag := "run"
    datatype := "boolean"
    bidirectional := true
    functionCode := some 1
    address := some 5
    modbusDatatype := "boolean" }

def pumpConfig : GatewayConfig Double where
  devices := AList.singleton "plc1" pumpDevice
  variableConfigs := AList.singleton "run" pumpVariable
  udtTemplates := ∅
  udtVariables := ∅

def pumpCommand : CommandVariable pumpConfig where
  varID := "run"
  varCfg := pumpVariable
  device := pumpDevice
  configured := rfl
  bidirectional := rfl
  known := rfl
  modbus := rfl
  writable := by decide

/-- The record of the gateway for the pump. -/
def pumpRecord : SubscribeRequest where
  subscriberID := "gateway-gateway"
  deviceID := "plc1"
  host := "10.0.0.5"
  port := 502
  unitID := 1
  scanRate := 1000
  tags := [{ id := "run", address := 5, functionCode := "coil", datatype := "boolean" }]

/-- The coil could be written, the device is connected, and nothing is written. -/
theorem coil_not_written :
    modbusSubscribeRequest pumpConfig "plc1" pumpDevice = some pumpRecord ∧
      ∃ s, run step Scanner.start
          [.subscribe pumpRecord ["gateway-gateway"], .setConnected "plc1" true] = some s ∧
        writeRequest (modbusTag pumpDevice pumpVariable) "" (.bool true) =
          some (.singleCoil 5 true) ∧
        ¬ WrittenOnce pumpCommand s (.bool true) := by
  refine ⟨rfl, _, rfl, by decide, ?_⟩
  intro hwritten
  obtain ⟨attempt, hattempt, -⟩ := hwritten _ (.refl _) _ (.refl _)
  rw [commandAttempt_scalar pumpConfig _ (.refl _)] at hattempt
  cases hattempt

end ModbusWrites
