import Mathlib.Data.List.Induction
import Tentacle.GatewayVariables
import Tentacle.ModbusCodec
import Tentacle.Runs

/-!
# The Modbus scanner

The devices of the scanner with the tags of their subscribers, and the handler of
write commands, up to the request that it builds for the device. A command
carries an object with the value; tags are writable only if their subscription
says so.
-/

namespace ModbusScanner

open GoValues IeeeFloat Subjects ModbusCodec
open GatewayVariables (BusMessage)

structure ModbusTagConfig where
  id : String
  description : String := ""
  address : Int
  functionCode : String
  datatype : String
  byteOrder : String := ""
  writable : Bool := false
  deriving DecidableEq, Repr

structure SubscribeRequest where
  subscriberID : String
  deviceID : String
  host : String
  port : Int := 0
  unitID : Int := 0
  byteOrder : String := ""
  scanRate : Int := 0
  tags : List ModbusTagConfig

structure UnsubscribeRequest where
  subscriberID : String
  deviceID : String
  tagIDs : List String := []

structure Subscriber where
  subscriberID : String
  scanRate : Int
  tags : GoMap String ModbusTagConfig

structure DeviceState where
  deviceID : String
  host : String
  port : Int
  unitID : UInt8
  byteOrder : String
  subscribers : GoMap String Subscriber := ∅
  allTags : GoMap String ModbusTagConfig := ∅
  connected : Bool := false

structure Scanner where
  devices : GoMap String DeviceState

def Scanner.start : Scanner := ⟨∅⟩

/-! ## Requests -/

/-- The defaults that a tag of a request gets. -/
def tagConfig (req : SubscribeRequest) (tag : ModbusTagConfig) : ModbusTagConfig :=
  { tag with
    functionCode := if tag.functionCode = "" then "holding" else tag.functionCode
    datatype := if tag.datatype = "" then "uint16" else tag.datatype
    byteOrder := if tag.byteOrder = "" then req.byteOrder else tag.byteOrder }

def newSubscriber (req : SubscribeRequest) : Subscriber where
  subscriberID := req.subscriberID
  scanRate := if req.scanRate ≤ 0 then 1000 else req.scanRate
  tags := req.tags.foldl (fun tags tag => tags.insert tag.id (tagConfig req tag)) ∅

def newDevice (req : SubscribeRequest) : DeviceState where
  deviceID := req.deviceID
  host := req.host
  port := if req.port = 0 then 502 else req.port
  unitID := UInt8.ofNat (toUint 8 (if req.unitID = 0 then 1 else req.unitID))
  byteOrder := req.byteOrder

/-- The tags of all subscribers; of two with one ID the last in the order of the
map stays. The read blocks that the poll loop makes of them are left out. -/
def rebuildDevicePlan (dev : DeviceState) (order : List String) : DeviceState :=
  { dev with
    allTags := (order.filterMap dev.subscribers.lookup).foldl (fun tags sub =>
      sub.tags.entries.foldl (fun tags e => tags.insert e.1 e.2) tags) ∅ }

/-- The device of a request, with its subscriber added or replaced. -/
def withSubscriber (s : Scanner) (req : SubscribeRequest) : DeviceState :=
  let dev := (s.devices.lookup req.deviceID).getD (newDevice req)
  { dev with subscribers := dev.subscribers.insert req.subscriberID (newSubscriber req) }

def handleSubscribe (s : Scanner) (req : SubscribeRequest) (order : List String) :
    Scanner × Except String Unit :=
  if req.deviceID = "" ∨ req.host = "" then (s, .error "deviceId and host are required")
  else
    (⟨s.devices.insert req.deviceID (rebuildDevicePlan (withSubscriber s req) order)⟩, .ok ())

/-- The subscribers after a request to take tags away; no tags stand for all. -/
def removeSubscriber (subscribers : GoMap String Subscriber) (req : UnsubscribeRequest) :
    GoMap String Subscriber :=
  if req.tagIDs = [] then subscribers.erase req.subscriberID
  else
    match subscribers.lookup req.subscriberID with
    | none => subscribers
    | some sub =>
      let tags := req.tagIDs.foldl (fun tags tagID => tags.erase tagID) sub.tags
      if tags.keys = [] then subscribers.erase req.subscriberID
      else subscribers.insert req.subscriberID { sub with tags := tags }

def handleUnsubscribe (s : Scanner) (req : UnsubscribeRequest) (order : List String) : Scanner :=
  match s.devices.lookup req.deviceID with
  | none => s
  | some dev =>
    let dev := { dev with subscribers := removeSubscriber dev.subscribers req }
    if dev.subscribers.keys = [] then ⟨s.devices.erase req.deviceID⟩
    else ⟨s.devices.insert req.deviceID (rebuildDevicePlan dev order)⟩

/-! ## Commands -/

/-- A write request to a device: FC05, FC06 or FC16. -/
inductive WriteRequest where
  | singleCoil (addr : UInt16) (value : Bool)
  | singleRegister (addr : UInt16) (value : UInt16)
  | multipleRegisters (addr : UInt16) (data : Bytes)
  deriving DecidableEq, Repr

structure WriteAttempt where
  deviceID : String
  unitID : UInt8
  request : WriteRequest
  deriving DecidableEq, Repr

def fcNameToCode (name : String) : Nat :=
  if name = "coil" then 1
  else if name = "discrete" then 2
  else if name = "holding" then 3
  else if name = "input" then 4
  else 3

/-- `json.Unmarshal` into a struct with the field `value`; letter case does not
matter, and of several such fields the last one counts. A `null` leaves the struct as it
is, and any other value is an error. -/
def parseCommand : Json Double → Option (Json Double)
  | .object fields =>
    some (((fields.findRev? fun f => f.1.toLower = "value").map (·.2)).getD .null)
  | .null => some .null
  | _ => none

/-- The dynamic type of a decoded value. -/
def goValue : Json Double → GoValue
  | .bool b => .bool b
  | .number x => .float64 x
  | _ => .other

/-- The request that writes the value to the tag. -/
def writeRequest (tag : ModbusTagConfig) (deviceByteOrder : String) (value : GoValue) :
    Option WriteRequest :=
  let addr := UInt16.ofNat (toUint 16 tag.address)
  let byteOrder :=
    if tag.byteOrder ≠ "" then tag.byteOrder
    else if deviceByteOrder ≠ "" then deviceByteOrder
    else "ABCD"
  if fcNameToCode tag.functionCode = 1 then (toBool value).map (.singleCoil addr)
  else
    match encodeValue value (.ofString tag.datatype) (.ofString byteOrder) with
    | .error _ => none
    | .ok (encoded, regCount) =>
      if regCount = 1 then
        some (.singleRegister addr (UInt16.ofNat (BigEndian.uint (encoded.take 2))))
      else some (.multipleRegisters addr encoded)

/-- The tag if the device has it and may write it. -/
def writableTag (tagID : String) (dev : DeviceState) : Option ModbusTagConfig :=
  (dev.allTags.lookup tagID).filter (·.writable)

/-- The first device that may write the tag takes the command, in whatever order
the map has. -/
def handleCommand (s : Scanner) (order : List String) (subject : String) (data : Json Double) :
    Option WriteAttempt :=
  (thirdPart subject).bind fun tagID =>
    (parseCommand data).bind fun value =>
      (firstMatch s.devices order fun dev => (writableTag tagID dev).isSome).bind fun dev =>
        (writableTag tagID dev).bind fun tag =>
          if dev.connected then
            (writeRequest tag dev.byteOrder (goValue value)).map (⟨dev.deviceID, dev.unitID, ·⟩)
          else none

/-- What the scanner does about a message on the bus; `none` are bytes that are
not JSON. -/
def receive (s : Scanner) (order : List String) (msg : BusMessage (Option (Json Double))) :
    Option WriteAttempt :=
  if matchSubject (commandWildcard "modbus") msg.subject then
    msg.data.bind (handleCommand s order msg.subject)
  else none

/-! ## Runs -/

inductive ScannerAction where
  | subscribe (req : SubscribeRequest) (order : List String)
  | unsubscribe (req : UnsubscribeRequest) (order : List String)
  | setConnected (deviceID : String) (connected : Bool)

/-- The poll loop of a device connects and disconnects it. -/
def step (s : Scanner) : ScannerAction → Option Scanner
  | .subscribe req order =>
    if order.Perm (withSubscriber s req).subscribers.keys then
      some (handleSubscribe s req order).1
    else none
  | .unsubscribe req order =>
    if (s.devices.lookup req.deviceID).all fun dev =>
        order.Perm (removeSubscriber dev.subscribers req).keys then
      some (handleUnsubscribe s req order)
    else none
  | .setConnected deviceID connected =>
    (s.devices.lookup deviceID).map fun dev =>
      ⟨s.devices.insert deviceID { dev with connected := connected }⟩

/-! ## Tags without permission -/

/-- No subscriber of any device has a writable tag. -/
structure ReadOnly (dev : DeviceState) : Prop where
  subscribers : ∀ id sub, dev.subscribers.lookup id = some sub → ∀ tagID tag,
    sub.tags.lookup tagID = some tag → tag.writable = false
  allTags : ∀ tagID tag, dev.allTags.lookup tagID = some tag → tag.writable = false

/-- A plan that is built of read-only subscribers has no writable tag. -/
theorem readOnly_rebuildDevicePlan {dev : DeviceState} (order : List String)
    (h : ∀ id sub, dev.subscribers.lookup id = some sub → ∀ tagID tag,
      sub.tags.lookup tagID = some tag → tag.writable = false) :
    ReadOnly (rebuildDevicePlan dev order) := by
  refine ⟨h, ?_⟩
  have hsubs : ∀ sub ∈ order.filterMap dev.subscribers.lookup, ∀ tagID tag,
      sub.tags.lookup tagID = some tag → tag.writable = false := by
    intro sub hsub
    obtain ⟨id, -, hlookup⟩ := List.mem_filterMap.mp hsub
    exact h id sub hlookup
  simp only [rebuildDevicePlan]
  generalize order.filterMap dev.subscribers.lookup = subs at hsubs
  -- the tags of one subscriber after the other
  suffices hfold : ∀ m : GoMap String ModbusTagConfig,
      (∀ tagID tag, m.lookup tagID = some tag → tag.writable = false) → ∀ tagID tag,
        (subs.foldl (fun tags sub => sub.tags.entries.foldl
          (fun tags e => tags.insert e.1 e.2) tags) m).lookup tagID = some tag →
        tag.writable = false from hfold ∅ (by simp)
  induction subs with
  | nil => exact fun m hm => hm
  | cons sub subs ih =>
    intro m hm
    apply ih (fun sub hsub => hsubs sub (.tail _ hsub)) _
    apply forall_lookup_foldl_insert (fun e => e.1) (fun e => e.2) sub.tags.entries m hm
    intro e he
    exact hsubs sub (.head _) e.1 e.2 ((mem_entries_iff _ _ _).mp he)

end ModbusScanner
