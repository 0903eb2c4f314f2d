import Mathlib.Data.Finset.Basic
import Mathlib.Data.List.Induction
import Tentacle.GatewaySystem

/-!
# The SNMP scanner

The connections of the scanner, the requests that add OIDs to them and take them
away, and what it does with the answer to a poll. The library that talks SNMP
names every PDU by its OID with a leading dot, whatever the spelling in the
request; whether a connection can be made, and what a device answers, is open.
-/

namespace SnmpScanner

open GoValues MqttBridge Subjects GatewaySystem

inductive PduType where
  | integer | octetString | null | objectIdentifier | ipAddress | counter32 | gauge32 | timeTicks
  | opaqueValue | counter64 | noSuchObject | noSuchInstance | endOfMibView
  | other (code : Nat)
  deriving DecidableEq, Repr

/-- What `pduToValue` makes of a PDU. -/
inductive PduValue where
  | int64 (n : Int)
  | uint64 (n : Nat)
  | string (s : String)
  | null
  deriving DecidableEq, Repr

structure SnmpPdu where
  name : String
  type : PduType
  value : PduValue
  deriving DecidableEq, Repr

structure CachedVar where
  oid : String
  snmpType : String := ""
  datatype : String := ""
  value : PduValue := .null
  quality : String := "unknown"
  lastRead : Int := 0
  deriving DecidableEq, Repr

structure DeviceConnection where
  deviceID : String
  host : String
  port : Int
  version : String
  community : String
  scanRate : Int
  useBulkGet : Bool
  vars : GoMap String CachedVar := ∅
  subscribers : GoMap String (Finset String) := ∅

structure Scanner where
  connections : GoMap String DeviceConnection

structure SubscribeRequest where
  deviceID : String
  host : String
  port : Int := 0
  version : String := ""
  community : String := ""
  oids : List String
  scanRate : Int := 0
  subscriberID : String
  useBulkGet : Bool := false

structure UnsubscribeRequest where
  deviceID : String
  oids : List String
  subscriberID : String

def Scanner.start : Scanner := ⟨∅⟩

/-! ## Requests -/

/-- The versions other than these two are read as `v2c`. -/
def parseVersion (v : String) : String := if v = "v1" ∨ v = "v3" then v else "v2c"

def newConnection (req : SubscribeRequest) : DeviceConnection :=
  { deviceID := req.deviceID
    host := req.host
    port := if req.port = 0 then 161 else req.port
    version := parseVersion req.version
    community := req.community
    scanRate := if req.scanRate ≤ 0 then 5000 else req.scanRate
    useBulkGet := req.useBulkGet }

/-- The body of the loop over the OIDs of a request; a variable that is there
keeps its value. -/
def subscribeOid (req : SubscribeRequest) (conn : DeviceConnection) (oid : String) :
    DeviceConnection :=
  { conn with
    subscribers := conn.subscribers.insert req.subscriberID
      (insert oid ((conn.subscribers.lookup req.subscriberID).getD ∅))
    vars :=
      match conn.vars.lookup oid with
      | none => conn.vars.insert oid { oid := oid }
      | some _ => conn.vars }

def SubscribeRequest.complete (req : SubscribeRequest) : Bool :=
  req.deviceID ≠ "" && req.host ≠ "" && req.subscriberID ≠ "" && !req.oids.isEmpty

/-- The scanner after the request, and the answer: the number of OIDs. A device
without a connection is connected first, which may fail with an error. -/
def handleSubscribe (s : Scanner) (req : SubscribeRequest) (connect : Except String Unit) :
    Scanner × Except String Nat :=
  if req.complete then
    match s.connections.lookup req.deviceID, connect with
    | none, .error e => (s, .error ("connect failed: " ++ e))
    | none, .ok _ =>
      (⟨s.connections.insert req.deviceID
        (req.oids.foldl (subscribeOid req) (newConnection req))⟩, .ok req.oids.length)
    | some conn, _ =>
      (⟨s.connections.insert req.deviceID (req.oids.foldl (subscribeOid req) conn)⟩,
        .ok req.oids.length)
  else (s, .error "missing required fields")

/-- Unlike in the other scanners, a request without OIDs takes none away. -/
def removeSubscriber (subscribers : GoMap String (Finset String)) (req : UnsubscribeRequest) :
    GoMap String (Finset String) :=
  match subscribers.lookup req.subscriberID with
  | none => subscribers
  | some subs =>
    let rest := req.oids.foldl Finset.erase subs
    if rest = ∅ then subscribers.erase req.subscriberID
    else subscribers.insert req.subscriberID rest

def handleUnsubscribe (s : Scanner) (req : UnsubscribeRequest) : Scanner × Nat :=
  match s.connections.lookup req.deviceID with
  | none => (s, 0)
  | some conn =>
    let subscribers := removeSubscriber conn.subscribers req
    if subscribers.keys = [] then (⟨s.connections.erase req.deviceID⟩, req.oids.length)
    else (⟨s.connections.insert req.deviceID { conn with subscribers := subscribers }⟩,
      req.oids.length)

/-! ## Polls -/

def pduTypeToString : PduType → String
  | .integer => "Integer32"
  | .octetString => "OctetString"
  | .null => "Null"
  | .objectIdentifier => "ObjectIdentifier"
  | .ipAddress => "IpAddress"
  | .counter32 => "Counter32"
  | .gauge32 => "Gauge32"
  | .timeTicks => "TimeTicks"
  | .opaqueValue => "Opaque"
  | .counter64 => "Counter64"
  | .noSuchObject => "NoSuchObject"
  | .noSuchInstance => "NoSuchInstance"
  | .endOfMibView => "EndOfMibView"
  | .other code => "Unknown(" ++ toString code ++ ")"

def snmpToNatsDatatype (snmpType : String) : String :=
  if snmpType ∈ ["Integer32", "Counter32", "Counter64", "Gauge32", "Unsigned32", "TimeTicks"] then
    "number"
  else "string"

def PduType.isError (t : PduType) : Bool :=
  t ∈ [.noSuchObject, .noSuchInstance, .endOfMibView]

section Polls

variable {F64 : Type} (decodeNumber : Int → F64) (resolveOidName : String → String)

/-- The value as the gateway decodes it. -/
def PduValue.toJson : PduValue → Json F64
  | int64 n => .number (decodeNumber n)
  | uint64 n => .number (decodeNumber n)
  | string s => .string s
  | null => .null

/-- The message as the gateway decodes it; it knows nothing of the OID. -/
def dataMessage (conn : DeviceConnection) (pdu : SnmpPdu) (now : Int) : PlcDataMessage F64 :=
  { moduleID := "snmp"
    deviceID := conn.deviceID
    variableID := resolveOidName pdu.name
    value := pdu.value.toJson decodeNumber
    timestamp := now
    datatype := snmpToNatsDatatype (pduTypeToString pdu.type) }

def publication (conn : DeviceConnection) (pdu : SnmpPdu) (now : Int) : Publication F64 where
  subject := data "snmp" (sanitizeForSubject conn.deviceID) (sanitizeOidForSubject pdu.name)
  data := some (.value (dataMessage decodeNumber resolveOidName conn pdu now))

def readVar (pdu : SnmpPdu) (now : Int) (v : CachedVar) : CachedVar :=
  { v with
    value := pdu.value
    datatype := snmpToNatsDatatype (pduTypeToString pdu.type)
    snmpType := pduTypeToString pdu.type
    quality := "good"
    lastRead := now }

def badVar (pdu : SnmpPdu) (v : CachedVar) : CachedVar :=
  { v with quality := "bad", snmpType := pduTypeToString pdu.type }

/-- The body of the loop over the PDUs of an answer. -/
def handlePdu (now : Int) (conn : DeviceConnection) (pdu : SnmpPdu) :
    DeviceConnection × Option (Publication F64) :=
  match conn.vars.lookup pdu.name with
  | none => (conn, none)
  | some v =>
    if pdu.type.isError then
      ({ conn with vars := conn.vars.insert pdu.name (badVar pdu v) }, none)
    else
      ({ conn with vars := conn.vars.insert pdu.name (readVar pdu now v) },
        if v.value ≠ pdu.value then some (publication decodeNumber resolveOidName conn pdu now)
        else none)

/-- What one request of a poll comes back with: an error, or the PDUs. -/
inductive Answer where
  | failed (batch : List String)
  | answered (pdus : List SnmpPdu)

/-- A failed request leaves its variables bad. -/
def failBatch (conn : DeviceConnection) (batch : List String) : DeviceConnection :=
  { conn with vars := batch.foldl (fun vars oid =>
      (vars.lookup oid).elim vars fun v => vars.insert oid { v with quality := "bad" }) conn.vars }

def handleAnswer (now : Int) (s : DeviceConnection × List (Publication F64)) :
    Answer → DeviceConnection × List (Publication F64)
  | .failed batch => (failBatch s.1 batch, s.2)
  | .answered pdus =>
    pdus.foldl (fun s pdu =>
      let next := handlePdu decodeNumber resolveOidName now s.1 pdu
      (next.1, s.2 ++ next.2.toList)) s

/-- A poll, from the answers to its requests on. -/
def pollOnce (now : Int) (conn : DeviceConnection) (answers : List Answer) :
    DeviceConnection × List (Publication F64) :=
  answers.foldl (handleAnswer decodeNumber resolveOidName now) (conn, [])

/-! ## Runs -/

inductive ScannerAction where
  | subscribe (req : SubscribeRequest) (connect : Except String Unit)
  | unsubscribe (req : UnsubscribeRequest)
  | poll (deviceID : String) (answers : List Answer) (now : Int)

def step (s : Scanner) : ScannerAction → Option Scanner
  | .subscribe req connect => some (handleSubscribe s req connect).1
  | .unsubscribe req => some (handleUnsubscribe s req).1
  | .poll deviceID answers now =>
    (s.connections.lookup deviceID).map fun conn =>
      ⟨s.connections.insert deviceID
        (pollOnce decodeNumber resolveOidName now conn answers).1⟩

/-- Every connection is that of the device it is found under. -/
def Keyed (s : Scanner) : Prop :=
  ∀ deviceID conn, s.connections.lookup deviceID = some conn → conn.deviceID = deviceID

theorem Keyed.insert {s : Scanner} (h : Keyed s) {deviceID : String} {conn : DeviceConnection}
    (hconn : conn.deviceID = deviceID) : Keyed ⟨s.connections.insert deviceID conn⟩ :=
  forall_lookup_insert (P := fun d (c : DeviceConnection) => c.deviceID = d) h hconn

theorem deviceID_subscribeOids (req : SubscribeRequest) (oids : List String)
    (conn : DeviceConnection) :
    (oids.foldl (subscribeOid req) conn).deviceID = conn.deviceID := by
  induction oids generalizing conn with
  | nil => rfl
  | cons oid oids ih => exact ih _

theorem deviceID_handlePdu (now : Int) (conn : DeviceConnection) (pdu : SnmpPdu) :
    (handlePdu decodeNumber resolveOidName now conn pdu).1.deviceID = conn.deviceID := by
  rw [handlePdu]
  split
  · rfl
  · split <;> rfl

theorem deviceID_handleAnswer (now : Int) (s : DeviceConnection × List (Publication F64))
    (answer : Answer) :
    (handleAnswer decodeNumber resolveOidName now s answer).1.deviceID = s.1.deviceID := by
  cases answer with
  | failed batch => rfl
  | answered pdus =>
    rw [handleAnswer]
    induction pdus generalizing s with
    | nil => rfl
    | cons pdu pdus ih => exact (ih _).trans (deviceID_handlePdu decodeNumber resolveOidName ..)

theorem deviceID_pollOnce (now : Int) (conn : DeviceConnection) (answers : List Answer) :
    (pollOnce decodeNumber resolveOidName now conn answers).1.deviceID = conn.deviceID := by
  induction answers using List.reverseRecOn with
  | nil => rfl
  | append_singleton answers answer ih =>
    rw [pollOnce, List.foldl_append]
    exact (deviceID_handleAnswer decodeNumber resolveOidName ..).trans ih

/-- Every connection stays under the name of its device. -/
theorem step_keyed {s t : Scanner} {act : ScannerAction} (hs : Keyed s)
    (hstep : step decodeNumber resolveOidName s act = some t) : Keyed t := by
  cases act with
  | subscribe req connect =>
    cases hstep
    unfold handleSubscribe
    split
    · split
      · exact hs
      · exact hs.insert (deviceID_subscribeOids req req.oids _)
      next conn hconn =>
        exact hs.insert ((deviceID_subscribeOids req req.oids _).trans (hs _ _ hconn))
    · exact hs
  | unsubscribe req =>
    cases hstep
    rw [handleUnsubscribe]
    split
    · exact hs
    next conn hconn =>
      dsimp only
      split
      · exact forall_lookup_erase hs req.deviceID
      · exact hs.insert (show conn.deviceID = _ from hs _ _ hconn)
  | poll deviceID answers now =>
    obtain ⟨conn, hconn, rfl⟩ := Option.map_eq_some_iff.mp hstep
    exact hs.insert ((deviceID_pollOnce decodeNumber resolveOidName ..).trans (hs _ _ hconn))

theorem keyed_of_reaches {s : Scanner}
    (h : Runs.Reaches (step decodeNumber resolveOidName) Scanner.start s) : Keyed s := by
  obtain ⟨acts, hrun⟩ := h
  refine Runs.run_preserves (fun _ _ _ => step_keyed decodeNumber resolveOidName) ?_ hrun
  intro d c hc
  simp [Scanner.start] at hc

end Polls

end SnmpScanner
