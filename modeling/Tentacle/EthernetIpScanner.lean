import Mathlib.Data.Finset.Basic
import Mathlib.Data.List.Induction
import Tentacle.GatewaySystem

/-!
# The EtherNet/IP scanner

The connections of the scanner, the requests that add tags to them and take them
away, the publication of what a poll has read, and the handler of commands. Tag
handles belong to the PLC library: what a poll reads, and whether a write
succeeds, is open here. A subscription adds variables to a connection, and only
the end of the connection removes them.
-/

namespace EthernetIpScanner

open GoValues Rbe MqttBridge Subjects GatewaySystem
open GatewayVariables (BusMessage)

structure CachedVar (F64 : Type) where
  tagName : String
  cipType : String
  datatype : String := ""
  value : Json F64 := .null
  quality : String := "unknown"
  lastRead : Int := 0
  lastChanged : Int := 0
  deadband : Option (DeadBandConfig F64) := none
  disableRBE : Bool := false
  rbeState : State F64 := {}

structure DeviceConnection (F64 : Type) where
  deviceID : String
  gateway : String
  port : Int
  slot : Int
  scanRate : Int
  vars : GoMap String (CachedVar F64) := ∅
  structTypes : GoMap String String := ∅
  subscribers : GoMap String (Finset String) := ∅

structure Scanner (F64 : Type) where
  connections : GoMap String (DeviceConnection F64)

structure SubscribeRequest (F64 : Type) where
  deviceID : String
  host : String
  port : Int := 0
  slot : Int := 0
  tags : List String
  cipTypes : GoMap String String := ∅
  structTypes : GoMap String String := ∅
  deadbands : GoMap String (DeadBandConfig F64) := ∅
  disableRBE : GoMap String Bool := ∅
  scanRate : Int := 0
  subscriberID : String

structure UnsubscribeRequest where
  deviceID : String
  tags : List String
  subscriberID : String

/-- What a poll has read from a tag. -/
structure TagResult (F64 : Type) where
  name : String
  value : Json F64
  cipType : String

/-- A write to a tag of a device, with the bytes of the command. -/
structure WriteAttempt (D : Type) where
  deviceID : String
  gateway : String
  port : Int
  slot : Int
  tag : String
  cipType : String
  data : D
  deriving DecidableEq, Repr

def cipToNatsDatatype (cipType : String) : String :=
  if cipType = "BOOL" then "boolean"
  else if cipType ∈ ["SINT", "INT", "DINT", "LINT", "USINT", "UINT", "UDINT", "ULINT", "REAL",
      "LREAL", "STIME", "DATE", "TIME_OF_DAY", "DATE_AND_TIME", "BYTE", "WORD", "DWORD", "LWORD",
      "BIT_STRING"] then "number"
  else "string"

variable {F64 D : Type}

def Scanner.start : Scanner F64 := ⟨∅⟩

/-! ## Requests -/

def newCachedVar (req : SubscribeRequest F64) (tagName : String) : CachedVar F64 :=
  { tagName := tagName
    cipType := (req.cipTypes.lookup tagName).getD ""
    deadband := req.deadbands.lookup tagName
    disableRBE := (req.disableRBE.lookup tagName).getD false }

/-- A tag that is subscribed again reports its next value in any case. -/
def updateCachedVar (req : SubscribeRequest F64) (tagName : String) (existing : CachedVar F64) :
    CachedVar F64 :=
  { existing with
    cipType := ((req.cipTypes.lookup tagName).filter (· ≠ "")).getD existing.cipType
    deadband := (req.deadbands.lookup tagName).or existing.deadband
    disableRBE := (req.disableRBE.lookup tagName).getD existing.disableRBE
    rbeState := {} }

/-- The body of the loop over the tags of a request. -/
def subscribeTag (req : SubscribeRequest F64) (conn : DeviceConnection F64) (tagName : String) :
    DeviceConnection F64 :=
  { conn with
    subscribers := conn.subscribers.insert req.subscriberID
      (insert tagName ((conn.subscribers.lookup req.subscriberID).getD ∅))
    vars := conn.vars.insert tagName
      (match conn.vars.lookup tagName with
        | none => newCachedVar req tagName
        | some existing => updateCachedVar req tagName existing) }

def SubscribeRequest.rate (req : SubscribeRequest F64) : Int :=
  if req.scanRate ≤ 0 then 1000 else req.scanRate

def newConnection (req : SubscribeRequest F64) : DeviceConnection F64 :=
  { deviceID := req.deviceID
    gateway := req.host
    port := req.port
    slot := req.slot
    scanRate := req.rate }

def subscribeConnection (req : SubscribeRequest F64) (conn : DeviceConnection F64) :
    DeviceConnection F64 :=
  req.tags.foldl (subscribeTag req)
    { conn with
      scanRate := req.rate
      structTypes := req.structTypes.entries.foldl (fun m e => m.insert e.1 e.2) conn.structTypes }

def SubscribeRequest.complete (req : SubscribeRequest F64) : Bool :=
  req.deviceID ≠ "" && req.host ≠ "" && req.subscriberID ≠ "" && !req.tags.isEmpty

/-- The scanner after the request, and the answer: the number of tags. -/
def handleSubscribe (s : Scanner F64) (req : SubscribeRequest F64) :
    Scanner F64 × Except String Nat :=
  if req.complete then
    (⟨s.connections.insert req.deviceID (subscribeConnection req
      ((s.connections.lookup req.deviceID).getD (newConnection req)))⟩, .ok req.tags.length)
  else (s, .error "missing required fields")

/-- The subscribers after a request to take tags away; no tags stand for all. -/
def removeSubscriber (subscribers : GoMap String (Finset String)) (req : UnsubscribeRequest) :
    GoMap String (Finset String) :=
  match subscribers.lookup req.subscriberID with
  | none => subscribers
  | some subs =>
    let rest := if req.tags = [] then ∅ else req.tags.foldl Finset.erase subs
    if rest = ∅ then subscribers.erase req.subscriberID
    else subscribers.insert req.subscriberID rest

def handleUnsubscribe (s : Scanner F64) (req : UnsubscribeRequest) : Scanner F64 × Nat :=
  match s.connections.lookup req.deviceID with
  | none => (s, 0)
  | some conn =>
    let subscribers := removeSubscriber conn.subscribers req
    if subscribers.keys = [] then (⟨s.connections.erase req.deviceID⟩, req.tags.length)
    else (⟨s.connections.insert req.deviceID { conn with subscribers := subscribers }⟩,
      req.tags.length)

/-! ## Polls -/

section Polls

variable [GoFloat64 F64] (finite : F64 → Bool)

/-- `json.Marshal` of a scalar: a number that is not finite has no encoding, and
the message is sent without bytes. -/
def marshals : Json F64 → Bool
  | .number x => finite x
  | _ => true

/-- What a result changes in the variable before it is published. -/
def readVar (r : TagResult F64) (now : Int) (v : CachedVar F64) : CachedVar F64 :=
  { v with
    value := r.value
    datatype := cipToNatsDatatype r.cipType
    cipType := if v.cipType = "" then r.cipType else v.cipType
    quality := "good"
    lastRead := now }

def dataMessage (conn : DeviceConnection F64) (v : Option (CachedVar F64)) (r : TagResult F64)
    (now : Int) : PlcDataMessage F64 :=
  { moduleID := "ethernetip"
    deviceID := conn.deviceID
    variableID := r.name
    value := r.value
    timestamp := now
    datatype := cipToNatsDatatype r.cipType
    deadband := v.bind (·.deadband)
    disableRBE := v.any (·.disableRBE) }

def publication (conn : DeviceConnection F64) (v : Option (CachedVar F64)) (r : TagResult F64)
    (now : Int) : Publication F64 where
  subject := data "ethernetip" (sanitizeForSubject conn.deviceID) (sanitizeTagForSubject r.name)
  data :=
    if marshals finite r.value then some (.value (dataMessage conn v r now)) else none

/-- The body of the loop over the results of a poll. -/
def publishResult (now : Int) (conn : DeviceConnection F64) (r : TagResult F64) :
    DeviceConnection F64 × Option (Publication F64) :=
  match conn.vars.lookup r.name with
  | none => (conn, some (publication finite conn none r now))
  | some v =>
    let read := readVar r now v
    if shouldPublish read.rbeState r.value now read.deadband read.disableRBE then
      let sent := { read with rbeState := recordPublish r.value now, lastChanged := now }
      ({ conn with vars := conn.vars.insert r.name sent },
        some (publication finite conn (some sent) r now))
    else ({ conn with vars := conn.vars.insert r.name read }, none)

/-- A poll of the connection, from the results of its reads on. -/
def pollOnce (now : Int) (conn : DeviceConnection F64) (results : List (TagResult F64)) :
    DeviceConnection F64 × List (Publication F64) :=
  results.foldl (fun s r =>
    let next := publishResult finite now s.1 r
    (next.1, s.2 ++ next.2.toList)) (conn, [])

end Polls

/-! ## Commands -/

/-- What follows `ethernetip.command.` in a subject. -/
def commandTag (subj : String) : Option String :=
  if subj.length ≤ "ethernetip.command.".length then none
  else some (String.ofList (subj.toList.drop "ethernetip.command.".length))

/-- The first connection with a variable of that name, in whatever order the map
has, takes the write. -/
def handleCommand (s : Scanner F64) (order : List String) (msg : BusMessage D) :
    Option (WriteAttempt D) :=
  (commandTag msg.subject).bind fun tagName =>
    (firstMatch s.connections order fun conn => (conn.vars.lookup tagName).isSome).map
      fun conn =>
        { deviceID := conn.deviceID
          gateway := conn.gateway
          port := conn.port
          slot := conn.slot
          tag := tagName
          cipType := ((conn.vars.lookup tagName).map (·.cipType)).getD ""
          data := msg.data }

/-- What the scanner does about a message on the bus. -/
def receive (s : Scanner F64) (order : List String) (msg : BusMessage D) :
    Option (WriteAttempt D) :=
  if matchSubject (commandWildcard "ethernetip") msg.subject then handleCommand s order msg
  else none

/-! ## Runs -/

inductive ScannerAction (F64 : Type) where
  | subscribe (req : SubscribeRequest F64)
  | unsubscribe (req : UnsubscribeRequest)
  | poll (deviceID : String) (results : List (TagResult F64)) (now : Int)

section Runs

variable [GoFloat64 F64] (finite : F64 → Bool)

/-- A poll reads each variable of the connection at most once. -/
def step (s : Scanner F64) : ScannerAction F64 → Option (Scanner F64)
  | .subscribe req => some (handleSubscribe s req).1
  | .unsubscribe req => some (handleUnsubscribe s req).1
  | .poll deviceID results now =>
    (s.connections.lookup deviceID).bind fun conn =>
      if (results.map (·.name)).Nodup ∧ ∀ r ∈ results, (conn.vars.lookup r.name).isSome then
        some ⟨s.connections.insert deviceID (pollOnce finite now conn results).1⟩
      else none

end Runs

/-- Every connection is that of the device it is found under. -/
def Keyed (s : Scanner F64) : Prop :=
  ∀ deviceID conn, s.connections.lookup deviceID = some conn →
    conn.deviceID = deviceID ∧ deviceID ≠ ""

theorem Keyed.insert {s : Scanner F64} (h : Keyed s) {deviceID : String}
    {conn : DeviceConnection F64} (hconn : conn.deviceID = deviceID) (hne : deviceID ≠ "") :
    Keyed ⟨s.connections.insert deviceID conn⟩ :=
  forall_lookup_insert (P := fun d (c : DeviceConnection F64) => c.deviceID = d ∧ d ≠ "") h ⟨hconn, hne⟩

@[simp] theorem deviceID_foldl_subscribeTag (req : SubscribeRequest F64) (tags : List String)
    (conn : DeviceConnection F64) :
    (tags.foldl (subscribeTag req) conn).deviceID = conn.deviceID := by
  induction tags generalizing conn with
  | nil => rfl
  | cons tag tags ih => exact ih (subscribeTag req conn tag)

@[simp] theorem deviceID_subscribeConnection (req : SubscribeRequest F64)
    (conn : DeviceConnection F64) : (subscribeConnection req conn).deviceID = conn.deviceID := by
  rw [subscribeConnection, deviceID_foldl_subscribeTag]

section Runs

variable [GoFloat64 F64] (finite : F64 → Bool)

@[simp] theorem deviceID_publishResult (now : Int) (conn : DeviceConnection F64)
    (r : TagResult F64) : (publishResult finite now conn r).1.deviceID = conn.deviceID := by
  rw [publishResult]
  split
  · rfl
  · dsimp only
    split <;> rfl

@[simp] theorem deviceID_pollOnce (now : Int) (conn : DeviceConnection F64)
    (results : List (TagResult F64)) :
    (pollOnce finite now conn results).1.deviceID = conn.deviceID := by
  induction results using List.reverseRecOn with
  | nil => rfl
  | append_singleton results r ih =>
    rw [pollOnce, List.foldl_append, List.foldl_cons, List.foldl_nil, deviceID_publishResult]
    exact ih

/-- Every connection stays under the name of its device. -/
theorem step_keyed {s t : Scanner F64} {act : ScannerAction F64} (hs : Keyed s)
    (hstep : step finite s act = some t) : Keyed t := by
  cases act with
  | subscribe req =>
    cases hstep
    rw [handleSubscribe]
    split
    next hcomplete =>
      simp only [SubscribeRequest.complete, Bool.and_eq_true, decide_eq_true_eq] at hcomplete
      refine hs.insert ?_ hcomplete.1.1.1
      rw [deviceID_subscribeConnection]
      cases hconn : s.connections.lookup req.deviceID with
      | none => rfl
      | some conn => exact (hs _ _ hconn).1
    next => exact hs
  | unsubscribe req =>
    cases hstep
    rw [handleUnsubscribe]
    split
    · exact hs
    next conn hconn =>
      dsimp only
      split
      · exact forall_lookup_erase hs req.deviceID
      · exact hs.insert (hs _ _ hconn).1 (hs _ _ hconn).2
  | poll deviceID results now =>
    obtain ⟨conn, hconn, hstep⟩ := Option.bind_eq_some_iff.mp hstep
    split at hstep
    · cases hstep
      refine hs.insert ?_ (hs _ _ hconn).2
      rw [deviceID_pollOnce]
      exact (hs _ _ hconn).1
    · cases hstep

theorem keyed_of_reaches {s : Scanner F64} (h : Runs.Reaches (step finite) Scanner.start s) :
    Keyed s := by
  obtain ⟨acts, hrun⟩ := h
  refine Runs.run_preserves (fun _ _ _ => step_keyed finite) ?_ hrun
  intro d c hc
  simp [Scanner.start] at hc

/-- Every tag of every device can come to have a connection that no poll has
read yet. -/
theorem exists_connection {deviceID : String} (hne : deviceID ≠ "") (tag : String) :
    ∃ s : Scanner F64, Runs.Reaches (step finite) Scanner.start s ∧
      ∃ conn v, s.connections.lookup deviceID = some conn ∧ conn.vars.lookup tag = some v ∧
        v.rbeState = {} := by
  let req : SubscribeRequest F64 :=
    { deviceID := deviceID, host := "10.0.0.1", tags := [tag], subscriberID := "gateway" }
  have hcomplete : req.complete = true := by
    simp [req, SubscribeRequest.complete, hne]
  refine ⟨(handleSubscribe Scanner.start req).1, .step (a := .subscribe req) rfl, ?_⟩
  rw [handleSubscribe, if_pos hcomplete]
  refine ⟨_, newCachedVar req tag, AList.lookup_insert _, ?_, rfl⟩
  exact AList.lookup_insert _

end Runs

end EthernetIpScanner
