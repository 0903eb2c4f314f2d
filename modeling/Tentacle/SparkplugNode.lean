import Tentacle.SparkplugPayload

/-!
# The Sparkplug edge node

The critical sections of `SparkplugNode`: each definition is what one method
does between taking and releasing the node's lock. What the MQTT library
answers is an argument of the step that asks it, and so is the error that
`proto.Marshal` ends with, if any; the bytes it makes are not followed further.
A Go map is ranged over in any order, so a birth is given the order it uses.
-/

namespace SparkplugNode

open GoValues SparkplugPayload

inductive NodeState where
  | disconnected
  | dead
  | born
  deriving DecidableEq, Repr

def NodeState.code : NodeState → Nat
  | .disconnected => 0
  | .dead => 1
  | .born => 2

/-- The fields of `MqttBridgeConfig` that the node reads. -/
structure Config where
  groupID : String
  edgeNode : String
  primaryHostID : String
  bdSeqFile : String
  deriving DecidableEq, Repr

/-- A paho client: the will in the options it was created with, and whether its
session with the broker is open. -/
structure Client (F32 F64 : Type) where
  will : Payload F32 F64
  connected : Bool

structure Node (F32 F64 : Type) where
  config : Config
  state : NodeState
  client : Option (Client F32 F64)
  bdSeq : Nat
  seq : Nat
  nodeMetrics : List (Metric F32 F64)
  deviceMetrics : GoMap String (List (Metric F32 F64))
  hostOnline : Bool
  hostStateTimestamp : Int
  birthed : Bool
  /-- The `onStateChange` goroutines that were started and have yet to run. -/
  callbacks : List NodeState

inductive MessageType where
  | nbirth
  | dbirth (deviceID : String)
  | ddata (deviceID : String)
  | ndeath
  deriving DecidableEq, Repr

/-- A message handed to the MQTT client without an error. -/
structure Message (F32 F64 : Type) where
  type : MessageType
  topic : String
  payload : Payload F32 F64

/-- `none` for an NDEATH, which has no sequence number. -/
def Message.seq {F32 F64 : Type} (m : Message F32 F64) : Option Nat :=
  if m.payload.omitSeq then none else some m.payload.seq

/-- The error that the token of a publish of this type ends with, if any. -/
abbrev Broker := MessageType → Option String

def accepting : Broker := fun _ => none

def refusing : Broker := fun _ => some "not Connected"

/-- Every message encodes, as messages with valid text do. -/
def marshals {F32 F64 : Type} : PbPayload F32 F64 → Option String := fun _ => none

def topic (config : Config) (messageType : String) : String :=
  "spBv1.0/" ++ config.groupID ++ "/" ++ messageType ++ "/" ++ config.edgeNode

def deviceTopic (config : Config) (messageType deviceID : String) : String :=
  "spBv1.0/" ++ config.groupID ++ "/" ++ messageType ++ "/" ++ config.edgeNode ++ "/" ++ deviceID

def MessageType.topic (config : Config) : MessageType → String
  | .nbirth => SparkplugNode.topic config "NBIRTH"
  | .dbirth deviceID => deviceTopic config "DBIRTH" deviceID
  | .ddata deviceID => deviceTopic config "DDATA" deviceID
  | .ndeath => SparkplugNode.topic config "NDEATH"

section Start

variable {F32 F64 : Type}

/-- `unicode.IsSpace`. -/
def isSpace (c : Char) : Bool :=
  c.toNat ∈ [9, 10, 11, 12, 13, 32, 0x85, 0xA0, 0x1680, 0x2028, 0x2029, 0x202F, 0x205F, 0x3000] ||
    (0x2000 ≤ c.toNat && c.toNat ≤ 0x200A)

def trimSpace (cs : List Char) : List Char :=
  ((cs.dropWhile isSpace).reverse.dropWhile isSpace).reverse

/-- `strconv.ParseUint(s, 10, 64)`. -/
def parseUint (cs : List Char) : Option Nat :=
  if cs ≠ [] ∧ cs.all Char.isDigit then
    let v := cs.foldl (fun v c => 10 * v + (c.toNat - '0'.toNat)) 0
    if v < 2 ^ 64 then some v else none
  else none

/-- The number in the bdSeq file, when it can be read and parsed. -/
def savedBdSeq (file : Option String) : Option Nat :=
  file.bind (fun s => parseUint (trimSpace s.toList))

def newSparkplugNode (cfg : Config) (file : Option String) : Node F32 F64 :=
  { config := cfg
    state := .disconnected
    client := none
    bdSeq :=
      if cfg.bdSeqFile ≠ "" then
        match savedBdSeq file with
        | none => 0
        | some v => (v + 1) % 256
      else 0
    seq := 0
    nodeMetrics := []
    deviceMetrics := ∅
    hostOnline := false
    hostStateTimestamp := 0
    birthed := false
    callbacks := [] }

def setStateLocked (n : Node F32 F64) (s : NodeState) : Node F32 F64 :=
  if n.state = s then n else { n with state := s, callbacks := n.callbacks ++ [s] }

end Start

section Methods

variable {F32 F64 : Type} [GoFloats F32 F64] (marshal : PbPayload F32 F64 → Option String)

/-- The error of `EncodePayload`, if any. -/
def encodeError (p : Payload F32 F64) : Option String :=
  match toPb p with
  | .error e => some e
  | .ok pbp => marshal pbp

def ndeathPayload (now bdSeq : Nat) : Payload F32 F64 :=
  { timestamp := now, seq := 0, omitSeq := true, metrics := [newUInt64Metric "bdSeq" now bdSeq] }

/-- `Connect`; `dial` is the error of the TLS configuration or of the broker. -/
def connect (now : Nat) (dial : Option String) (n : Node F32 F64) :
    Except String (Node F32 F64) :=
  if n.state ≠ .disconnected then
    .error ("node is already connected (state=" ++ toString n.state.code ++ ")")
  else
    let will := ndeathPayload now n.bdSeq
    match encodeError marshal will with
    | some e => .error ("encode NDEATH: " ++ e)
    | none =>
      match dial with
      | some e => .error e
      | none => .ok (setStateLocked { n with client := some ⟨will, true⟩ } .dead)

/-- `writeBdSeq` after a successful `Connect`. -/
def writeBdSeq (n : Node F32 F64) (file : Option String) : Option String :=
  if n.config.bdSeqFile ≠ "" then some (toString n.bdSeq) else file

/-- The locked section of `onConnect`. -/
def onConnect (n : Node F32 F64) : Node F32 F64 :=
  { setStateLocked n .dead with birthed := false, hostOnline := false, hostStateTimestamp := 0 }

/-- The connection-lost handler. -/
def connectionLost (n : Node F32 F64) : Node F32 F64 := setStateLocked n .dead

/-- `EncodePayload`, then `client.Publish` and the error of its token; an
encoding error is wrapped by `wrap`. -/
def publish (broker : Broker) (config : Config) (wrap : String → String) (type : MessageType)
    (payload : Payload F32 F64) : Except String (Message F32 F64) :=
  match encodeError marshal payload with
  | some e => .error (wrap e)
  | none =>
    match broker type with
    | some e => .error e
    | none => .ok ⟨type, type.topic config, payload⟩

def publishDeviceBirthLocked (broker : Broker) (now : Nat) (deviceID : String)
    (metrics : List (Metric F32 F64)) (n : Node F32 F64) :
    Node F32 F64 × List (Message F32 F64) :=
  let seq := (n.seq + 1) % 256
  let payload := { timestamp := now, seq := seq, metrics := metrics }
  let sent := publish marshal broker n.config id (.dbirth deviceID) payload
  ({ n with seq := seq }, sent.toOption.toList)

/-- The loop of `Birth` over the devices. -/
def deviceBirths (broker : Broker) (now : Nat) :
    List String → Node F32 F64 → Node F32 F64 × List (Message F32 F64)
  | [], n => (n, [])
  | deviceID :: order, n =>
    match n.deviceMetrics.lookup deviceID with
    | none => deviceBirths broker now order n
    | some metrics =>
      let (n, sent) := publishDeviceBirthLocked marshal broker now deviceID metrics n
      let (n, rest) := deviceBirths broker now order n
      (n, sent ++ rest)

def nbirthPayload (now : Nat) (n : Node F32 F64) : Payload F32 F64 :=
  { timestamp := now
    seq := 0
    metrics :=
      [newUInt64Metric "bdSeq" now n.bdSeq, newBoolMetric "Node Control/Rebirth" now false] ++
        n.nodeMetrics }

/-- The first tests of `Birth` under the lock: there is a session, and the
primary host is online where one is waited for. -/
def mayBirth (n : Node F32 F64) : Bool :=
  n.state ≠ .disconnected && n.client.isSome && (n.config.primaryHostID = "" || n.hostOnline)

/-- The node when its NBIRTH is out. -/
def bornNode (n : Node F32 F64) : Node F32 F64 :=
  { setStateLocked { n with seq := 0 } .born with birthed := true }

/-- `Birth` after its callback. -/
def birth (broker : Broker) (now : Nat) (order : List String) (n : Node F32 F64) :
    Node F32 F64 × List (Message F32 F64) :=
  if mayBirth n then
    match publish marshal broker n.config id .nbirth (nbirthPayload now n) with
    | .error _ => ({ n with seq := 0 }, [])
    | .ok m =>
      let (n, sent) := deviceBirths marshal broker now order (bornNode n)
      (n, m :: sent)
  else (n, [])

/-- A DDATA needs a birth first. -/
def mayPublish (n : Node F32 F64) : Bool := n.state = .born && n.client.isSome

def notBorn (n : Node F32 F64) : String :=
  "node not born (state=" ++ toString n.state.code ++ ")"

def publishDeviceData (broker : Broker) (now : Nat) (deviceID : String)
    (metrics : List (Metric F32 F64)) (n : Node F32 F64) :
    Node F32 F64 × Except String (Message F32 F64) :=
  if mayPublish n then
    let seq := (n.seq + 1) % 256
    let payload := { timestamp := now, seq := seq, metrics := metrics }
    ({ n with seq := seq },
      publish marshal broker n.config ("encode DDATA: " ++ ·) (.ddata deviceID) payload)
  else (n, .error (notBorn n))

def publishDeviceDataPayload (broker : Broker) (deviceID : String) (payload : Payload F32 F64)
    (n : Node F32 F64) : Node F32 F64 × Except String (Message F32 F64) :=
  if mayPublish n then
    let seq := (n.seq + 1) % 256
    ({ n with seq := seq },
      publish marshal broker n.config id (.ddata deviceID) { payload with seq := seq })
  else (n, .error (notBorn n))

def setNodeMetrics (metrics : List (Metric F32 F64)) (n : Node F32 F64) : Node F32 F64 :=
  { n with nodeMetrics := metrics }

/-- Also tells whether the device is new. -/
def setDeviceMetrics (deviceID : String) (metrics : List (Metric F32 F64)) (n : Node F32 F64) :
    Node F32 F64 × Bool :=
  ({ n with deviceMetrics := n.deviceMetrics.insert deviceID metrics },
    (n.deviceMetrics.lookup deviceID).isNone)

def publishDeviceBirth (broker : Broker) (now : Nat) (deviceID : String) (n : Node F32 F64) :
    Node F32 F64 × List (Message F32 F64) :=
  if mayPublish n then
    match n.deviceMetrics.lookup deviceID with
    | none => (n, [])
    | some metrics => publishDeviceBirthLocked marshal broker now deviceID metrics n
  else (n, [])

/-- `Disconnect`; errors of the NDEATH are ignored. -/
def disconnect (broker : Broker) (now : Nat) (n : Node F32 F64) :
    Node F32 F64 × List (Message F32 F64) :=
  if n.client.isNone then (n, [])
  else if n.state = .born then
    let sent := publish marshal broker n.config id .ndeath (ndeathPayload now n.bdSeq)
    (setStateLocked { n with bdSeq := (n.bdSeq + 1) % 256, client := none } .disconnected,
      sent.toOption.toList)
  else (setStateLocked { n with client := none } .disconnected, [])

/-- The first section of `Rebirth`; a `Birth` follows. -/
def markDead (n : Node F32 F64) : Node F32 F64 := setStateLocked n .dead

/-- What `processHostState` goes on to do after releasing the lock. -/
inductive AfterHostState where
  | nothing
  | birth
  | disconnect
  deriving DecidableEq, Repr

/-- `processHostState` under the lock; `none` when the STATE is ignored. -/
def processHostState (hostID : String) (online : Bool) (timestamp : Int) (n : Node F32 F64) :
    Node F32 F64 × Option AfterHostState :=
  if n.config.primaryHostID ≠ "" ∧ hostID ≠ n.config.primaryHostID then (n, none)
  else if timestamp < n.hostStateTimestamp then (n, none)
  else
    ({ n with hostStateTimestamp := timestamp, hostOnline := online },
      some (
        if n.config.primaryHostID = "" then .nothing
        else if online && !n.birthed then .birth
        else if !online && n.hostOnline && n.birthed && n.client.isSome then .disconnect
        else .nothing))

/-- The payload is encoded and its publish ends without an error. -/
def accepts (broker : Broker) (type : MessageType) (payload : Payload F32 F64) : Bool :=
  (encodeError marshal payload).isNone && (broker type).isNone

/-- The message is encoded and published, whatever number it gets. -/
def Deliverable (broker : Broker) (type : MessageType) (now : Nat)
    (metrics : List (Metric F32 F64)) : Prop :=
  ∀ seq < 256, accepts marshal broker type { timestamp := now, seq := seq, metrics := metrics }

instance Deliverable.decidable (broker : Broker) (type : MessageType) (now : Nat)
    (metrics : List (Metric F32 F64)) : Decidable (Deliverable marshal broker type now metrics) :=
  Nat.decidableBallLT 256 (fun seq _ =>
    accepts marshal broker type { timestamp := now, seq := seq, metrics := metrics })

end Methods

section Specs

variable {F32 F64 : Type}

@[simp] theorem setStateLocked_state (n : Node F32 F64) (s : NodeState) :
    (setStateLocked n s).state = s := by
  by_cases h : n.state = s <;> simp [setStateLocked, h]
@[simp] theorem setStateLocked_seq (n : Node F32 F64) (s : NodeState) :
    (setStateLocked n s).seq = n.seq := by
  by_cases h : n.state = s <;> simp [setStateLocked, h]
@[simp] theorem setStateLocked_bdSeq (n : Node F32 F64) (s : NodeState) :
    (setStateLocked n s).bdSeq = n.bdSeq := by
  by_cases h : n.state = s <;> simp [setStateLocked, h]
@[simp] theorem setStateLocked_config (n : Node F32 F64) (s : NodeState) :
    (setStateLocked n s).config = n.config := by
  by_cases h : n.state = s <;> simp [setStateLocked, h]
@[simp] theorem setStateLocked_client (n : Node F32 F64) (s : NodeState) :
    (setStateLocked n s).client = n.client := by
  by_cases h : n.state = s <;> simp [setStateLocked, h]
@[simp] theorem setStateLocked_nodeMetrics (n : Node F32 F64) (s : NodeState) :
    (setStateLocked n s).nodeMetrics = n.nodeMetrics := by
  by_cases h : n.state = s <;> simp [setStateLocked, h]
@[simp] theorem setStateLocked_deviceMetrics (n : Node F32 F64) (s : NodeState) :
    (setStateLocked n s).deviceMetrics = n.deviceMetrics := by
  by_cases h : n.state = s <;> simp [setStateLocked, h]

theorem mayPublish_born {n : Node F32 F64} (h : mayPublish n = true) : n.state = .born := by
  simp only [mayPublish, Bool.and_eq_true, decide_eq_true_eq] at h
  exact h.1

@[simp] theorem bornNode_state (n : Node F32 F64) : (bornNode n).state = .born :=
  setStateLocked_state _ _
@[simp] theorem bornNode_seq (n : Node F32 F64) : (bornNode n).seq = 0 := setStateLocked_seq _ _
@[simp] theorem bornNode_bdSeq (n : Node F32 F64) : (bornNode n).bdSeq = n.bdSeq :=
  setStateLocked_bdSeq _ _
@[simp] theorem bornNode_config (n : Node F32 F64) : (bornNode n).config = n.config :=
  setStateLocked_config _ _
@[simp] theorem bornNode_client (n : Node F32 F64) : (bornNode n).client = n.client :=
  setStateLocked_client _ _
@[simp] theorem bornNode_nodeMetrics (n : Node F32 F64) :
    (bornNode n).nodeMetrics = n.nodeMetrics := setStateLocked_nodeMetrics _ _
@[simp] theorem bornNode_deviceMetrics (n : Node F32 F64) :
    (bornNode n).deviceMetrics = n.deviceMetrics := setStateLocked_deviceMetrics _ _

@[simp] theorem processHostState_state (hostID : String) (online : Bool) (timestamp : Int)
    (n : Node F32 F64) : (processHostState hostID online timestamp n).1.state = n.state := by
  unfold processHostState
  split <;> [rfl; split <;> rfl]
@[simp] theorem processHostState_deviceMetrics (hostID : String) (online : Bool)
    (timestamp : Int) (n : Node F32 F64) :
    (processHostState hostID online timestamp n).1.deviceMetrics = n.deviceMetrics := by
  unfold processHostState
  split <;> [rfl; split <;> rfl]
@[simp] theorem processHostState_seq (hostID : String) (online : Bool) (timestamp : Int)
    (n : Node F32 F64) : (processHostState hostID online timestamp n).1.seq = n.seq := by
  unfold processHostState
  split <;> [rfl; split <;> rfl]

variable [GoFloats F32 F64] {marshal : PbPayload F32 F64 → Option String} {broker : Broker}

theorem publish_of_accepts {config : Config} {wrap : String → String} {type : MessageType}
    {payload : Payload F32 F64} (h : accepts marshal broker type payload = true) :
    publish marshal broker config wrap type payload = .ok ⟨type, type.topic config, payload⟩ := by
  simp only [accepts, Bool.and_eq_true, Option.isNone_iff_eq_none] at h
  simp [publish, h.1, h.2]

/-- A message that is published has been accepted, under its own topic. -/
theorem accepts_of_publish {config : Config} {wrap : String → String} {type : MessageType}
    {payload : Payload F32 F64} {m : Message F32 F64}
    (h : publish marshal broker config wrap type payload = .ok m) :
    accepts marshal broker type payload = true ∧ m = ⟨type, type.topic config, payload⟩ := by
  unfold publish at h
  cases he : encodeError marshal payload with
  | some e => simp [he] at h
  | none =>
    cases hb : broker type with
    | some e => simp [he, hb] at h
    | none =>
      simp only [he, hb, Except.ok.injEq] at h
      exact ⟨by simp [accepts, he, hb], h.symm⟩

theorem publish_eq_error_of_not_accepts {type : MessageType} {payload : Payload F32 F64}
    (config : Config) (wrap : String → String)
    (h : ¬ accepts marshal broker type payload = true) :
    ∃ e, publish marshal broker config wrap type payload = .error e := by
  cases hp : publish marshal broker config wrap type payload with
  | error e => exact ⟨e, rfl⟩
  | ok m => exact absurd (accepts_of_publish hp).1 h

/-- Whatever a publish hands to the client is the message it was called with. -/
theorem mem_published {config : Config} {wrap : String → String} {type : MessageType}
    {payload : Payload F32 F64} {m : Message F32 F64}
    (h : m ∈ (publish marshal broker config wrap type payload).toOption.toList) :
    m = ⟨type, type.topic config, payload⟩ := by
  cases hp : publish marshal broker config wrap type payload with
  | error e => simp [hp, Except.toOption] at h
  | ok m' =>
    simp only [hp, Except.toOption, Option.mem_toList, Option.some.injEq] at h
    rw [← h]
    exact (accepts_of_publish hp).2

theorem publishDeviceBirthLocked_fst (now : Nat) (deviceID : String)
    (metrics : List (Metric F32 F64)) (n : Node F32 F64) :
    (publishDeviceBirthLocked marshal broker now deviceID metrics n).1 =
      { n with seq := (n.seq + 1) % 256 } := rfl

/-- The loop over the devices moves the sequence number and nothing else. -/
theorem deviceBirths_fst (now : Nat) (order : List String) (n : Node F32 F64) :
    ∃ seq, (deviceBirths marshal broker now order n).1 = { n with seq := seq } := by
  induction order generalizing n with
  | nil => exact ⟨n.seq, rfl⟩
  | cons d order ih =>
    simp only [deviceBirths]
    split
    · exact ih n
    · rename_i metrics _
      obtain ⟨seq, h⟩ := ih (publishDeviceBirthLocked marshal broker now d metrics n).1
      exact ⟨seq, by rw [h, publishDeviceBirthLocked_fst]⟩

theorem publishDeviceBirthLocked_mem {now : Nat} {deviceID : String}
    {metrics : List (Metric F32 F64)} {n : Node F32 F64} {m : Message F32 F64}
    (h : m ∈ (publishDeviceBirthLocked marshal broker now deviceID metrics n).2) :
    m.type = .dbirth deviceID ∧ m.payload.metrics = metrics := by
  rw [mem_published h]
  exact ⟨rfl, rfl⟩

/-- The loop sends DBIRTHs with the metrics of their devices. -/
theorem deviceBirths_mem {now : Nat} {order : List String} {n : Node F32 F64}
    {m : Message F32 F64} (h : m ∈ (deviceBirths marshal broker now order n).2) :
    ∃ deviceID ∈ order, m.type = .dbirth deviceID ∧
      n.deviceMetrics.lookup deviceID = some m.payload.metrics := by
  induction order generalizing n with
  | nil => simp [deviceBirths] at h
  | cons d order ih =>
    cases hd : n.deviceMetrics.lookup d with
    | none =>
      simp only [deviceBirths, hd] at h
      obtain ⟨e, he, hm⟩ := ih h
      exact ⟨e, List.mem_cons_of_mem _ he, hm⟩
    | some metrics =>
      simp only [deviceBirths, hd, List.mem_append] at h
      rcases h with h | h
      · obtain ⟨ht, hm⟩ := publishDeviceBirthLocked_mem h
        exact ⟨d, List.mem_cons_self, ht, hm ▸ hd⟩
      · obtain ⟨e, he, ht, hm⟩ := ih h
        exact ⟨e, List.mem_cons_of_mem _ he, ht, hm⟩

/-- The three ways a birth can go: it is not due, its NBIRTH fails, or the
NBIRTH goes out and the devices follow. -/
theorem birth_cases (marshal : PbPayload F32 F64 → Option String) (broker : Broker) (now : Nat)
    (order : List String) (n : Node F32 F64) :
    (mayBirth n = false ∧ birth marshal broker now order n = (n, [])) ∨
    (mayBirth n = true ∧ ¬ accepts marshal broker .nbirth (nbirthPayload now n) ∧
      birth marshal broker now order n = ({ n with seq := 0 }, [])) ∨
    (mayBirth n = true ∧ accepts marshal broker .nbirth (nbirthPayload now n) ∧
      birth marshal broker now order n =
        ((deviceBirths marshal broker now order (bornNode n)).1,
          ⟨.nbirth, MessageType.nbirth.topic n.config, nbirthPayload now n⟩ ::
            (deviceBirths marshal broker now order (bornNode n)).2)) := by
  cases hmay : mayBirth n with
  | false => exact .inl ⟨rfl, by simp [birth, hmay]⟩
  | true =>
    by_cases hn : accepts marshal broker .nbirth (nbirthPayload now n) = true
    · exact .inr (.inr ⟨rfl, hn, by simp [birth, hmay, publish_of_accepts hn]⟩)
    · obtain ⟨e, he⟩ := publish_eq_error_of_not_accepts n.config id hn
      exact .inr (.inl ⟨rfl, hn, by simp [birth, hmay, he]⟩)

/-- A device is born with its metrics, or nothing happens. -/
theorem publishDeviceBirth_cases (marshal : PbPayload F32 F64 → Option String) (broker : Broker)
    (now : Nat) (deviceID : String) (n : Node F32 F64) :
    publishDeviceBirth marshal broker now deviceID n = (n, []) ∨
    ∃ metrics, mayPublish n = true ∧ n.deviceMetrics.lookup deviceID = some metrics ∧
      publishDeviceBirth marshal broker now deviceID n =
        publishDeviceBirthLocked marshal broker now deviceID metrics n := by
  cases hmay : mayPublish n with
  | false => exact .inl (by simp [publishDeviceBirth, hmay])
  | true =>
    cases hd : n.deviceMetrics.lookup deviceID with
    | none => exact .inl (by simp [publishDeviceBirth, hmay, hd])
    | some metrics => exact .inr ⟨metrics, rfl, rfl, by simp [publishDeviceBirth, hmay, hd]⟩

/-- Data are published in a born node and count on, or are refused. -/
theorem publishDeviceData_cases (marshal : PbPayload F32 F64 → Option String) (broker : Broker)
    (now : Nat) (deviceID : String) (metrics : List (Metric F32 F64)) (n : Node F32 F64) :
    (mayPublish n = false ∧
      publishDeviceData marshal broker now deviceID metrics n = (n, .error (notBorn n))) ∨
    (mayPublish n = true ∧ publishDeviceData marshal broker now deviceID metrics n =
      ({ n with seq := (n.seq + 1) % 256 },
        publish marshal broker n.config ("encode DDATA: " ++ ·) (.ddata deviceID)
          { timestamp := now, seq := (n.seq + 1) % 256, metrics := metrics })) := by
  cases hmay : mayPublish n <;> simp [publishDeviceData, hmay]

theorem publishDeviceDataPayload_cases (marshal : PbPayload F32 F64 → Option String)
    (broker : Broker) (deviceID : String) (payload : Payload F32 F64) (n : Node F32 F64) :
    (mayPublish n = false ∧
      publishDeviceDataPayload marshal broker deviceID payload n = (n, .error (notBorn n))) ∨
    (mayPublish n = true ∧ publishDeviceDataPayload marshal broker deviceID payload n =
      ({ n with seq := (n.seq + 1) % 256 },
        publish marshal broker n.config id (.ddata deviceID)
          { payload with seq := (n.seq + 1) % 256 })) := by
  cases hmay : mayPublish n <;> simp [publishDeviceDataPayload, hmay]

/-- A disconnect closes the client; a born node tries to send its NDEATH and
advances its bdSeq. -/
theorem disconnect_cases (marshal : PbPayload F32 F64 → Option String) (broker : Broker)
    (now : Nat) (n : Node F32 F64) :
    (n.client = none ∧ disconnect marshal broker now n = (n, [])) ∨
    (n.client ≠ none ∧ n.state = .born ∧ disconnect marshal broker now n =
      (setStateLocked { n with bdSeq := (n.bdSeq + 1) % 256, client := none } .disconnected,
        (publish marshal broker n.config id .ndeath
          (ndeathPayload now n.bdSeq)).toOption.toList)) ∨
    (n.client ≠ none ∧ n.state ≠ .born ∧ disconnect marshal broker now n =
      (setStateLocked { n with client := none } .disconnected, [])) := by
  cases hc : n.client with
  | none => exact .inl ⟨rfl, by simp [disconnect, hc]⟩
  | some c =>
    by_cases hb : n.state = .born
    · refine .inr (.inl ⟨nofun, hb, ?_⟩)
      simp [disconnect, hc, hb]
    · exact .inr (.inr ⟨nofun, hb, by simp [disconnect, hc, hb]⟩)

/-- No birth sends a DDATA. -/
theorem birth_not_ddata {now : Nat} {order : List String} {n : Node F32 F64}
    {m : Message F32 F64} (h : m ∈ (birth marshal broker now order n).2) (deviceID : String) :
    m.type ≠ .ddata deviceID := by
  rcases birth_cases marshal broker now order n with ⟨-, heq⟩ | ⟨-, -, heq⟩ | ⟨-, -, heq⟩
  · simp [heq] at h
  · simp [heq] at h
  · rw [heq] at h
    rcases List.mem_cons.mp h with rfl | h
    · exact nofun
    · obtain ⟨d, -, ht, -⟩ := deviceBirths_mem h
      rw [ht]
      exact nofun

theorem publishDeviceBirth_not_ddata {now : Nat} {device : String} {n : Node F32 F64}
    {m : Message F32 F64} (h : m ∈ (publishDeviceBirth marshal broker now device n).2)
    (deviceID : String) : m.type ≠ .ddata deviceID := by
  rcases publishDeviceBirth_cases marshal broker now device n with heq | ⟨metrics, -, -, heq⟩
  · simp [heq] at h
  · rw [heq] at h
    rw [(publishDeviceBirthLocked_mem h).1]
    exact nofun

/-- A disconnect sends an NDEATH at most. -/
theorem disconnect_mem {now : Nat} {n : Node F32 F64} {m : Message F32 F64}
    (h : m ∈ (disconnect marshal broker now n).2) : m.type = .ndeath := by
  rcases disconnect_cases marshal broker now n with ⟨-, heq⟩ | ⟨-, -, heq⟩ | ⟨-, -, heq⟩
  · simp [heq] at h
  · rw [heq] at h
    rw [mem_published h]
  · simp [heq] at h

theorem disconnect_node (marshal : PbPayload F32 F64 → Option String) (broker : Broker) (now : Nat)
    (n : Node F32 F64) : (disconnect marshal broker now n).1.deviceMetrics = n.deviceMetrics ∧
      ((disconnect marshal broker now n).1.state = .born → n.state = .born) := by
  rcases disconnect_cases marshal broker now n with ⟨-, heq⟩ | ⟨-, -, heq⟩ | ⟨-, -, heq⟩ <;>
    simp [heq]

/-- A connect that gets through leaves the node dead, with its will. -/
theorem connect_ok {now : Nat} {dial : Option String} {n n' : Node F32 F64}
    (h : connect marshal now dial n = .ok n') :
    n.state = .disconnected ∧
      n' = setStateLocked { n with client := some ⟨ndeathPayload now n.bdSeq, true⟩ } .dead := by
  unfold connect at h
  by_cases hs : n.state = .disconnected
  · refine ⟨hs, ?_⟩
    cases he : encodeError marshal (ndeathPayload now n.bdSeq) with
    | some e => simp [hs, he] at h
    | none =>
      cases hd : dial with
      | some e => simp [hs, he, hd] at h
      | none => simpa [hs, he, hd] using h.symm
  · simp [hs] at h

end Specs

end SparkplugNode
