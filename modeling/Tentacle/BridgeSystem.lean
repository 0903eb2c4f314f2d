import Tentacle.MqttBridge
import Tentacle.Runs
import Tentacle.SparkplugNode
import Tentacle.StoreForward

/-!
# The bridge at work

The goroutines of the bridge and of its node, one critical section at a time:
the handlers of data messages, the births with their callback, the reconciler
of the store-and-forward mode, and the drain loop. A birth is the list of the
sections it has yet to go through. The bridge's read lock is held while device
metrics are handed to the node, and blocks the sections that write.
-/

namespace BridgeSystem

open GoValues SparkplugPayload SparkplugNode MqttBridge StoreForward

/-- Where `handleDataMessage` is after its exception check: it reads the mode
of the buffer, then the state of the node, then buffers or publishes. -/
inductive Phase where
  | checkSF
  | checkNode
  | buffering
  | publishing
  deriving DecidableEq, Repr

structure Handler (F32 F64 : Type) where
  deviceID : String
  metric : Metric F32 F64
  nowMs : Nat
  phase : Phase

inductive BirthStep (F32 F64 : Type) where
  | updateNodeMetrics
  | markDead
  | buildDeviceMetrics
  | setDeviceMetrics (deviceID : String) (metrics : List (Metric F32 F64))
  | publishDeviceBirth (deviceID : String)
  | resetRBEStates
  | birth

/-- `handleHostState` and `reconcileSFState`, and what follows them. -/
inductive Reconcile where
  | setHost (online : Bool) (after : AfterHostState)
  | readNode (after : AfterHostState)
  | readHost (nodeBorn : Bool) (after : AfterHostState)
  | apply (nodeBorn hostOnline : Bool) (after : AfterHostState)
  deriving DecidableEq, Repr

/-- `accepted` records what the exception check has let through for variables
that were known; nothing reads it. -/
structure System (F32 F64 : Type) where
  bridge : Bridge F32 F64
  node : Node F32 F64
  sf : Buffer F32 F64
  handlers : List (Handler F32 F64)
  births : List (List (BirthStep F32 F64))
  reconciles : List Reconcile
  batch : List (BufferedRecord F32 F64)
  wire : List (Message F32 F64)
  accepted : List (String × Metric F32 F64)

inductive BridgeAction (F32 F64 : Type) where
  | receive (msg : PlcDataMessage F64) (nowMs : Nat)
  | checkSF (handler : Nat)
  | checkNode (handler : Nat)
  | buffer (handler : Nat)
  | publish (broker : Broker) (nowMs handler : Nat)
  | drain
  | drainPublish (broker : Broker)
  | fireTimer
  | rebirthCommand
  | birthStep (broker : Broker) (nowMs : Nat) (order : List String) (thread : Nat)
  | loadVariables (vars : List (VariableInfo F64))
  | connect (nowMs : Nat) (dial : Option String)
  | onConnect
  | connectionLost
  | disconnect (broker : Broker) (nowMs : Nat)
  | processHostState (hostID : String) (online : Bool) (timestamp : Int)
  | stateChange (callback : Nat)
  | reconcile (thread : Nat)
  | setEnabled (enabled : Bool)

variable {F32 F64 : Type}

/-- `Birth` with its callback, and `Rebirth` as the timer calls it. -/
def birthProgram : List (BirthStep F32 F64) := [.buildDeviceMetrics, .resetRBEStates, .birth]
def rebirthProgram : List (BirthStep F32 F64) := .markDead :: birthProgram

/-- The sections of `buildDeviceMetrics`, all under the bridge's read lock. -/
def BirthStep.locks : BirthStep F32 F64 → Bool
  | .setDeviceMetrics _ _ => true
  | .publishDeviceBirth _ => true
  | _ => false

/-- Some goroutine holds the bridge's read lock. -/
def Locked (s : System F32 F64) : Prop := ∃ p ∈ s.births, ∃ c ∈ p, c.locks = true

instance Locked.decidable (s : System F32 F64) : Decidable (Locked s) :=
  inferInstanceAs (Decidable (∃ p ∈ s.births, ∃ c ∈ p, c.locks = true))

section Steps

variable [GoFloats F32 F64] [GoFloat64 F64] (marshal : PbPayload F32 F64 → Option String)

def receive (s : System F32 F64) (msg : PlcDataMessage F64) (nowMs : Nat) : System F32 F64 :=
  match handleDataMessage msg nowMs s.bridge with
  | (br, .send deviceID metric) =>
    { s with
      bridge := br
      handlers := s.handlers ++ [⟨deviceID, metric, nowMs, .checkSF⟩]
      accepted := s.accepted ++ [(deviceID, metric)] }
  | (br, _) => { s with bridge := br }

/-- The payload that a handler buffers. -/
def Handler.payload (h : Handler F32 F64) : Payload F32 F64 :=
  { timestamp := h.nowMs, seq := 0, metrics := [h.metric] }

/-- The handler goes on to its next phase. -/
def setPhase (s : System F32 F64) (i : Nat) (h : Handler F32 F64) (phase : Phase) :
    System F32 F64 :=
  { s with handlers := s.handlers.set i { h with phase := phase } }

/-- The section at the head of a birth. -/
def birthStep (s : System F32 F64) (broker : Broker) (nowMs : Nat) (order : List String) (i : Nat)
    (rest : List (BirthStep F32 F64)) : BirthStep F32 F64 → Option (System F32 F64)
  | .updateNodeMetrics =>
    some { s with
      node := setNodeMetrics (nodeMetrics s.bridge nowMs) s.node
      births := s.births.set i rest }
  | .markDead => some { s with node := markDead s.node, births := s.births.set i rest }
  | .buildDeviceMetrics =>
    if order.Perm s.bridge.plcVariables.keys then
      let groups := byDevice s.bridge (order.filterMap s.bridge.plcVariables.lookup) nowMs
      some { s with
        births := s.births.set i (groups.map (fun g => .setDeviceMetrics g.1 g.2) ++ rest) }
    else none
  | .setDeviceMetrics deviceID metrics =>
    let (n, isNew) := setDeviceMetrics deviceID metrics s.node
    some { s with
      node := n
      births := s.births.set i (if isNew then .publishDeviceBirth deviceID :: rest else rest) }
  | .publishDeviceBirth deviceID =>
    let (n, sent) := publishDeviceBirth marshal broker nowMs deviceID s.node
    some { s with node := n, wire := s.wire ++ sent, births := s.births.set i rest }
  | .resetRBEStates =>
    if Locked s then none
    else some { s with bridge := resetRBEStates s.bridge, births := s.births.set i rest }
  | .birth =>
    if order.Perm s.node.deviceMetrics.keys then
      let (n, sent) := birth marshal broker nowMs order s.node
      some { s with node := n, wire := s.wire ++ sent, births := s.births.set i rest }
    else none

def reconcileStep (s : System F32 F64) (i : Nat) : Reconcile → Option (System F32 F64)
  | .setHost online after =>
    if Locked s then none
    else
      some { s with
        bridge := { s.bridge with hostOnline := online, hostSeen := true }
        reconciles := s.reconciles.set i (.readNode after) }
  | .readNode after =>
    some { s with reconciles := s.reconciles.set i (.readHost (s.node.state = .born) after) }
  | .readHost nodeBorn after =>
    some { s with reconciles := s.reconciles.set i (.apply nodeBorn s.bridge.hostOnline after) }
  | .apply nodeBorn hostOnline after =>
    -- the disconnect that may follow is the action of that name
    some { s with
      sf := if nodeBorn && hostOnline then setOnline s.sf else setOffline s.sf
      reconciles := s.reconciles.eraseIdx i
      births := if after = .birth then s.births ++ [birthProgram] else s.births }

def step (s : System F32 F64) : BridgeAction F32 F64 → Option (System F32 F64)
  | .receive msg nowMs => if Locked s then none else some (receive s msg nowMs)
  | .checkSF i =>
    match s.handlers[i]? with
    | some h =>
      if h.phase = .checkSF then
        some (setPhase s i h (if s.sf.state = .offline then .buffering else .checkNode))
      else none
    | none => none
  | .checkNode i =>
    match s.handlers[i]? with
    | some h =>
      if h.phase = .checkNode then
        some (setPhase s i h (if s.node.state ≠ .born then .buffering else .publishing))
      else none
    | none => none
  | .buffer i =>
    match s.handlers[i]? with
    | some h =>
      if h.phase = .buffering then
        some { s with
          sf := buffer h.deviceID h.payload s.sf
          handlers := s.handlers.eraseIdx i }
      else none
    | none => none
  | .publish broker nowMs i =>
    match s.handlers[i]? with
    | some h =>
      if h.phase = .publishing then
        let (n, result) := publishDeviceData marshal broker nowMs h.deviceID [h.metric] s.node
        some { s with
          node := n
          wire := s.wire ++ result.toOption.toList
          handlers := s.handlers.eraseIdx i }
      else none
    | none => none
  | .drain =>
    match s.batch with
    | [] =>
      let (sf, batch) := drain s.sf
      some { s with sf := sf, batch := batch }
    | _ :: _ => none
  | .drainPublish broker =>
    match s.batch with
    | [] => none
    | r :: rest =>
      let (n, result) := publishDeviceDataPayload marshal broker r.deviceID r.payload s.node
      some { s with
        node := n
        wire := s.wire ++ result.toOption.toList
        batch := rest }
  | .fireTimer =>
    if s.bridge.rebirthTimer then
      some { s with
        bridge := { s.bridge with rebirthTimer := false }
        births := s.births ++ [.updateNodeMetrics :: rebirthProgram] }
    else none
  | .rebirthCommand => some { s with births := s.births ++ [rebirthProgram] }
  | .birthStep broker nowMs order i =>
    match s.births[i]? with
    | some (c :: rest) => birthStep marshal s broker nowMs order i rest c
    | _ => none
  | .loadVariables vars =>
    if Locked s then none
    else
      some { s with
        bridge := vars.foldl loadVariable s.bridge
        births := s.births ++ [[.buildDeviceMetrics]] }
  | .connect nowMs dial =>
    match connect marshal nowMs dial s.node with
    | .error _ => some s
    | .ok n => some { s with node := n }
  | .onConnect =>
    some { s with
      node := onConnect s.node
      births := if s.node.config.primaryHostID = "" then s.births ++ [birthProgram] else s.births }
  | .connectionLost => some { s with node := connectionLost s.node }
  | .disconnect broker nowMs =>
    let (n, sent) := disconnect marshal broker nowMs s.node
    some { s with node := n, wire := s.wire ++ sent }
  | .processHostState hostID online timestamp =>
    let (n, after) := processHostState hostID online timestamp s.node
    some { s with
      node := n
      reconciles :=
        match after with
        | some after =>
          -- the bridge listens to host states only when it waits for a host
          if s.node.config.primaryHostID = "" then s.reconciles
          else s.reconciles ++ [.setHost online after]
        | none => s.reconciles }
  | .stateChange i =>
    if i < s.node.callbacks.length then
      some { s with
        node := { s.node with callbacks := s.node.callbacks.eraseIdx i }
        reconciles := s.reconciles ++ [.readNode .nothing] }
    else none
  | .reconcile i =>
    match s.reconciles[i]? with
    | some r => reconcileStep s i r
    | none => none
  | .setEnabled enabled =>
    if Locked s then none else some { s with bridge := { s.bridge with enabled := enabled } }

end Steps

/-- What the bridge is configured with. -/
structure Settings where
  node : Config
  moduleID : String
  useTemplates : Bool
  storeForwardMax : Int
  drainRate : Int

/-- The bridge as `Start` sets it up, before it connects. -/
def initial (cfg : Settings) (file : Option String) : System F32 F64 :=
  { bridge := newBridge cfg.moduleID cfg.useTemplates cfg.node.primaryHostID
    node := newSparkplugNode cfg.node file
    sf := setOffline (newStoreForwardBuffer cfg.storeForwardMax cfg.drainRate)
    handlers := []
    births := []
    reconciles := []
    batch := []
    wire := []
    accepted := [] }

/-- No goroutine is between two sections and no callback is waiting. -/
def Idle (s : System F32 F64) : Prop :=
  s.handlers = [] ∧ (∀ p ∈ s.births, p = []) ∧ s.reconciles = [] ∧ s.batch = [] ∧
    s.node.callbacks = []

/-- How much of everything is under way. -/
def work (s : System F32 F64) : List Nat :=
  [s.handlers.length, s.reconciles.length, s.batch.length, s.node.callbacks.length] ++
    s.births.map List.length

theorem idle_of_work {s : System F32 F64} (h : ∀ n ∈ work s, n = 0) : Idle s := by
  simp only [work, List.mem_append, List.mem_cons, List.mem_map, List.not_mem_nil, or_false] at h
  refine ⟨?_, ?_, ?_, ?_, ?_⟩
  · exact List.length_eq_zero_iff.mp (h _ (by simp))
  · exact fun p hp => List.length_eq_zero_iff.mp (h _ (.inr ⟨p, hp, rfl⟩))
  · exact List.length_eq_zero_iff.mp (h _ (by simp))
  · exact List.length_eq_zero_iff.mp (h _ (by simp))
  · exact List.length_eq_zero_iff.mp (h _ (by simp))

section Plant

/-! A bridge with one variable on one device, for concrete schedules. -/

def settings : Settings := ⟨⟨"plant", "edge1", "", ""⟩, "mqtt", false, 0, 0⟩

def temperature (x : ℚ) : PlcDataMessage ℚ :=
  { moduleID := "gateway"
    deviceID := "oven"
    variableID := "temperature"
    value := .number x
    datatype := "number" }

/-- A birth from its callback on. -/
def births (nowMs thread : Nat) : List (BridgeAction ℚ ℚ) :=
  [.birthStep accepting nowMs ["gateway:oven:temperature"] thread,
    .birthStep accepting nowMs [] thread, .birthStep accepting nowMs [] thread,
    .birthStep accepting nowMs ["oven"] thread]

/-- A state change of the node makes its way to the buffer. -/
def reconciled : List (BridgeAction ℚ ℚ) :=
  [.stateChange 0, .reconcile 0, .reconcile 0, .reconcile 0]

/-- The bridge connects, loads its variable, is born and goes online. -/
def startup : List (BridgeAction ℚ ℚ) :=
  [.connect 1 none, .onConnect,
    .loadVariables [⟨"gateway", "oven", "temperature", .number 20, "number", none, false, none⟩],
    .birthStep accepting 2 ["gateway:oven:temperature"] 1, .birthStep accepting 2 [] 1,
    .birthStep accepting 2 [] 1] ++ births 3 0 ++ reconciled ++ reconciled

end Plant

end BridgeSystem
