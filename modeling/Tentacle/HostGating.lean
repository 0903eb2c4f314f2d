import Tentacle.Histories
import Tentacle.NewestWins
import Tentacle.NodeSystem

/-!
# Waiting for the primary host

A node with a primary host publishes its NBIRTH when the newest STATE of that host says online.
What it knows about the host is meant to belong to the MQTT session: `onConnect` forgets it, but
only in its last section, when the session is open and its topics are subscribed to. The goroutines
here are the calls of `onConnect`, the handlers of STATE messages, and the births of the timers and
handlers, one critical section at a time. The callback before a birth does not touch the host.
-/

namespace HostGating

open GoValues SparkplugPayload SparkplugNode NodeSystem

variable {F32 F64 : Type}

/-! ## STATE messages -/

inductive Version where
  | legacy
  | v3
  deriving DecidableEq, Repr

/-- A STATE message, and the session in which the broker delivered it. -/
structure StateMessage where
  session : Nat
  version : Version
  topic : String
  payload : String
  deriving DecidableEq, Repr

def splitTopic (topic : String) : List String :=
  ((topic.toList.splitOn '/').filter (· ≠ [])).map String.ofList

def parseHostID (topic : String) : String := (splitTopic topic)[1]?.getD ""

def parseHostIDV3 (topic : String) : String := (splitTopic topic)[2]?.getD ""

def containsOnlineTrue (s : String) : Bool :=
  s.toList.tails.any fun rest =>
    "\"online\":true".toList.isPrefixOf rest || "\"online\": true".toList.isPrefixOf rest

/-- `strconv.ParseInt` of digits, or zero. -/
def parseDigits (digits : List Char) : Int :=
  match parseUint digits with
  | some v => if v < 2 ^ 63 then v else 0
  | none => 0

def parseStateTimestamp (s : String) : Int :=
  let key := "\"timestamp\"".toList
  match s.toList.tails.find? key.isPrefixOf with
  | none => 0
  | some rest =>
    let rest := (rest.drop key.length).dropWhile (· ∈ [' ', ':', '\t'])
    parseDigits (rest.takeWhile Char.isDigit)

/-- What a STATE says: when, and whether the host is online. -/
abbrev HostState := Int × Bool

def StateMessage.hostID (m : StateMessage) : String :=
  match m.version with
  | .legacy => parseHostID m.topic
  | .v3 => parseHostIDV3 m.topic

/-- A legacy STATE has the time at which it is handled. -/
def StateMessage.hostState (m : StateMessage) (nowMs : Int) : HostState :=
  match m.version with
  | .legacy => (nowMs, m.payload = "ONLINE")
  | .v3 => (parseStateTimestamp m.payload, containsOnlineTrue m.payload)

/-! ## Goroutines -/

inductive Topic where
  | ncmd
  | dcmd
  | state (version : Version)
  deriving DecidableEq, Repr

/-- The steps of `onConnect`. -/
inductive ConnectStep where
  | subscribe (topic : Topic)
  | reset
  | birth
  deriving DecidableEq, Repr

def onConnectProgram (config : Config) : List ConnectStep :=
  [.subscribe .ncmd, .subscribe .dcmd] ++
    if config.primaryHostID ≠ "" then
      [.subscribe (.state .legacy), .subscribe (.state .v3), .reset]
    else [.reset, .birth]

/-- The sections of `Rebirth` and `Birth`. -/
inductive BirthStep where
  | markDead
  | birth
  deriving DecidableEq, Repr

/-- What happens in a session: the section of a STATE of the primary host that was delivered in it,
and an NBIRTH that is published in it. -/
inductive Event where
  | state (session : Nat) (said : HostState)
  | nbirth (session : Nat)
  deriving DecidableEq, Repr

def Event.session : Event → Nat
  | .state session _ | .nbirth session => session

/-- Sessions with the broker are numbered. Nothing reads `hasReset`, that `onConnect` has forgotten
the host in the session, and `log`. -/
structure System (F32 F64 : Type) where
  node : Node F32 F64
  session : Nat := 0
  subscriptions : List Topic := []
  connects : List (List ConnectStep) := []
  incoming : List StateMessage := []
  births : List (List BirthStep) := []
  hasReset : Bool := false
  log : List Event := []

inductive Action (F32 F64 : Type) where
  | connect (now : Nat) (dial : Option String)
  | loseConnection
  | connectionLost
  | autoReconnect
  | onConnect (call : Nat)
  | deliver (version : Version) (topic payload : String)
  | processHostState (message : Nat) (nowMs : Int)
  | rebirth
  | birth (call : Nat) (broker : Broker) (now : Nat) (order : List String)
  | setNodeMetrics (metrics : List (Metric F32 F64))
  | setDeviceMetrics (deviceID : String) (metrics : List (Metric F32 F64))
  | disconnect (broker : Broker) (now : Nat)

/-- The session is open: the client is connected. -/
def isOpen (n : Node F32 F64) : Bool := n.client.any (·.connected)

/-- A new session is clean, and calls `onConnect`. -/
def openSession (s : System F32 F64) (n : Node F32 F64) : System F32 F64 :=
  { s with
    node := n
    session := s.session + 1
    subscriptions := []
    connects := s.connects ++ [onConnectProgram n.config]
    hasReset := false }

def connectStep (s : System F32 F64) : ConnectStep → System F32 F64
  | .subscribe topic =>
    if isOpen s.node then { s with subscriptions := s.subscriptions ++ [topic] } else s
  | .reset => { s with node := SparkplugNode.onConnect s.node, hasReset := true }
  | .birth => { s with births := s.births ++ [[.birth]] }

/-- The section of `processHostState`, and the birth that may follow. The disconnect that may
follow is the action of that name. -/
def handleState (s : System F32 F64) (m : StateMessage) (nowMs : Int) : System F32 F64 :=
  let said := m.hostState nowMs
  let (n, after) := processHostState m.hostID said.2 said.1 s.node
  { s with
    node := n
    births := if after = some .birth then s.births ++ [[.birth]] else s.births
    log := if m.hostID = s.node.config.primaryHostID then s.log ++ [.state m.session said]
      else s.log }

section Steps

variable [GoFloats F32 F64] (marshal : PbPayload F32 F64 → Option String)

/-- A publish that the client takes while it reconnects goes to no session. -/
def birthStep (s : System F32 F64) (broker : Broker) (now : Nat) (order : List String) :
    BirthStep → Option (System F32 F64)
  | .markDead => some { s with node := markDead s.node }
  | .birth =>
    if order.Perm s.node.deviceMetrics.keys then
      let (n, sent) := SparkplugNode.birth marshal broker now order s.node
      let published := isOpen s.node && sent.any (·.type = .nbirth)
      some { s with node := n, log := if published then s.log ++ [.nbirth s.session] else s.log }
    else none

def step (s : System F32 F64) : Action F32 F64 → Option (System F32 F64)
  | .connect now dial =>
    match SparkplugNode.connect marshal now dial s.node with
    | .error _ => some s
    | .ok n => some (openSession s n)
  | .loseConnection =>
    s.node.client.bind fun c =>
      if c.connected then some { s with node := setConnected s.node c false } else none
  | .connectionLost => some { s with node := SparkplugNode.connectionLost s.node }
  | .autoReconnect =>
    s.node.client.bind fun c =>
      if c.connected then none else some (openSession s (setConnected s.node c true))
  | .onConnect i =>
    match s.connects[i]? with
    | some (c :: rest) => some (connectStep { s with connects := s.connects.set i rest } c)
    | _ => none
  | .deliver version topic payload =>
    if isOpen s.node && s.subscriptions.contains (.state version) then
      some { s with incoming := s.incoming ++ [⟨s.session, version, topic, payload⟩] }
    else none
  | .processHostState i nowMs =>
    s.incoming[i]?.map fun m => handleState { s with incoming := s.incoming.eraseIdx i } m nowMs
  | .rebirth => some { s with births := s.births ++ [[.markDead, .birth]] }
  | .birth i broker now order =>
    match s.births[i]? with
    | some (b :: rest) =>
      birthStep marshal { s with births := s.births.set i rest } broker now order b
    | _ => none
  | .setNodeMetrics metrics =>
    some { s with node := SparkplugNode.setNodeMetrics metrics s.node }
  | .setDeviceMetrics deviceID metrics =>
    some { s with node := (SparkplugNode.setDeviceMetrics deviceID metrics s.node).1 }
  | .disconnect broker now =>
    some { s with node := (SparkplugNode.disconnect marshal broker now s.node).1 }

end Steps

/-- The node of a new process. -/
def initial (config : Config) (file : Option String) : System F32 F64 :=
  { node := newSparkplugNode config file }

/-! ## What the node knows about the host -/

/-- What the STATEs of the session have said, oldest first. -/
def states (session : Nat) (log : List Event) : List HostState :=
  log.filterMap fun
    | .state k said => if k = session then some said else none
    | .nbirth _ => none

/-- An NBIRTH is allowed when the newest STATE of its session says online. -/
def Allowed (before : List Event) : Event → Prop
  | .state _ _ => True
  | .nbirth session => ∃ timestamp, NewestWins.Newest (states session before) (timestamp, true)

def Gated (log : List Event) : Prop := Histories.Each Allowed log

/-- The resets of a session come before its STATEs and its births: a reset finds no STATE of the
session handled, a STATE is handled in the session it was delivered in, after a reset, and a birth
that finds the host online comes after a reset. -/
def ResetFirst (s : System F32 F64) : Action F32 F64 → Prop
  | .onConnect i => s.connects[i]?.bind List.head? = some .reset → states s.session s.log = []
  | .processHostState i _ =>
    ∀ m ∈ s.incoming[i]?, m.hostID = s.node.config.primaryHostID →
      m.session = s.session ∧ s.hasReset = true
  | .birth i _ _ _ =>
    s.births[i]?.bind List.head? = some .birth → s.node.hostOnline = true → s.hasReset = true
  | _ => True

instance ResetFirst.decidable (s : System F32 F64) :
    (a : Action F32 F64) → Decidable (ResetFirst s a)
  | .onConnect _ | .processHostState _ _ | .birth _ _ _ _ => by unfold ResetFirst; infer_instance
  | .connect _ _ | .loseConnection | .connectionLost | .autoReconnect | .deliver _ _ _ | .rebirth
  | .setNodeMetrics _ | .setDeviceMetrics _ _ | .disconnect _ _ => isTrue trivial

/-- The part of the node that says what it knows about the host. -/
structure SameHost (n n' : Node F32 F64) : Prop where
  config : n'.config = n.config
  hostOnline : n'.hostOnline = n.hostOnline
  hostStateTimestamp : n'.hostStateTimestamp = n.hostStateTimestamp

theorem sameHost_setStateLocked (n : Node F32 F64) (state : NodeState) :
    SameHost n (setStateLocked n state) := by
  unfold setStateLocked
  split
  · exact ⟨rfl, rfl, rfl⟩
  · exact ⟨rfl, rfl, rfl⟩

/-- In a session with a reset the node knows the newest STATE of the session. -/
structure Tracked (s : System F32 F64) : Prop where
  primary : s.node.config.primaryHostID ≠ ""
  sessions : ∀ e ∈ s.log, e.session ≤ s.session
  unset : s.hasReset = false → states s.session s.log = []
  tracks : s.hasReset = true → NewestWins.Tracks false
    (s.node.hostStateTimestamp, s.node.hostOnline) (states s.session s.log)
  gated : Gated s.log

theorem states_eq_nil {log : List Event} {session : Nat} (h : ∀ e ∈ log, e.session < session) :
    states session log = [] := by
  rw [states, List.filterMap_eq_nil_iff]
  intro e he
  cases e with
  | state k said => exact if_neg (h _ he).ne
  | nbirth k => rfl

theorem states_snoc (session : Nat) (log : List Event) (said : HostState) :
    states session (log ++ [.state session said]) = states session log ++ [said] := by
  simp [states]

theorem states_snoc_nbirth (session k : Nat) (log : List Event) :
    states session (log ++ [.nbirth k]) = states session log := by
  simp [states]

/-- A step that concerns neither the host nor the session. -/
theorem Tracked.change {s t : System F32 F64} (h : Tracked s) (hnode : SameHost s.node t.node)
    (hsession : t.session = s.session) (hreset : t.hasReset = s.hasReset) (hlog : t.log = s.log) :
    Tracked t := by
  constructor
  · rw [hnode.config]
    exact h.primary
  · rw [hlog, hsession]
    exact h.sessions
  · rw [hlog, hsession, hreset]
    exact h.unset
  · rw [hlog, hsession, hreset, hnode.hostOnline, hnode.hostStateTimestamp]
    exact h.tracks
  · rw [hlog]
    exact h.gated

/-- A new session starts with no state of its own. -/
theorem Tracked.openSession {s : System F32 F64} (h : Tracked s) {n : Node F32 F64}
    (hnode : SameHost s.node n) : Tracked (openSession s n) := by
  constructor
  · exact hnode.config ▸ h.primary
  · intro e he
    exact (h.sessions e he).trans (Nat.le_succ _)
  · intro _
    apply states_eq_nil
    intro e he
    exact Nat.lt_succ_of_le (h.sessions e he)
  · exact nofun
  · exact h.gated

/-- A reset drops the state of the session before it, as long as none of the new one has come. -/
theorem connectStep_tracked {s : System F32 F64} (h : Tracked s) (c : ConnectStep)
    (hc : c = .reset → states s.session s.log = []) : Tracked (connectStep s c) := by
  cases c with
  | subscribe topic =>
    rw [connectStep]
    split
    · exact { h with }
    · exact h
  | reset =>
    constructor
    · exact (sameHost_setStateLocked s.node .dead).config ▸ h.primary
    · exact h.sessions
    · exact nofun
    · intro _
      have hnone : states s.session s.log = [] := hc rfl
      exact hnone ▸ NewestWins.tracks_unset false 0
    · exact h.gated
  | birth => exact { h with }

/-- A STATE of the primary host is a write to what the node knows. -/
theorem processHostState_primary (online : Bool) (timestamp : Int) (n : Node F32 F64) :
    let n' := (processHostState n.config.primaryHostID online timestamp n).1
    n'.config = n.config ∧ (n'.hostStateTimestamp, n'.hostOnline) =
      NewestWins.put (n.hostStateTimestamp, n.hostOnline) (timestamp, online) := by
  rw [processHostState, if_neg (fun h => h.2 rfl), NewestWins.put]
  by_cases hold : timestamp < n.hostStateTimestamp
  · simp [hold]
  · simp [hold]

/-- A state of this session is tracked once the reset is done. -/
theorem handleState_tracked {s : System F32 F64} (h : Tracked s) (m : StateMessage) (nowMs : Int)
    (hm : m.hostID = s.node.config.primaryHostID → m.session = s.session ∧ s.hasReset = true) :
    Tracked (handleState s m nowMs) := by
  by_cases hid : m.hostID = s.node.config.primaryHostID
  · obtain ⟨hsession, hreset⟩ := hm hid
    obtain ⟨hconfig, hput⟩ := processHostState_primary (m.hostState nowMs).2
      (m.hostState nowMs).1 s.node
    rw [← hid] at hconfig hput
    have hlog : (handleState s m nowMs).log = s.log ++ [.state s.session (m.hostState nowMs)] := by
      simp only [handleState, if_pos hid, hsession]
    constructor
    · exact hconfig ▸ h.primary
    · rw [hlog]
      intro e he
      rcases List.mem_append.mp he with he | he
      · exact h.sessions e he
      · rw [List.mem_singleton.mp he]
        exact le_rfl
    · intro hno
      cases hreset.symm.trans hno
    · intro _
      rw [hlog]
      have htracks := (h.tracks hreset).put (m.hostState nowMs)
      rw [← hput, ← states_snoc] at htracks
      exact htracks
    · rw [hlog]
      exact (Histories.each_snoc _ _ _).mpr ⟨h.gated, trivial⟩
  · have hsame : processHostState m.hostID (m.hostState nowMs).2 (m.hostState nowMs).1 s.node =
        (s.node, none) := by
      rw [processHostState, if_pos ⟨h.primary, hid⟩]
    refine h.change ?_ rfl rfl ?_
    · simp only [handleState, hsame]
      exact ⟨rfl, rfl, rfl⟩
    · simp only [handleState, if_neg hid]

/-- An NBIRTH goes out in a session with a reset. -/
theorem Tracked.nbirth {s : System F32 F64} {n : Node F32 F64} (h : Tracked s)
    (hnode : SameHost s.node n) (honline : s.node.hostOnline = true) (hreset : s.hasReset = true) :
    Tracked { s with node := n, log := s.log ++ [.nbirth s.session] } := by
  have htracks := h.tracks hreset
  have hnewest := htracks.newest (by simp [honline])
  constructor
  · exact hnode.config ▸ h.primary
  · intro e he
    rcases List.mem_append.mp he with he | he
    · exact h.sessions e he
    · rw [List.mem_singleton.mp he]
      exact le_rfl
  · intro hno
    cases hreset.symm.trans hno
  · intro _
    rw [states_snoc_nbirth, hnode.hostOnline, hnode.hostStateTimestamp]
    exact htracks
  · rw [honline] at hnewest
    exact (Histories.each_snoc _ _ _).mpr ⟨h.gated, _, hnewest⟩

theorem initial_tracked {config : Config} (hprimary : config.primaryHostID ≠ "")
    (file : Option String) : Tracked (initial config file : System F32 F64) :=
  ⟨hprimary, nofun, fun _ => rfl, nofun, Histories.each_nil _⟩

section Runs

variable [GoFloats F32 F64] {marshal : PbPayload F32 F64 → Option String}

/-- A birth does not touch what is known of the host. -/
theorem sameHost_birth (broker : Broker) (now : Nat) (order : List String) (n : Node F32 F64) :
    SameHost n (SparkplugNode.birth marshal broker now order n).1 := by
  rcases birth_cases marshal broker now order n with ⟨-, heq⟩ | ⟨-, -, heq⟩ | ⟨-, -, heq⟩
  · rw [heq]
    exact ⟨rfl, rfl, rfl⟩
  · rw [heq]
    exact ⟨rfl, rfl, rfl⟩
  · obtain ⟨seq, hseq⟩ : ∃ seq, (deviceBirths marshal broker now order (bornNode n)).1 =
        { bornNode n with seq := seq } := deviceBirths_fst now order (bornNode n)
    rw [heq, hseq]
    exact { sameHost_setStateLocked { n with seq := 0 } .born with }

theorem sameHost_disconnect (broker : Broker) (now : Nat) (n : Node F32 F64) :
    SameHost n (SparkplugNode.disconnect marshal broker now n).1 := by
  rcases disconnect_cases marshal broker now n with ⟨-, heq⟩ | ⟨-, -, heq⟩ | ⟨-, -, heq⟩
  · rw [heq]
    exact ⟨rfl, rfl, rfl⟩
  · rw [heq]
    exact { sameHost_setStateLocked _ _ with }
  · rw [heq]
    exact { sameHost_setStateLocked _ _ with }

/-- A node with a primary host sends an NBIRTH only when it takes the host to be online. -/
theorem hostOnline_of_nbirth {broker : Broker} {now : Nat} {order : List String}
    {n : Node F32 F64} (hprimary : n.config.primaryHostID ≠ "")
    (h : (SparkplugNode.birth marshal broker now order n).2 ≠ []) : n.hostOnline = true := by
  rcases birth_cases marshal broker now order n with ⟨-, heq⟩ | ⟨-, -, heq⟩ | ⟨hmay, -, -⟩
  · rw [heq] at h
    exact absurd rfl h
  · rw [heq] at h
    exact absurd rfl h
  · simp only [mayBirth, Bool.and_eq_true, Bool.or_eq_true, decide_eq_true_eq] at hmay
    exact hmay.2.resolve_left hprimary

/-- A birth sees the host online only by a state of this session. -/
theorem birthStep_tracked {s t : System F32 F64} {broker : Broker} {now : Nat}
    {order : List String} {b : BirthStep} (h : Tracked s)
    (hb : b = .birth → s.node.hostOnline = true → s.hasReset = true)
    (ht : birthStep marshal s broker now order b = some t) : Tracked t := by
  cases b with
  | markDead =>
    cases ht
    exact h.change (sameHost_setStateLocked _ _) rfl rfl rfl
  | birth =>
    have hsame : SameHost s.node (SparkplugNode.birth marshal broker now order s.node).1 :=
      sameHost_birth broker now order s.node
    have honline : (SparkplugNode.birth marshal broker now order s.node).2 ≠ [] →
        s.node.hostOnline = true := hostOnline_of_nbirth h.primary
    rw [birthStep] at ht
    generalize SparkplugNode.birth marshal broker now order s.node = r at ht hsame honline
    by_cases hperm : order.Perm s.node.deviceMetrics.keys
    · rw [if_pos hperm] at ht
      cases ht
      cases hpublished : isOpen s.node && r.2.any (·.type = .nbirth) with
      | true =>
        have hsent : r.2 ≠ [] := by
          intro hnil
          simp [hnil] at hpublished
        have hon := honline hsent
        simp only [if_true]
        exact h.nbirth hsame hon (hb rfl hon)
      | false =>
        simp only [Bool.false_eq_true, if_false]
        exact h.change hsame rfl rfl rfl
    · rw [if_neg hperm] at ht
      cases ht

/-- Each step that meets the condition keeps what is known of the host. -/
theorem step_tracked {s t : System F32 F64} {a : Action F32 F64} (h : Tracked s)
    (hok : ResetFirst s a) (ht : step marshal s a = some t) : Tracked t := by
  cases a with
  | connect now dial =>
    rw [step] at ht
    split at ht
    next =>
      cases ht
      exact h
    next n hn =>
      cases ht
      rw [(connect_ok hn).2]
      exact h.openSession { sameHost_setStateLocked _ _ with }
  | loseConnection =>
    obtain ⟨c, -, hc⟩ := Option.bind_eq_some_iff.mp ht
    split at hc <;> cases hc
    exact h.change ⟨rfl, rfl, rfl⟩ rfl rfl rfl
  | connectionLost =>
    cases ht
    exact h.change (sameHost_setStateLocked _ _) rfl rfl rfl
  | autoReconnect =>
    obtain ⟨c, -, hc⟩ := Option.bind_eq_some_iff.mp ht
    split at hc <;> cases hc
    exact h.openSession ⟨rfl, rfl, rfl⟩
  | onConnect i =>
    rw [step] at ht
    split at ht
    next c rest hcall =>
      cases ht
      have hs : Tracked { s with connects := s.connects.set i rest } := { h with }
      apply connectStep_tracked hs
      intro hc
      exact hok (by rw [hcall, hc]; rfl)
    next => cases ht
  | deliver version topic payload =>
    rw [step] at ht
    split at ht <;> cases ht
    exact { h with }
  | processHostState i nowMs =>
    obtain ⟨m, hm, rfl⟩ := Option.map_eq_some_iff.mp ht
    have hs : Tracked { s with incoming := s.incoming.eraseIdx i } := { h with }
    exact handleState_tracked hs m nowMs (hok m hm)
  | rebirth =>
    cases ht
    exact { h with }
  | birth i broker now order =>
    rw [step] at ht
    split at ht
    next b rest hcall =>
      apply birthStep_tracked _ _ ht
      · exact { h with }
      · intro hb
        exact hok (by rw [hcall, hb]; rfl)
    next => cases ht
  | setNodeMetrics metrics =>
    cases ht
    exact h.change ⟨rfl, rfl, rfl⟩ rfl rfl rfl
  | setDeviceMetrics deviceID metrics =>
    cases ht
    exact h.change ⟨rfl, rfl, rfl⟩ rfl rfl rfl
  | disconnect broker now =>
    cases ht
    exact h.change (sameHost_disconnect _ _ _) rfl rfl rfl

/-- In every run in which the resets of a session come before its STATEs and its births, every
NBIRTH follows STATEs of its session the newest of which says online. -/
theorem resetFirst_runs_gated {config : Config} (hprimary : config.primaryHostID ≠ "")
    (file : Option String) {actions : List (Action F32 F64)} {s : System F32 F64}
    (hok : Runs.Meets (step marshal) ResetFirst (initial config file) actions)
    (hrun : Runs.run (step marshal) (initial config file) actions = some s) : Gated s.log :=
  (Runs.run_invariant (fun _ _ _ => step_tracked) (initial_tracked hprimary file) hok hrun).gated

end Runs

/-! ## A rebirth after a reconnect -/

def waiting : Config := ⟨"plant", "edge1", "scada", ""⟩

/-- The whole of `onConnect`, the STATE of the host, and the birth that follows. -/
def hostComesOnline (call birth : Nat) (nowMs : Nat) : List (Action ℚ ℚ) :=
  List.replicate 5 (.onConnect call) ++
    [.deliver .legacy "STATE/scada" "ONLINE", .processHostState 0 nowMs,
      .birth birth accepting nowMs []]

def reconnect : List (Action ℚ ℚ) := [.loseConnection, .connectionLost, .autoReconnect]

def logOf (actions : List (Action ℚ ℚ)) : Option (List Event) :=
  (Runs.run (step marshals) (initial waiting none) actions).map (·.log)

def orderly : List (Action ℚ ℚ) :=
  .connect 0 none :: hostComesOnline 0 0 1000 ++ reconnect ++ hostComesOnline 1 1 2000

theorem resetFirst_runs_gated_orderly :
    ∃ s, Runs.run (step marshals) (initial waiting none) orderly = some s ∧ Gated s.log ∧
      s.log = [.state 1 (1000, true), .nbirth 1, .state 2 (2000, true), .nbirth 2] := by
  have hlog : logOf orderly =
      some [.state 1 (1000, true), .nbirth 1, .state 2 (2000, true), .nbirth 2] := by decide +kernel
  obtain ⟨s, hrun, hlog⟩ := Option.map_eq_some_iff.mp hlog
  have hok : Runs.Meets (step marshals) ResetFirst (initial waiting none) orderly := by
    decide +kernel
  exact ⟨s, hrun, resetFirst_runs_gated (by decide) none hok hrun, hlog⟩

/-- A rebirth between the reconnect and the reset finds the host as the session before left it. -/
theorem rebirth_not_gated :
    ¬ ∀ (config : Config) (file : Option String) (actions : List (Action ℚ ℚ)) (s : System ℚ ℚ),
      config.primaryHostID ≠ "" →
        Runs.run (step marshals) (initial config file) actions = some s → Gated s.log := by
  intro h
  have hlog : logOf (.connect 0 none :: hostComesOnline 0 0 1000 ++ reconnect ++
      [.rebirth, .birth 1 accepting 2000 [], .birth 1 accepting 2000 []]) =
        some [.state 1 (1000, true), .nbirth 1, .nbirth 2] := by decide +kernel
  obtain ⟨s, hrun, hlog⟩ := Option.map_eq_some_iff.mp hlog
  have hgated := h waiting none _ s (by decide) hrun
  obtain ⟨timestamp, hnewest⟩ :=
    hgated [.state 1 (1000, true), .nbirth 1] (.nbirth 2) [] hlog
  exact NewestWins.not_newest_nil _ hnewest

end HostGating
