import Mathlib.Data.Finset.Basic
import Mathlib.Data.List.Induction
import Mathlib.Data.String.Basic
import Tentacle.GoValues

/-!
# The OPC UA scanner

The subscribers of each device, the connections, and the subscription of each connection's node
monitor. The OPC UA library makes the connection, creates the monitor and sets its subscription
up; each of these may fail. Requests are handled one at a time here.
-/

namespace OpcUaScanner

open GoValues

structure OpcUaAuth where
  type : String
  username : String := ""
  password : String := ""
  certPath : String := ""
  keyPath : String := ""
  deriving DecidableEq, Repr

structure CachedVariable where
  nodeID : String
  displayName : String
  datatype : String := "string"
  opcuaDatatype : String := "String"
  quality : String := "unknown"
  lastUpdated : Int := 0
  deriving DecidableEq, Repr

structure OpcUaConnection where
  deviceID : String
  endpointURL : String
  securityPolicy : String
  securityMode : String
  auth : OpcUaAuth
  /-- There is a client. -/
  client : Bool := false
  /-- There is a node monitor. -/
  nodeMonitor : Bool := false
  /-- The nodes of the subscription on the node monitor. -/
  monitorSub : Option (List String) := none
  vars : GoMap String CachedVariable := ∅
  connectionState : String := ""
  consecutiveFailures : Nat := 0

structure DeviceSubscription where
  nodeIDs : Finset String
  scanRate : Int

structure Scanner where
  connections : GoMap String OpcUaConnection := ∅
  subscribers : GoMap String (GoMap String DeviceSubscription) := ∅

structure SubscribeRequest where
  deviceID : String
  endpointURL : String
  securityPolicy : String := ""
  securityMode : String := ""
  auth : Option OpcUaAuth := none
  nodeIDs : List String
  scanRate : Int := 0
  subscriberID : String
  deriving DecidableEq, Repr

structure UnsubscribeRequest where
  deviceID : String
  nodeIDs : List String := []
  subscriberID : String

/-- What the library answers, if it is asked. -/
structure Server where
  connect : Except String Unit := .ok ()
  newNodeMonitor : Except String Unit := .ok ()
  chanSubscribe : Except String Unit := .ok ()

/-! ## Requests -/

def addSubscriber (s : Scanner) (deviceID subscriberID : String) (nodeIDs : List String)
    (scanRate : Int) : Scanner :=
  let subs := (s.subscribers.lookup deviceID).getD ∅
  let known := ((subs.lookup subscriberID).map DeviceSubscription.nodeIDs).getD ∅
  let sub := ⟨known ∪ nodeIDs.toFinset, scanRate⟩
  { s with subscribers := s.subscribers.insert deviceID (subs.insert subscriberID sub) }

/-- The subscribers after the request, and whether the device has none left. -/
def removeSubscriber (s : Scanner) (req : UnsubscribeRequest) : Scanner × Bool :=
  match s.subscribers.lookup req.deviceID with
  | none => (s, true)
  | some subs =>
    let subs := match subs.lookup req.subscriberID with
      | none => subs
      | some existing =>
        let nodeIDs := req.nodeIDs.foldl Finset.erase existing.nodeIDs
        if nodeIDs = ∅ then subs.erase req.subscriberID
        else subs.insert req.subscriberID { existing with nodeIDs }
    if subs.keys = [] then ({ s with subscribers := s.subscribers.erase req.deviceID }, true)
    else ({ s with subscribers := s.subscribers.insert req.deviceID subs }, false)

def OpcUaConnection.ready (conn : OpcUaConnection) : Bool :=
  conn.client && conn.connectionState = "connected"

def newConnection (req : SubscribeRequest) : OpcUaConnection :=
  { deviceID := req.deviceID
    endpointURL := req.endpointURL
    securityPolicy := req.securityPolicy
    securityMode := req.securityMode
    auth := req.auth.getD { type := "anonymous" } }

/-- The connection of the device after `connectDevice`, which a failure leaves disconnected. -/
def connectDevice (s : Scanner) (req : SubscribeRequest) (connect : Except String Unit) :
    OpcUaConnection × Except String Unit :=
  let conn := (s.connections.lookup req.deviceID).getD (newConnection req)
  if (s.connections.lookup req.deviceID).isSome ∧ conn.ready then (conn, .ok ())
  else
    match connect with
    | .error e =>
      ({ conn with
        connectionState := "disconnected"
        consecutiveFailures := conn.consecutiveFailures + 1 }, .error e)
    | .ok () =>
      ({ conn with client := true, connectionState := "connected", consecutiveFailures := 0 },
        .ok ())

def cacheVariables (vars : GoMap String CachedVariable) (nodeIDs : List String) :
    GoMap String CachedVariable :=
  nodeIDs.foldl (fun vars nodeID =>
    match vars.lookup nodeID with
    | none => vars.insert nodeID { nodeID, displayName := nodeID }
    | some _ => vars) vars

/-- The section of `handleSubscribe` on the connection. The nodes of a request are monitored only
when it is the request that creates the node monitor. -/
def monitorNodes (conn : OpcUaConnection) (req : SubscribeRequest) (server : Server) :
    OpcUaConnection × Except String Unit :=
  if conn.nodeMonitor = false ∧ conn.client then
    match server.newNodeMonitor with
    | .error e => (conn, .error ("Monitor creation failed: " ++ e))
    | .ok () =>
      match server.chanSubscribe with
      | .error e => ({ conn with nodeMonitor := true }, .error ("Subscription failed: " ++ e))
      | .ok () =>
        ({ conn with
          nodeMonitor := true
          monitorSub := some req.nodeIDs
          vars := cacheVariables conn.vars req.nodeIDs }, .ok ())
  else if conn.nodeMonitor then
    ({ conn with vars := cacheVariables conn.vars req.nodeIDs }, .ok ())
  else (conn, .ok ())

def SubscribeRequest.complete (req : SubscribeRequest) : Bool :=
  req.deviceID ≠ "" && req.endpointURL ≠ "" && !req.nodeIDs.isEmpty && req.subscriberID ≠ ""

/-- The scanner after the request, and the answer: the number of nodes. -/
def handleSubscribe (s : Scanner) (req : SubscribeRequest) (server : Server) :
    Scanner × Except String Nat :=
  if req.complete then
    let scanRate := if req.scanRate ≤ 0 then 1000 else req.scanRate
    let s := addSubscriber s req.deviceID req.subscriberID req.nodeIDs scanRate
    match connectDevice s req server.connect with
    | (conn, .error e) =>
      ({ s with connections := s.connections.insert req.deviceID conn },
        .error ("Connection failed: " ++ e))
    | (conn, .ok ()) =>
      let (conn, outcome) := monitorNodes conn req server
      ({ s with connections := s.connections.insert req.deviceID conn },
        outcome.map fun _ => req.nodeIDs.length)
  else (s, .error "Subscribe requires deviceId, endpointUrl, nodeIds, and subscriberId")

/-- `disconnectDevice` ends the subscription of the connection that leaves the table. -/
def removeConnection (s : Scanner) (deviceID : String) : Scanner :=
  { s with connections := s.connections.erase deviceID }

def handleUnsubscribe (s : Scanner) (req : UnsubscribeRequest) : Scanner × Nat :=
  match removeSubscriber s req with
  | (s, true) => (removeConnection s req.deviceID, req.nodeIDs.length)
  | (s, false) => (s, req.nodeIDs.length)

/-! ## Monitored nodes -/

/-- The requests one after another, with a server that refuses none. -/
def subscribeAll (s : Scanner) (reqs : List SubscribeRequest) : Scanner :=
  reqs.foldl (fun s req => (handleSubscribe s req {}).1) s

/-- A node is monitored at the endpoint. -/
def Monitors (s : Scanner) (endpointURL nodeID : String) : Prop :=
  ∃ d conn, s.connections.lookup d = some conn ∧ conn.endpointURL = endpointURL ∧
    ∃ nodeIDs ∈ conn.monitorSub, nodeID ∈ nodeIDs

/-- The connection shows what the request asked for. -/
structure OpcUaConnection.Shows (conn : OpcUaConnection) (first : SubscribeRequest) : Prop where
  endpointURL : conn.endpointURL = first.endpointURL
  monitorSub : conn.monitorSub = some first.nodeIDs
  nodeMonitor : conn.nodeMonitor = true
  ready : conn.ready = true

/-- The first request for a device decides about its connection. -/
structure FollowsFirst (s : Scanner) (reqs : List SubscribeRequest) : Prop where
  none : ∀ d, reqs.find? (·.deviceID = d) = none → s.connections.lookup d = none
  some : ∀ d first, reqs.find? (·.deviceID = d) = some first →
    ∃ conn, s.connections.lookup d = some conn ∧ conn.Shows first

def firstConnection (req : SubscribeRequest) : OpcUaConnection :=
  { newConnection req with
    client := true
    connectionState := "connected"
    nodeMonitor := true
    monitorSub := some req.nodeIDs
    vars := cacheVariables ∅ req.nodeIDs }

theorem handleSubscribe_new {s : Scanner} {req : SubscribeRequest} (hreq : req.complete = true)
    (hnone : s.connections.lookup req.deviceID = none) :
    (handleSubscribe s req {}).1.connections =
      s.connections.insert req.deviceID (firstConnection req) := by
  simp [handleSubscribe, hreq, addSubscriber, connectDevice, hnone, monitorNodes, newConnection,
    firstConnection]

/-- A later request adds variables to the cache, and no node to the subscription. -/
theorem handleSubscribe_again {s : Scanner} {req : SubscribeRequest} {conn : OpcUaConnection}
    (hreq : req.complete = true) (hconn : s.connections.lookup req.deviceID = some conn)
    (hmonitor : conn.nodeMonitor = true) (hready : conn.ready = true) :
    (handleSubscribe s req {}).1.connections = s.connections.insert req.deviceID
      { conn with vars := cacheVariables conn.vars req.nodeIDs } := by
  simp [handleSubscribe, hreq, addSubscriber, connectDevice, hconn, hready, monitorNodes, hmonitor]

theorem find_snoc_self {reqs : List SubscribeRequest} {req : SubscribeRequest} {d : String}
    (h : req.deviceID = d) :
    (reqs ++ [req]).find? (·.deviceID = d) =
      some ((reqs.find? (·.deviceID = d)).getD req) := by
  rw [List.find?_append, List.find?_singleton, if_pos (decide_eq_true h)]
  cases reqs.find? (·.deviceID = d) <;> rfl

theorem find_snoc_other {reqs : List SubscribeRequest} {req : SubscribeRequest} {d : String}
    (h : req.deviceID ≠ d) :
    (reqs ++ [req]).find? (·.deviceID = d) = reqs.find? (·.deviceID = d) := by
  rw [List.find?_append, List.find?_singleton, if_neg (by simpa using h), Option.or_none]

/-- A further request changes no device that is there. -/
theorem followsFirst_snoc {s : Scanner} {reqs : List SubscribeRequest} {req : SubscribeRequest}
    (h : FollowsFirst s reqs) (hreq : req.complete = true) :
    FollowsFirst (handleSubscribe s req {}).1 (reqs ++ [req]) := by
  -- the request changes the connection of its own device only
  obtain ⟨conn, hconns, hshows⟩ : ∃ conn,
      (handleSubscribe s req {}).1.connections = s.connections.insert req.deviceID conn ∧
        conn.Shows ((reqs.find? (·.deviceID = req.deviceID)).getD req) := by
    cases hfirst : reqs.find? (·.deviceID = req.deviceID) with
    | none => exact ⟨_, handleSubscribe_new hreq (h.none _ hfirst), rfl, rfl, rfl, rfl⟩
    | some first =>
      obtain ⟨conn, hconn, hshows⟩ := h.some _ first hfirst
      exact ⟨_, handleSubscribe_again hreq hconn hshows.nodeMonitor hshows.ready, { hshows with }⟩
  constructor
  · intro d hd
    by_cases hdev : req.deviceID = d
    · rw [find_snoc_self hdev] at hd
      cases hd
    · rw [find_snoc_other hdev] at hd
      rw [hconns, AList.lookup_insert_ne (Ne.symm hdev)]
      exact h.none d hd
  · intro d first hd
    by_cases hdev : req.deviceID = d
    · rw [find_snoc_self hdev, Option.some.injEq] at hd
      subst hdev hd
      exact ⟨conn, by rw [hconns, AList.lookup_insert], hshows⟩
    · rw [find_snoc_other hdev] at hd
      rw [hconns, AList.lookup_insert_ne (Ne.symm hdev)]
      exact h.some d first hd

/-- After any requests each device follows the first one of it. -/
theorem followsFirst_subscribeAll {reqs : List SubscribeRequest}
    (hreqs : ∀ req ∈ reqs, req.complete = true) : FollowsFirst (subscribeAll {} reqs) reqs := by
  induction reqs using List.reverseRecOn with
  | nil => exact ⟨fun _ _ => rfl, nofun⟩
  | append_singleton reqs req ih =>
    rw [subscribeAll, List.foldl_append]
    apply followsFirst_snoc
    · apply ih
      intro r hr
      exact hreqs r (List.mem_append_left _ hr)
    · exact hreqs req (List.mem_append_right _ (List.mem_singleton_self req))

/-- What is monitored is what the first request for each device asked for. -/
theorem monitors_subscribeAll_iff {endpointURL : String} {reqs : List SubscribeRequest}
    (hreqs : ∀ req ∈ reqs, req.complete = true)
    (hurl : ∀ req ∈ reqs, req.endpointURL = endpointURL) (nodeID : String) :
    Monitors (subscribeAll {} reqs) endpointURL nodeID ↔
      ∃ first ∈ reqs, reqs.find? (·.deviceID = first.deviceID) = some first ∧
        nodeID ∈ first.nodeIDs := by
  have h := followsFirst_subscribeAll hreqs
  constructor
  · rintro ⟨d, conn, hconn, -, nodeIDs, hsub, hnode⟩
    cases hfirst : reqs.find? (·.deviceID = d) with
    | none =>
      rw [h.none d hfirst] at hconn
      cases hconn
    | some first =>
      obtain ⟨conn', hconn', hshows⟩ := h.some d first hfirst
      cases hconn.symm.trans hconn'
      cases hshows.monitorSub.symm.trans hsub
      have hd : first.deviceID = d := by simpa using List.find?_some hfirst
      exact ⟨first, List.mem_of_find?_eq_some hfirst, hd ▸ hfirst, hnode⟩
  · rintro ⟨first, hmem, hfirst, hnode⟩
    obtain ⟨conn, hconn, hshows⟩ := h.some _ first hfirst
    exact ⟨_, conn, hconn, hshows.endpointURL.trans (hurl first hmem), _, hshows.monitorSub, hnode⟩

/-- The nodes of all requests are monitored exactly when each of them is in the first request for
some device. -/
theorem monitored_union_iff (endpointURL : String) (reqs : List SubscribeRequest)
    (hreqs : ∀ req ∈ reqs, req.complete = true)
    (hurl : ∀ req ∈ reqs, req.endpointURL = endpointURL) :
    (∀ nodeID, Monitors (subscribeAll {} reqs) endpointURL nodeID ↔
      ∃ req ∈ reqs, nodeID ∈ req.nodeIDs) ↔
      ∀ req ∈ reqs, ∀ nodeID ∈ req.nodeIDs, ∃ first ∈ reqs,
        reqs.find? (·.deviceID = first.deviceID) = some first ∧ nodeID ∈ first.nodeIDs := by
  constructor
  · intro h req hreq nodeID hnode
    exact (monitors_subscribeAll_iff hreqs hurl nodeID).mp ((h nodeID).mpr ⟨req, hreq, hnode⟩)
  · intro h nodeID
    rw [monitors_subscribeAll_iff hreqs hurl]
    constructor
    · rintro ⟨first, hmem, -, hnode⟩
      exact ⟨first, hmem, hnode⟩
    · rintro ⟨req, hreq, hnode⟩
      exact h req hreq nodeID hnode

def subscribeFrom (subscriberID : String) (nodeIDs : List String) : SubscribeRequest :=
  { deviceID := "kiln", endpointURL := "opc.tcp://kiln:4840", nodeIDs, subscriberID }

/-- A later subscriber that asks for fewer nodes than the first. -/
def narrowing : List SubscribeRequest :=
  [subscribeFrom "gateway" ["ns=2;i=1", "ns=2;i=2"], subscribeFrom "plc" ["ns=2;i=2"]]

theorem monitored_union_subset :
    Monitors (subscribeAll {} narrowing) "opc.tcp://kiln:4840" "ns=2;i=2" ∧
      ¬ Monitors (subscribeAll {} narrowing) "opc.tcp://kiln:4840" "ns=2;i=3" := by
  have hall := (monitored_union_iff "opc.tcp://kiln:4840" narrowing (by decide) (by decide)).mpr
    (by decide)
  rw [hall, hall]
  decide

/-- The node that only a later subscriber asks for is not monitored. -/
theorem monitored_not_union :
    ¬ ∀ (endpointURL : String) (reqs : List SubscribeRequest),
      (∀ req ∈ reqs, req.complete = true) → (∀ req ∈ reqs, req.endpointURL = endpointURL) →
        ∀ nodeID, Monitors (subscribeAll {} reqs) endpointURL nodeID ↔
          ∃ req ∈ reqs, nodeID ∈ req.nodeIDs := by
  intro h
  have hlater := (h "opc.tcp://kiln:4840" [subscribeFrom "gateway" ["ns=2;i=1"],
    subscribeFrom "plc" ["ns=2;i=2"]] (by decide) (by decide) "ns=2;i=2").mpr
      ⟨subscribeFrom "plc" ["ns=2;i=2"], by simp, by simp [subscribeFrom]⟩
  rw [monitors_subscribeAll_iff (by decide) (by decide)] at hlater
  exact absurd hlater (by decide)

end OpcUaScanner
