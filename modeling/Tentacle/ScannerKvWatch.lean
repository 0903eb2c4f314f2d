import Mathlib.Data.Finset.Lattice.Lemmas
import Tentacle.OpcUaScanner
import Tentacle.SnmpScanner

/-!
# Subscriptions through the configuration bucket

The SNMP and the OPC UA scanner watch a bucket in which each entry is a subscription: a put is
handled as a request to subscribe, and the deletion of `subscriber.device` as a request to
unsubscribe that lists no items. Neither scanner takes such a request to mean all items, as the
EtherNet/IP and the Modbus scanner do.
-/

namespace ScannerKvWatch

open GoValues

/-- `strings.SplitN(key, ".", 2)`, if there are two parts. -/
def splitKey (key : String) : Option (String × String) :=
  (Subjects.afterDot key.toList).map fun rest =>
    (String.ofList (key.toList.takeWhile (· ≠ '.')), String.ofList rest)

/-- What a scanner holds: the items of every subscriber on every device, and whether the device is
in the table of connections. -/
@[ext] structure View where
  items : String → String → Finset String
  listed : String → Bool

/-- After the deletion the subscriber holds no item of the device, and a device without another
subscriber has left the table. -/
def Unsubscribed (before after : View) (subscriberID deviceID : String) : Prop :=
  after.items deviceID subscriberID = ∅ ∧
    (before.items deviceID subscriberID ≠ ∅ →
      (∀ other, other ≠ subscriberID → before.items deviceID other = ∅) →
        after.listed deviceID = false)

/-- A deletion that changes nothing is right when there is nothing to take away. -/
theorem unsubscribed_self_iff (v : View) (subscriberID deviceID : String) :
    Unsubscribed v v subscriberID deviceID ↔ v.items deviceID subscriberID = ∅ := by
  constructor
  · intro h
    exact h.1
  · intro h
    exact ⟨h, fun hne => absurd h hne⟩

/-- There is a subscriber, and every subscriber holds an item. -/
structure Subscribed {V : Type} (items : V → Finset String) (subscribers : GoMap String V) :
    Prop where
  keys : subscribers.keys ≠ []
  items : ∀ subscriberID v, subscribers.lookup subscriberID = some v → items v ≠ ∅

/-! ## SNMP -/

section Snmp

open SnmpScanner

inductive SnmpEvent where
  | put (req : SubscribeRequest) (connect : Except String Unit)
  | delete (key : String)

def snmpWatch (s : Scanner) : SnmpEvent → Scanner
  | .put req connect => (handleSubscribe s req connect).1
  | .delete key =>
    match splitKey key with
    | none => s
    | some (subscriberID, deviceID) => (handleUnsubscribe s ⟨deviceID, [], subscriberID⟩).1

def snmpView (s : Scanner) : View where
  items deviceID subscriberID :=
    ((s.connections.lookup deviceID).bind (·.subscribers.lookup subscriberID)).getD ∅
  listed deviceID := (s.connections.lookup deviceID).isSome

def SnmpSubscribed (s : Scanner) : Prop :=
  ∀ d conn, s.connections.lookup d = some conn → Subscribed id conn.subscribers

/-- A request with items leaves a subscriber, and each subscriber has items. -/
theorem subscribed_foldl_subscribeOid {req : SubscribeRequest} {conn : DeviceConnection}
    {oids : List String}
    (hitems : ∀ sub v, conn.subscribers.lookup sub = some v → v ≠ ∅)
    (h : oids ≠ [] ∨ conn.subscribers.keys ≠ []) :
    Subscribed id (oids.foldl (subscribeOid req) conn).subscribers := by
  induction oids generalizing conn with
  | nil => exact ⟨h.resolve_left (fun hne => hne rfl), hitems⟩
  | cons oid oids ih =>
    apply ih
    · exact forall_lookup_insert hitems (Finset.insert_ne_empty _ _)
    · exact .inr (keys_insert_ne_nil _ _ _)

/-- A request that names no items removes nothing. -/
theorem removeSubscriber_nil {subscribers : GoMap String (Finset String)}
    (h : Subscribed id subscribers) (deviceID subscriberID : String) :
    (removeSubscriber subscribers ⟨deviceID, [], subscriberID⟩).keys ≠ [] ∧
      ∀ sub, (removeSubscriber subscribers ⟨deviceID, [], subscriberID⟩).lookup sub =
        subscribers.lookup sub := by
  rw [removeSubscriber]
  cases hsub : subscribers.lookup subscriberID with
  | none => exact ⟨h.keys, fun _ => rfl⟩
  | some oids =>
    have hne : oids ≠ ∅ := h.items _ _ hsub
    simp only [List.foldl_nil, hne, if_false]
    exact ⟨keys_insert_ne_nil _ _ _, lookup_insert_self hsub⟩

theorem snmpSubscribed_insert {s : Scanner} (h : SnmpSubscribed s) {d : String}
    {conn : DeviceConnection} (hconn : Subscribed id conn.subscribers) :
    SnmpSubscribed ⟨s.connections.insert d conn⟩ :=
  forall_lookup_insert h hconn

/-- A subscription leaves each device a subscriber with items. -/
theorem snmpSubscribed_put {s : Scanner} (h : SnmpSubscribed s) (req : SubscribeRequest)
    (connect : Except String Unit) : SnmpSubscribed (handleSubscribe s req connect).1 := by
  unfold handleSubscribe
  split
  next hcomplete =>
    have hoids : req.oids ≠ [] := by
      simp only [SubscribeRequest.complete, Bool.and_eq_true] at hcomplete
      simpa using hcomplete.2
    split
    next => exact h
    next =>
      apply snmpSubscribed_insert h
      exact subscribed_foldl_subscribeOid nofun (.inl hoids)
    next conn hconn =>
      apply snmpSubscribed_insert h
      exact subscribed_foldl_subscribeOid (h _ conn hconn).items (.inl hoids)
  next => exact h

/-- The request that a deletion is turned into changes nothing. -/
theorem snmpDelete {s : Scanner} (h : SnmpSubscribed s) (key : String) :
    SnmpSubscribed (snmpWatch s (.delete key)) ∧
      snmpView (snmpWatch s (.delete key)) = snmpView s := by
  rw [snmpWatch]
  split
  next => exact ⟨h, rfl⟩
  next subscriberID deviceID _ =>
    rw [handleUnsubscribe]
    split
    next => exact ⟨h, rfl⟩
    next conn hconn =>
      obtain ⟨hkeys, hlookup⟩ := removeSubscriber_nil (h _ conn hconn) deviceID subscriberID
      simp only [hkeys, if_false]
      constructor
      · apply snmpSubscribed_insert h
        refine ⟨hkeys, ?_⟩
        intro sub oids hoids
        rw [hlookup] at hoids
        exact (h _ conn hconn).items sub oids hoids
      · apply View.ext
        · funext d sub
          by_cases hd : d = deviceID
          · simp [snmpView, hd, hconn, hlookup]
          · simp [snmpView, AList.lookup_insert_ne hd]
        · funext d
          by_cases hd : d = deviceID
          · simp [snmpView, hd, hconn]
          · simp [snmpView, AList.lookup_insert_ne hd]

/-- The scanner after the events. -/
def snmpAfter (events : List SnmpEvent) : Scanner :=
  events.foldl snmpWatch Scanner.start

theorem snmpSubscribed_after (events : List SnmpEvent) : SnmpSubscribed (snmpAfter events) := by
  induction events using List.reverseRecOn with
  | nil => exact nofun
  | append_singleton events event ih =>
    rw [snmpAfter, List.foldl_append]
    cases event with
    | put req connect => exact snmpSubscribed_put ih req connect
    | delete key => exact (snmpDelete ih key).1

end Snmp

/-! ## OPC UA -/

section OpcUa

open OpcUaScanner

inductive OpcUaEvent where
  | put (req : SubscribeRequest) (server : Server)
  | delete (key : String)

def opcuaWatch (s : Scanner) : OpcUaEvent → Scanner
  | .put req server => (handleSubscribe s req server).1
  | .delete key =>
    match splitKey key with
    | none => s
    | some (subscriberID, deviceID) => (handleUnsubscribe s { deviceID, subscriberID }).1

def opcuaView (s : Scanner) : View where
  items deviceID subscriberID :=
    (((s.subscribers.lookup deviceID).bind (·.lookup subscriberID)).map
      DeviceSubscription.nodeIDs).getD ∅
  listed deviceID := (s.connections.lookup deviceID).isSome

structure OpcUaSubscribed (s : Scanner) : Prop where
  subscribers : ∀ d subs, s.subscribers.lookup d = some subs →
    Subscribed DeviceSubscription.nodeIDs subs
  connections : ∀ d conn, s.connections.lookup d = some conn →
    ∃ subs, s.subscribers.lookup d = some subs

/-- Whatever the server answers, the subscriber is entered and the device has a connection. -/
theorem handleSubscribe_complete {s : Scanner} {req : SubscribeRequest}
    (hreq : req.complete = true) (server : Server) :
    ∃ scanRate conn, (handleSubscribe s req server).1 =
      { addSubscriber s req.deviceID req.subscriberID req.nodeIDs scanRate with
        connections := s.connections.insert req.deviceID conn } := by
  generalize hs : addSubscriber s req.deviceID req.subscriberID req.nodeIDs
    (if req.scanRate ≤ 0 then 1000 else req.scanRate) = added
  have hconns : added.connections = s.connections := by rw [← hs, addSubscriber]
  rw [handleSubscribe, if_pos hreq]
  simp only [hs]
  split
  next conn e _ => exact ⟨_, conn, by rw [hs, hconns]⟩
  next conn _ => exact ⟨_, (monitorNodes conn req server).1, by rw [hs, hconns]⟩

theorem opcuaSubscribed_put {s : Scanner} (h : OpcUaSubscribed s) (req : SubscribeRequest)
    (server : Server) : OpcUaSubscribed (handleSubscribe s req server).1 := by
  by_cases hreq : req.complete = true
  · obtain ⟨scanRate, conn, heq⟩ := handleSubscribe_complete hreq server (s := s)
    have hnodes : req.nodeIDs.toFinset ≠ ∅ := by
      simp only [SubscribeRequest.complete, Bool.and_eq_true] at hreq
      simpa using hreq.1.2
    rw [heq]
    constructor
    · apply forall_lookup_insert h.subscribers
      refine ⟨keys_insert_ne_nil _ _ _, ?_⟩
      apply forall_lookup_insert
      · cases hsubs : s.subscribers.lookup req.deviceID with
        | none => exact nofun
        | some subs => exact (h.subscribers _ subs hsubs).items
      · intro hunion
        exact hnodes (Finset.union_eq_empty.mp hunion).2
    · apply forall_lookup_insert
      · intro d conn hconn
        obtain ⟨subs, hsubs⟩ := h.connections d conn hconn
        exact exists_lookup_insert hsubs _ _
      · exact ⟨_, AList.lookup_insert _⟩
  · rw [handleSubscribe, if_neg hreq]
    exact h

/-- The subscribers of a device after a request that lists no nodes. -/
theorem removeSubscriber_empty {s : Scanner} {deviceID : String}
    {subs : GoMap String DeviceSubscription} (hsubs : s.subscribers.lookup deviceID = some subs)
    (h : Subscribed DeviceSubscription.nodeIDs subs) (subscriberID : String) :
    ∃ subs', removeSubscriber s { deviceID, subscriberID } =
        ({ s with subscribers := s.subscribers.insert deviceID subs' }, false) ∧
      subs'.keys ≠ [] ∧ ∀ sub, subs'.lookup sub = subs.lookup sub := by
  rw [removeSubscriber]
  simp only [hsubs, List.foldl_nil]
  cases hsub : subs.lookup subscriberID with
  | none =>
    simp only [h.keys, if_false]
    exact ⟨subs, rfl, h.keys, fun _ => rfl⟩
  | some existing =>
    have hne : existing.nodeIDs ≠ ∅ := h.items _ _ hsub
    have hkeys := keys_insert_ne_nil subs subscriberID existing
    simp only [hne, if_false]
    exact ⟨_, if_neg hkeys, hkeys, lookup_insert_self hsub⟩

/-- The request that a deletion is turned into changes nothing. -/
theorem opcuaDelete {s : Scanner} (h : OpcUaSubscribed s) (key : String) :
    OpcUaSubscribed (opcuaWatch s (.delete key)) ∧
      opcuaView (opcuaWatch s (.delete key)) = opcuaView s := by
  rw [opcuaWatch]
  split
  next => exact ⟨h, rfl⟩
  next subscriberID deviceID _ =>
    cases hsubs : s.subscribers.lookup deviceID with
    | none =>
      -- the connection is removed, but a device without subscribers has none
      have hconn : s.connections.lookup deviceID = none := by
        by_contra hne
        obtain ⟨conn, hconn⟩ := Option.ne_none_iff_exists'.mp hne
        obtain ⟨subs, hsome⟩ := h.connections _ conn hconn
        cases hsubs.symm.trans hsome
      have herase : s.connections.erase deviceID = s.connections :=
        erase_of_lookup_none hconn
      have hs : (handleUnsubscribe s { deviceID, subscriberID }).1 = s := by
        rw [handleUnsubscribe, removeSubscriber]
        simp only [hsubs, removeConnection, herase]
      rw [hs]
      exact ⟨h, rfl⟩
    | some subs =>
      obtain ⟨subs', heq, hkeys, hlookup⟩ :=
        removeSubscriber_empty hsubs (h.subscribers _ subs hsubs) subscriberID
      rw [handleUnsubscribe, heq]
      constructor
      · constructor
        · apply forall_lookup_insert h.subscribers
          refine ⟨hkeys, ?_⟩
          intro sub v hv
          rw [hlookup] at hv
          exact (h.subscribers _ subs hsubs).items sub v hv
        · intro d conn hconn
          obtain ⟨known, hknown⟩ := h.connections d conn hconn
          exact exists_lookup_insert hknown _ _
      · apply View.ext
        · funext d sub
          by_cases hd : d = deviceID
          · simp [opcuaView, hd, hsubs, hlookup]
          · simp [opcuaView, AList.lookup_insert_ne hd]
        · rfl

/-- The scanner after the events. -/
def opcuaAfter (events : List OpcUaEvent) : Scanner :=
  events.foldl opcuaWatch {}

theorem opcuaSubscribed_after (events : List OpcUaEvent) :
    OpcUaSubscribed (opcuaAfter events) := by
  induction events using List.reverseRecOn with
  | nil => exact ⟨nofun, nofun⟩
  | append_singleton events event ih =>
    rw [opcuaAfter, List.foldl_append]
    cases event with
    | put req server => exact opcuaSubscribed_put ih req server
    | delete key => exact (opcuaDelete ih key).1

end OpcUa

/-! ## Deletions -/

/-- The deletion of the subscription, after the events, takes it away. -/
def SnmpDeletes (events : List SnmpEvent) (subscriberID deviceID : String) : Prop :=
  let key := subscriberID ++ "." ++ deviceID
  Unsubscribed (snmpView (snmpAfter events)) (snmpView (snmpWatch (snmpAfter events) (.delete key)))
    subscriberID deviceID

def OpcUaDeletes (events : List OpcUaEvent) (subscriberID deviceID : String) : Prop :=
  let key := subscriberID ++ "." ++ deviceID
  Unsubscribed (opcuaView (opcuaAfter events))
    (opcuaView (opcuaWatch (opcuaAfter events) (.delete key))) subscriberID deviceID

/-- Whatever was put and deleted before, the deletion of a subscription takes it away exactly when
there is none. -/
theorem kvDelete_unsubscribes_iff (subscriberID deviceID : String) :
    (∀ events, SnmpDeletes events subscriberID deviceID ↔
      (snmpView (snmpAfter events)).items deviceID subscriberID = ∅) ∧
    ∀ events, OpcUaDeletes events subscriberID deviceID ↔
      (opcuaView (opcuaAfter events)).items deviceID subscriberID = ∅ := by
  constructor
  · intro events
    rw [SnmpDeletes, (snmpDelete (snmpSubscribed_after events) _).2]
    exact unsubscribed_self_iff _ _ _
  · intro events
    rw [OpcUaDeletes, (opcuaDelete (opcuaSubscribed_after events) _).2]
    exact unsubscribed_self_iff _ _ _

def snmpPut : SnmpEvent :=
  .put { deviceID := "switch", host := "10.0.0.2", version := "2c", oids := ["1.3.6.1.2.1.1.3.0"],
         subscriberID := "gateway" } (.ok ())

def opcuaPut : OpcUaEvent :=
  .put { deviceID := "kiln", endpointURL := "opc.tcp://kiln:4840", nodeIDs := ["ns=2;i=1"],
         subscriberID := "gateway" } {}

/-- The subscriber keeps its item, and the device its connection. -/
theorem kvDelete_not_unsubscribes :
    ¬ SnmpDeletes [snmpPut] "gateway" "switch" ∧ ¬ OpcUaDeletes [opcuaPut] "gateway" "kiln" := by
  constructor
  · intro h
    exact absurd h.1 (by decide)
  · intro h
    exact absurd h.1 (by decide)

end ScannerKvWatch
