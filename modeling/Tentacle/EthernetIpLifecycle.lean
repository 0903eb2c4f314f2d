import Tentacle.EthernetIpScanner

/-!
# Connections of the EtherNet/IP scanner under concurrent requests

The bus calls `handleSubscribe` and `handleUnsubscribe` on a goroutine of its own for every
request. The table of connections is under the lock of the scanner and the subscribers of a
connection are under the lock of the connection, so a request is several sections, and those of
different requests alternate in any order. A connection that has left the table still exists for
the calls that have found it before; a second `close` of its stop channel panics.
-/

namespace EthernetIpLifecycle

open GoValues EthernetIpScanner

variable {F64 : Type}

structure Connection (F64 : Type) where
  device : DeviceConnection F64
  /-- How often the stop channel was closed. -/
  closes : Nat := 0
  /-- The poll loop was started. -/
  polling : Bool := false

def Connection.Empty (c : Connection F64) : Prop := c.device.subscribers.keys = []

instance (c : Connection F64) : Decidable c.Empty := inferInstanceAs (Decidable (_ = []))

/-- A call in progress, by the section that comes next. -/
inductive Call (F64 : Type) where
  | rate (req : SubscribeRequest F64) (conn : Nat) (existed : Bool)
  | tags (req : SubscribeRequest F64) (conn : Nat) (existed : Bool)
  | poll (req : SubscribeRequest F64) (conn : Nat) (existed : Bool)
  | remove (req : UnsubscribeRequest) (conn : Nat)
  | close (deviceID : String) (conn : Nat) (count : Nat)

structure Lifecycle (F64 : Type) where
  connections : GoMap String Nat := ∅
  conns : List (Connection F64) := []
  calls : List (Call F64) := []
  answers : List (Except String Nat) := []
  crashed : Bool := false

def setRate (req : SubscribeRequest F64) (c : Connection F64) : Connection F64 :=
  { c with device := { c.device with scanRate := req.rate } }

def addTags (req : SubscribeRequest F64) (c : Connection F64) : Connection F64 :=
  let structTypes := req.structTypes.entries.foldl (fun m e => m.insert e.1 e.2)
    c.device.structTypes
  { c with device := req.tags.foldl (subscribeTag req) { c.device with structTypes } }

/-- The two sections on the connection are what an undisturbed subscription does. -/
theorem addTags_setRate (req : SubscribeRequest F64) (c : Connection F64) :
    (addTags req (setRate req c)).device = subscribeConnection req c.device := rfl

def removeTags (req : UnsubscribeRequest) (c : Connection F64) : Connection F64 :=
  { c with device := { c.device with
      subscribers := removeSubscriber c.device.subscribers req } }

/-- The section of `handleSubscribe` under the lock of the scanner. -/
def subscribe (s : Lifecycle F64) (req : SubscribeRequest F64) : Lifecycle F64 :=
  if req.complete then
    match s.connections.lookup req.deviceID with
    | some i => { s with calls := s.calls ++ [.rate req i true] }
    | none =>
      { s with
        connections := s.connections.insert req.deviceID s.conns.length
        conns := s.conns ++ [{ device := newConnection req }]
        calls := s.calls ++ [.rate req s.conns.length false] }
  else { s with answers := s.answers ++ [.error "missing required fields"] }

def unsubscribe (s : Lifecycle F64) (req : UnsubscribeRequest) : Lifecycle F64 :=
  match s.connections.lookup req.deviceID with
  | some i => { s with calls := s.calls ++ [.remove req i] }
  | none => { s with answers := s.answers ++ [.ok 0] }

/-- The next section of a call that is no longer among those in progress. -/
def resume (s : Lifecycle F64) : Call F64 → Lifecycle F64
  | .rate req i existed =>
    { s with conns := s.conns.modify i (setRate req), calls := s.calls ++ [.tags req i existed] }
  | .tags req i existed =>
    { s with conns := s.conns.modify i (addTags req), calls := s.calls ++ [.poll req i existed] }
  | .poll req i existed =>
    { s with
      conns := s.conns.modify i fun c => { c with polling := c.polling || !existed }
      answers := s.answers ++ [.ok req.tags.length] }
  | .remove req i =>
    let conns := s.conns.modify i (removeTags req)
    if ∀ c ∈ conns[i]?, c.Empty then
      { s with conns := conns, calls := s.calls ++ [.close req.deviceID i req.tags.length] }
    else { s with conns := conns, answers := s.answers ++ [.ok req.tags.length] }
  | .close deviceID i count =>
    { s with
      connections := s.connections.erase deviceID
      conns := s.conns.modify i fun c => { c with closes := c.closes + 1 }
      answers := s.answers ++ [.ok count]
      -- `close` of a closed channel panics
      crashed := (s.conns[i]?.map Connection.closes).getD 0 ≠ 0 }

inductive Action (F64 : Type) where
  | subscribe (req : SubscribeRequest F64)
  | unsubscribe (req : UnsubscribeRequest)
  | resume (n : Nat)

def step (s : Lifecycle F64) (a : Action F64) : Option (Lifecycle F64) :=
  if s.crashed then none
  else
    match a with
    | .subscribe req => some (subscribe s req)
    | .unsubscribe req => some (unsubscribe s req)
    | .resume n => s.calls[n]?.map fun c => resume { s with calls := s.calls.eraseIdx n } c

/-- The connections of the table have a subscriber and a poll loop that was not told to stop, and
every connection with a subscriber is in the table. -/
structure Settled (s : Lifecycle F64) : Prop where
  table : ∀ d i, s.connections.lookup d = some i →
    ∃ c, s.conns[i]? = some c ∧ c.device.deviceID = d ∧ ¬ c.Empty ∧ c.polling = true ∧ c.closes = 0
  subscribed : ∀ i c, s.conns[i]? = some c → ¬ c.Empty →
    s.connections.lookup c.device.deviceID = some i

/-- No stop channel was closed twice, and between the calls the table is right. -/
def Orderly (s : Lifecycle F64) : Prop :=
  (∀ c ∈ s.conns, c.closes ≤ 1) ∧ (s.calls = [] → Settled s)

/-- The connection that the call will still change, or close. -/
def Call.pending : Call F64 → Option Nat
  | .rate _ i _ | .tags _ i _ | .remove _ i | .close _ i _ => some i
  | .poll _ _ _ => none

/-- The device whose connection the call will close. -/
def Call.closes : Call F64 → Option String
  | .close deviceID _ _ => some deviceID
  | _ => none

/-- Nobody looks up a device whose connection is about to be closed, and an unsubscription that
leaves no subscriber finds no other call on its way to the connection. -/
def Undisturbed (s : Lifecycle F64) : Action F64 → Prop
  | .subscribe req => ∀ c ∈ s.calls, c.closes ≠ some req.deviceID
  | .unsubscribe req => ∀ c ∈ s.calls, c.closes ≠ some req.deviceID
  | .resume n =>
    match s.calls[n]? with
    | some (.remove req i) =>
      (∀ c ∈ s.conns[i]?, (removeTags req c).Empty) →
        ∀ c ∈ s.calls.eraseIdx n, c.pending ≠ some i
    | _ => True

instance Undisturbed.decidable (s : Lifecycle F64) : (a : Action F64) → Decidable (Undisturbed s a)
  | .subscribe req => inferInstanceAs (Decidable (∀ c ∈ s.calls, c.closes ≠ some req.deviceID))
  | .unsubscribe req => inferInstanceAs (Decidable (∀ c ∈ s.calls, c.closes ≠ some req.deviceID))
  | .resume n =>
    match h : s.calls[n]? with
    | some (.remove req i) => decidable_of_iff
      ((∀ c ∈ s.conns[i]?, (removeTags req c).Empty) →
        ∀ c ∈ s.calls.eraseIdx n, c.pending ≠ some i) (by simp [Undisturbed, h])
    | none | some (.rate ..) | some (.tags ..) | some (.poll ..) | some (.close ..) =>
      isTrue (by simp [Undisturbed, h])

/-! ## What the sections keep -/

@[simp] theorem addTags_deviceID (req : SubscribeRequest F64) (c : Connection F64) :
    (addTags req c).device.deviceID = c.device.deviceID := deviceID_foldl_subscribeTag _ _ _

/-- A subscriber with a tag is one of the device from then on. -/
theorem mem_foldl_subscribeTag (req : SubscribeRequest F64) (tags : List String)
    (conn : DeviceConnection F64) (h : tags ≠ [] ∨ req.subscriberID ∈ conn.subscribers) :
    req.subscriberID ∈ (tags.foldl (subscribeTag req) conn).subscribers := by
  induction tags generalizing conn with
  | nil => exact h.resolve_left (fun hne => hne rfl)
  | cons tag tags ih =>
    apply ih
    exact .inr ((AList.mem_insert _).mpr (.inl rfl))

/-- A subscription leaves a subscriber. -/
theorem not_empty_addTags {req : SubscribeRequest F64} (htags : req.tags ≠ [])
    (c : Connection F64) : ¬ (addTags req c).Empty := by
  intro hempty
  have hmem : req.subscriberID ∈ (addTags req c).device.subscribers :=
    mem_foldl_subscribeTag req req.tags _ (.inl htags)
  have hkeys := AList.mem_keys.mp hmem
  rw [hempty] at hkeys
  cases hkeys

/-- A change of one connection leaves the others. -/
theorem conns_modify {conns : List (Connection F64)} {i j : Nat}
    {f : Connection F64 → Connection F64} {c : Connection F64}
    (h : (conns.modify i f)[j]? = some c) :
    ∃ c₀, conns[j]? = some c₀ ∧ ((j = i ∧ c = f c₀) ∨ (j ≠ i ∧ c = c₀)) := by
  rw [List.getElem?_modify] at h
  obtain ⟨c₀, hc₀, rfl⟩ := Option.map_eq_some_iff.mp h
  refine ⟨c₀, hc₀, ?_⟩
  by_cases hij : i = j
  · exact .inl ⟨hij.symm, if_pos hij⟩
  · exact .inr ⟨Ne.symm hij, if_neg hij⟩

theorem modify_conns {conns : List (Connection F64)} {j : Nat} {c : Connection F64}
    (h : conns[j]? = some c) (i : Nat) (f : Connection F64 → Connection F64) :
    (conns.modify i f)[j]? = some (if i = j then f c else c) := by
  rw [List.getElem?_modify, h]
  rfl

/-! ## The invariant -/

def Call.conn : Call F64 → Nat
  | .rate _ i _ | .tags _ i _ | .poll _ i _ | .remove _ i | .close _ i _ => i

def Call.deviceID : Call F64 → String
  | .rate req _ _ | .tags req _ _ | .poll req _ _ => req.deviceID
  | .remove req _ => req.deviceID
  | .close deviceID _ _ => deviceID

/-- The call will add a subscriber to the connection, or close it. -/
def Call.Settles (i : Nat) : Call F64 → Prop
  | .rate _ j _ | .tags _ j _ | .close _ j _ => i = j
  | .poll _ _ _ | .remove _ _ => False

/-- The call has created the connection and will start its poll loop. -/
def Call.Creates (i : Nat) : Call F64 → Prop
  | .rate _ j existed | .tags _ j existed | .poll _ j existed => i = j ∧ existed = false
  | .remove _ _ | .close _ _ _ => False

theorem Call.conn_of_pending (call : Call F64) {i : Nat} (h : call.pending = some i) :
    i = call.conn := by
  cases call with
  | rate | tags | remove | close => exact (Option.some.inj h).symm
  | poll => cases h

theorem Call.Settles.conn_eq {call : Call F64} {i : Nat} (h : call.Settles i) :
    i = call.conn := by
  cases call with
  | rate | tags | close => exact h
  | poll | remove => exact h.elim

theorem Call.Creates.conn_eq {call : Call F64} {i : Nat} (h : call.Creates i) :
    i = call.conn := by
  cases call with
  | rate | tags | poll => exact h.1
  | remove | close => exact h.elim

def Call.Complete : Call F64 → Prop
  | .rate req _ _ | .tags req _ _ => req.tags ≠ []
  | .poll _ _ _ | .remove _ _ | .close _ _ _ => True

def pendingOn (calls : List (Call F64)) (i : Nat) : Nat := calls.countP (·.pending = some i)

structure Sound (connections : GoMap String Nat) (conns : List (Connection F64))
    (calls : List (Call F64)) : Prop where
  entry : ∀ d i, connections.lookup d = some i →
    ∃ c, conns[i]? = some c ∧ c.device.deviceID = d ∧ c.closes = 0
  opened : ∀ i c, conns[i]? = some c → c.closes = 0 →
    connections.lookup c.device.deviceID = some i
  closed : ∀ i c, conns[i]? = some c → c.closes ≠ 0 →
    c.closes = 1 ∧ c.Empty ∧ pendingOn calls i = 0
  device : ∀ call ∈ calls, ∃ c, conns[call.conn]? = some c ∧ c.device.deviceID = call.deviceID
  closing : ∀ d i k, Call.close d i k ∈ calls →
    pendingOn calls i = 1 ∧ ∀ c, conns[i]? = some c → c.Empty
  settles : ∀ i c, conns[i]? = some c → c.closes = 0 → c.Empty → ∃ call ∈ calls, call.Settles i
  creates : ∀ i c, conns[i]? = some c → c.closes = 0 → c.polling = false →
    ∃ call ∈ calls, call.Creates i
  complete : ∀ call ∈ calls, call.Complete

/-- From the account of the calls the order of the connections is read off. -/
theorem Sound.orderly {s : Lifecycle F64} (h : Sound s.connections s.conns s.calls) :
    Orderly s := by
  constructor
  · intro c hc
    obtain ⟨i, hi⟩ := List.mem_iff_getElem?.mp hc
    by_cases hzero : c.closes = 0
    · omega
    · exact Nat.le_of_eq (h.closed i c hi hzero).1
  · intro hcalls
    have hnone : ∀ call, call ∉ s.calls := by
      rw [hcalls]
      exact fun _ hmem => by cases hmem
    constructor
    · intro d i hi
      obtain ⟨c, hc, hd, hzero⟩ := h.entry d i hi
      refine ⟨c, hc, hd, ?_, ?_, hzero⟩
      · intro hempty
        obtain ⟨call, hcall, -⟩ := h.settles i c hc hzero hempty
        exact hnone call hcall
      · by_contra hpoll
        obtain ⟨call, hcall, -⟩ := h.creates i c hc hzero (Bool.eq_false_iff.mpr hpoll)
        exact hnone call hcall
    · intro i c hc hsub
      apply h.opened i c hc
      by_contra hzero
      exact hsub (h.closed i c hc hzero).2.1

/-- The calls that are under way may go on in any order. -/
theorem Sound.perm {connections : GoMap String Nat} {conns : List (Connection F64)}
    {calls calls' : List (Call F64)} (h : Sound connections conns calls)
    (hperm : calls.Perm calls') : Sound connections conns calls' := by
  have hpending : ∀ i, pendingOn calls' i = pendingOn calls i := fun i => (hperm.countP_eq _).symm
  constructor
  · exact h.entry
  · exact h.opened
  · intro i c hc hzero
    rw [hpending]
    exact h.closed i c hc hzero
  · exact fun call hcall => h.device call (hperm.mem_iff.mpr hcall)
  · intro d i k hcall
    rw [hpending]
    exact h.closing d i k (hperm.mem_iff.mpr hcall)
  · intro i c hc hzero hempty
    obtain ⟨call, hcall, hi⟩ := h.settles i c hc hzero hempty
    exact ⟨call, hperm.mem_iff.mp hcall, hi⟩
  · intro i c hc hzero hpoll
    obtain ⟨call, hcall, hi⟩ := h.creates i c hc hzero hpoll
    exact ⟨call, hperm.mem_iff.mp hcall, hi⟩
  · exact fun call hcall => h.complete call (hperm.mem_iff.mpr hcall)

theorem pendingOn_append (calls calls' : List (Call F64)) (i : Nat) :
    pendingOn (calls ++ calls') i = pendingOn calls i + pendingOn calls' i := List.countP_append

theorem pendingOn_cons_of_ne {call : Call F64} {i : Nat} (h : i ≠ call.conn)
    (calls : List (Call F64)) : pendingOn (call :: calls) i = pendingOn calls i := by
  have hne : call.pending ≠ some i := fun hp => h (call.conn_of_pending hp)
  rw [pendingOn, List.countP_cons]
  simp [pendingOn, hne]

theorem one_le_pendingOn {calls : List (Call F64)} {call : Call F64} {i : Nat}
    (hcall : call ∈ calls) (hi : call.pending = some i) : 1 ≤ pendingOn calls i :=
  List.countP_pos_iff.mpr ⟨call, hcall, decide_eq_true hi⟩

/-- A call other than the first does what the first does not do. -/
theorem exists_mem_rest {call : Call F64} {rest : List (Call F64)} {P : Call F64 → Prop}
    (h : ∃ x ∈ call :: rest, P x) (hcall : ¬ P call) : ∃ x ∈ rest, P x := by
  obtain ⟨x, hx, hp⟩ := h
  obtain rfl | hx := List.mem_cons.mp hx
  · exact absurd hp hcall
  · exact ⟨x, hx, hp⟩

section Sections

variable {connections : GoMap String Nat} {conns : List (Connection F64)}
  {calls rest : List (Call F64)} {call : Call F64}

/-- A section of a call on its connection, after which the call is in `next` or has ended. -/
theorem Sound.touch (h : Sound connections conns (call :: rest)) {next : List (Call F64)}
    {f : Connection F64 → Connection F64}
    (hdevice : ∀ c, (f c).device.deviceID = c.device.deviceID)
    (hcloses : ∀ c, (f c).closes = c.closes)
    (hnext : ∀ x ∈ next, x.conn = call.conn ∧ x.deviceID = call.deviceID ∧ x.Complete)
    (hpending : ∀ j, pendingOn next j ≤ pendingOn [call] j)
    (hkeep : call.pending ≠ some call.conn → ∀ c, c.Empty → (f c).Empty)
    (hclose : ∀ d j k, Call.close d j k ∈ next → pendingOn rest j = 0 ∧
      ∀ c, conns[j]? = some c → (f c).Empty)
    (hsettles : ∀ c, conns[call.conn]? = some c → (f c).Empty →
      (c.Empty ∧ ¬ call.Settles call.conn) ∨ ∃ x ∈ next, x.Settles call.conn)
    (hcreates : call.Creates call.conn →
      (∃ x ∈ next, x.Creates call.conn) ∨ ∀ c, (f c).polling = true)
    (hpolling : ∀ c, (f c).polling = false → c.polling = false) :
    Sound connections (conns.modify call.conn f) (next ++ rest) := by
  have hle : ∀ j, pendingOn (next ++ rest) j ≤ pendingOn (call :: rest) j := by
    intro j
    rw [pendingOn_append, ← List.singleton_append, pendingOn_append]
    exact Nat.add_le_add_right (hpending j) _
  have hrest : ∀ x ∈ rest, x ∈ next ++ rest := fun x hx => List.mem_append_right _ hx
  constructor
  case entry =>
    intro d i hi
    obtain ⟨c, hc, hd, hzero⟩ := h.entry d i hi
    refine ⟨_, modify_conns hc _ _, ?_⟩
    split
    next => exact ⟨(hdevice c).trans hd, (hcloses c).trans hzero⟩
    next => exact ⟨hd, hzero⟩
  case opened =>
    intro i c hc hzero
    obtain ⟨c₀, hc₀, ⟨-, rfl⟩ | ⟨-, rfl⟩⟩ := conns_modify hc
    · rw [hdevice]
      exact h.opened i c₀ hc₀ ((hcloses c₀).symm.trans hzero)
    · exact h.opened i c hc₀ hzero
  case closed =>
    intro i c hc hzero
    obtain ⟨c₀, hc₀, ⟨rfl, rfl⟩ | ⟨-, rfl⟩⟩ := conns_modify hc
    · rw [hcloses] at hzero ⊢
      obtain ⟨hone, hempty, hnone⟩ := h.closed _ c₀ hc₀ hzero
      refine ⟨hone, hkeep ?_ c₀ hempty, Nat.le_zero.mp (hnone ▸ hle _)⟩
      intro hpend
      have hpos : 1 ≤ pendingOn (call :: rest) call.conn :=
        one_le_pendingOn List.mem_cons_self hpend
      omega
    · obtain ⟨hone, hempty, hnone⟩ := h.closed i c hc₀ hzero
      exact ⟨hone, hempty, Nat.le_zero.mp (hnone ▸ hle i)⟩
  case device =>
    have hfound : ∀ x ∈ call :: rest, ∃ c, (conns.modify call.conn f)[x.conn]? = some c ∧
        c.device.deviceID = x.deviceID := by
      intro x hx
      obtain ⟨c, hc, hd⟩ := h.device x hx
      refine ⟨_, modify_conns hc _ _, ?_⟩
      split
      next => exact (hdevice c).trans hd
      next => exact hd
    intro x hx
    obtain hx | hx := List.mem_append.mp hx
    · obtain ⟨hconn, hd, -⟩ := hnext x hx
      rw [hconn, hd]
      exact hfound call List.mem_cons_self
    · exact hfound x (List.mem_cons_of_mem _ hx)
  case closing =>
    intro d i k hx
    have hone := one_le_pendingOn hx rfl
    have hcall : pendingOn [call] i ≤ 1 := List.countP_le_length
    obtain hx | hx := List.mem_append.mp hx
    · obtain ⟨hnone, hf⟩ := hclose d i k hx
      obtain ⟨hconn, -, -⟩ := hnext _ hx
      have hpend := hpending i
      rw [pendingOn_append, hnone] at hone ⊢
      refine ⟨by omega, ?_⟩
      intro c hc
      obtain ⟨c₀, hc₀, ⟨-, rfl⟩ | ⟨hne, -⟩⟩ := conns_modify hc
      · exact hf c₀ hc₀
      · exact absurd hconn hne
    · obtain ⟨hlast, hempty⟩ := h.closing d i k (List.mem_cons_of_mem _ hx)
      refine ⟨Nat.le_antisymm (hlast ▸ hle i) hone, ?_⟩
      intro c hc
      obtain ⟨c₀, hc₀, ⟨rfl, rfl⟩ | ⟨-, rfl⟩⟩ := conns_modify hc
      · apply hkeep _ c₀ (hempty c₀ hc₀)
        -- the close is the only call on its way to the connection
        intro hpend
        have hfirst := one_le_pendingOn (List.mem_singleton_self call) hpend
        have hsecond := one_le_pendingOn hx rfl
        rw [← List.singleton_append, pendingOn_append] at hlast
        omega
      · exact hempty c hc₀
  case settles =>
    intro i c hc hzero hempty
    obtain ⟨c₀, hc₀, ⟨rfl, rfl⟩ | ⟨hne, rfl⟩⟩ := conns_modify hc
    · obtain ⟨hempty, hnot⟩ | ⟨x, hx, hi⟩ := hsettles c₀ hc₀ hempty
      · have hopen : c₀.closes = 0 := (hcloses c₀).symm.trans hzero
        obtain ⟨x, hx, hi⟩ := exists_mem_rest (h.settles _ c₀ hc₀ hopen hempty) hnot
        exact ⟨x, hrest x hx, hi⟩
      · exact ⟨x, List.mem_append_left _ hx, hi⟩
    · obtain ⟨x, hx, hi⟩ := exists_mem_rest (h.settles i c hc₀ hzero hempty)
        fun hi => hne hi.conn_eq
      exact ⟨x, hrest x hx, hi⟩
  case creates =>
    intro i c hc hzero hpoll
    obtain ⟨c₀, hc₀, ⟨rfl, rfl⟩ | ⟨hne, rfl⟩⟩ := conns_modify hc
    · obtain ⟨x, hx, hi⟩ :=
        h.creates _ c₀ hc₀ ((hcloses c₀).symm.trans hzero) (hpolling c₀ hpoll)
      obtain rfl | hx := List.mem_cons.mp hx
      · obtain ⟨y, hy, hi⟩ | htrue := hcreates hi
        · exact ⟨y, List.mem_append_left _ hy, hi⟩
        · cases (htrue c₀).symm.trans hpoll
      · exact ⟨x, hrest x hx, hi⟩
    · obtain ⟨x, hx, hi⟩ := exists_mem_rest (h.creates i c hc₀ hzero hpoll)
        fun hi => hne hi.conn_eq
      exact ⟨x, hrest x hx, hi⟩
  case complete =>
    intro x hx
    obtain hx | hx := List.mem_append.mp hx
    · exact (hnext x hx).2.2
    · exact h.complete x (List.mem_cons_of_mem _ hx)

/-- The rate of a connection is set by a call that has its tags still before it. -/
theorem sound_rate {req : SubscribeRequest F64} {i : Nat} {existed : Bool}
    (h : Sound connections conns (.rate req i existed :: rest)) :
    Sound connections (conns.modify i (setRate req)) ([.tags req i existed] ++ rest) := by
  have hcomplete := h.complete _ List.mem_cons_self
  apply h.touch
  case hdevice | hcloses => exact fun _ => rfl
  case hnext =>
    intro x hx
    cases List.mem_singleton.mp hx
    exact ⟨rfl, rfl, hcomplete⟩
  case hpending => exact fun _ => Nat.le_refl _
  case hkeep => exact fun _ _ hc => hc
  case hclose =>
    intro d j k hx
    cases List.mem_singleton.mp hx
  case hsettles => exact fun _ _ _ => .inr ⟨_, List.mem_singleton_self _, rfl⟩
  case hcreates => exact fun hi => .inl ⟨_, List.mem_singleton_self _, hi⟩
  case hpolling => exact fun _ hc => hc

/-- A subscription adds its tags, and with them its subscriber. -/
theorem sound_tags {req : SubscribeRequest F64} {i : Nat} {existed : Bool}
    (h : Sound connections conns (.tags req i existed :: rest)) :
    Sound connections (conns.modify i (addTags req)) ([.poll req i existed] ++ rest) := by
  have hcomplete := h.complete _ List.mem_cons_self
  apply h.touch
  case hdevice => exact addTags_deviceID req
  case hcloses => exact fun _ => rfl
  case hnext =>
    intro x hx
    cases List.mem_singleton.mp hx
    exact ⟨rfl, rfl, trivial⟩
  case hpending => exact fun _ => Nat.zero_le _
  case hkeep => exact fun hne => absurd rfl hne
  case hclose =>
    intro d j k hx
    cases List.mem_singleton.mp hx
  case hsettles => exact fun c _ hempty => absurd hempty (not_empty_addTags hcomplete c)
  case hcreates => exact fun hi => .inl ⟨_, List.mem_singleton_self _, hi⟩
  case hpolling => exact fun _ hc => hc

/-- The poll is started by the call that made the connection, and by no other. -/
theorem sound_poll {req : SubscribeRequest F64} {i : Nat} {existed : Bool}
    (h : Sound connections conns (.poll req i existed :: rest)) :
    Sound connections (conns.modify i fun c => { c with polling := c.polling || !existed })
      ([] ++ rest) := by
  apply h.touch
  case hdevice | hcloses => exact fun _ => rfl
  case hnext => exact fun x hx => by cases hx
  case hpending => exact fun _ => Nat.zero_le _
  case hkeep => exact fun _ _ hc => hc
  case hclose => exact fun d j k hx => by cases hx
  case hsettles => exact fun c _ hempty => .inl ⟨hempty, fun hi => hi⟩
  case hcreates =>
    rintro ⟨-, rfl⟩
    exact .inr fun c => Bool.or_true _
  case hpolling => exact fun c hc => (Bool.or_eq_false_iff.mp hc).1

/-- The last subscriber leaves, and no other call is on its way to the connection. -/
theorem sound_removeLast {req : UnsubscribeRequest} {i : Nat} (k : Nat)
    (h : Sound connections conns (.remove req i :: rest))
    (hempty : ∀ c ∈ conns[i]?, (removeTags req c).Empty)
    (halone : ∀ c ∈ rest, c.pending ≠ some i) :
    Sound connections (conns.modify i (removeTags req))
      ([.close req.deviceID i k] ++ rest) := by
  apply h.touch
  case hdevice | hcloses => exact fun _ => rfl
  case hnext =>
    intro x hx
    cases List.mem_singleton.mp hx
    exact ⟨rfl, rfl, trivial⟩
  case hpending => exact fun _ => Nat.le_refl _
  case hkeep => exact fun hne => absurd rfl hne
  case hclose =>
    intro d j k hx
    cases List.mem_singleton.mp hx
    refine ⟨?_, hempty⟩
    apply List.countP_eq_zero.mpr
    intro x hx
    simpa using halone x hx
  case hsettles => exact fun _ _ _ => .inr ⟨_, List.mem_singleton_self _, rfl⟩
  case hcreates => exact fun hi => hi.elim
  case hpolling => exact fun _ hc => hc

/-- An unsubscription that leaves a subscriber closes nothing. -/
theorem sound_remove {req : UnsubscribeRequest} {i : Nat}
    (h : Sound connections conns (.remove req i :: rest))
    (hsome : ¬ ∀ c ∈ conns[i]?, (removeTags req c).Empty) :
    Sound connections (conns.modify i (removeTags req)) ([] ++ rest) := by
  apply h.touch
  case hdevice | hcloses => exact fun _ => rfl
  case hnext => exact fun x hx => by cases hx
  case hpending => exact fun _ => Nat.zero_le _
  case hkeep => exact fun hne => absurd rfl hne
  case hclose => exact fun d j k hx => by cases hx
  case hsettles =>
    intro c hc hempty
    refine absurd ?_ hsome
    intro c' hc'
    cases hc.symm.trans hc'
    exact hempty
  case hcreates => exact fun hi => hi.elim
  case hpolling => exact fun _ hc => hc

/-- The last unsubscription closes the connection that it took out of the table. -/
theorem sound_close {d : String} {i k : Nat}
    (h : Sound connections conns (.close d i k :: rest)) :
    Sound (connections.erase d) (conns.modify i fun c => { c with closes := c.closes + 1 })
      rest := by
  obtain ⟨ci, hci, (hd : ci.device.deviceID = d)⟩ := h.device _ List.mem_cons_self
  obtain ⟨hlast, hempty⟩ := h.closing d i k List.mem_cons_self
  have hzero : ci.closes = 0 := by
    by_contra hne
    have hnone := (h.closed i ci hci hne).2.2
    omega
  have hentry : connections.lookup d = some i := hd ▸ h.opened i ci hci hzero
  have hsplit : ∀ j, pendingOn (.close d i k :: rest) j =
      pendingOn rest j + if i = j then 1 else 0 := by
    intro j
    rw [pendingOn, List.countP_cons]
    simp [pendingOn, Call.pending]
  have hnone : pendingOn rest i = 0 := by
    have hi := hsplit i
    rw [hlast, if_pos rfl] at hi
    omega
  -- the other connections are as before
  have hother : ∀ (j : Nat) c,
      (conns.modify i fun c => { c with closes := c.closes + 1 })[j]? = some c →
        c.closes = 0 → j ≠ i ∧ conns[j]? = some c := by
    intro j c hc hopen
    obtain ⟨c₀, hc₀, ⟨-, rfl⟩ | ⟨hne, rfl⟩⟩ := conns_modify hc
    · exact absurd hopen (Nat.succ_ne_zero _)
    · exact ⟨hne, hc₀⟩
  constructor
  case entry =>
    intro d' j hj
    obtain ⟨hdd, hj⟩ := lookup_erase_some hj
    obtain ⟨c, hc, hd', hopen⟩ := h.entry d' j hj
    have hne : i ≠ j := by
      rintro rfl
      cases hci.symm.trans hc
      exact hdd (hd'.symm.trans hd)
    exact ⟨c, by rw [modify_conns hc, if_neg hne], hd', hopen⟩
  case opened =>
    intro j c hc hopen
    obtain ⟨hne, hc⟩ := hother j c hc hopen
    have hj := h.opened j c hc hopen
    have hdd : c.device.deviceID ≠ d := by
      intro heq
      rw [heq, hentry, Option.some.injEq] at hj
      exact hne hj.symm
    exact (AList.lookup_erase_ne hdd).trans hj
  case closed =>
    intro j c hc hclosed
    obtain ⟨c₀, hc₀, ⟨rfl, rfl⟩ | ⟨-, rfl⟩⟩ := conns_modify hc
    · cases hci.symm.trans hc₀
      exact ⟨congrArg (· + 1) hzero, hempty ci hci, hnone⟩
    · obtain ⟨hone, hempty, hpend⟩ := h.closed j c hc₀ hclosed
      rw [hsplit] at hpend
      exact ⟨hone, hempty, Nat.eq_zero_of_add_eq_zero_right hpend⟩
  case device =>
    intro x hx
    obtain ⟨c, hc, hd'⟩ := h.device x (List.mem_cons_of_mem _ hx)
    refine ⟨_, modify_conns hc _ _, ?_⟩
    split <;> exact hd'
  case closing =>
    intro d' j k' hx
    obtain ⟨hone, hempty⟩ := h.closing d' j k' (List.mem_cons_of_mem _ hx)
    have hne : i ≠ j := by
      rintro rfl
      have hpos := one_le_pendingOn hx rfl
      omega
    rw [hsplit, if_neg hne] at hone
    refine ⟨hone, ?_⟩
    intro c hc
    obtain ⟨c₀, hc₀, ⟨heq, -⟩ | ⟨-, rfl⟩⟩ := conns_modify hc
    · exact absurd heq.symm hne
    · exact hempty c hc₀
  case settles =>
    intro j c hc hopen hempty
    obtain ⟨hne, hc⟩ := hother j c hc hopen
    exact exists_mem_rest (h.settles j c hc hopen hempty) fun hj => hne hj.conn_eq
  case creates =>
    intro j c hc hopen hpoll
    obtain ⟨hne, hc⟩ := hother j c hc hopen
    exact exists_mem_rest (h.creates j c hc hopen hpoll) fun hj => hne hj.conn_eq
  case complete => exact fun x hx => h.complete x (List.mem_cons_of_mem _ hx)

/-- A call finds an open connection in the table. -/
theorem sound_look (h : Sound connections conns calls)
    (hentry : connections.lookup call.deviceID = some call.conn) (hcomplete : call.Complete)
    (hnot : call.closes = none) (hok : ∀ c ∈ calls, c.closes ≠ some call.deviceID) :
    Sound connections conns (call :: calls) := by
  obtain ⟨ci, hci, hd, hzero⟩ := h.entry _ _ hentry
  constructor
  case entry => exact h.entry
  case opened => exact h.opened
  case closed =>
    intro j c hc hclosed
    have hne : j ≠ call.conn := by
      rintro rfl
      cases hci.symm.trans hc
      exact hclosed hzero
    rw [pendingOn_cons_of_ne hne]
    exact h.closed j c hc hclosed
  case device =>
    intro x hx
    obtain rfl | hx := List.mem_cons.mp hx
    · exact ⟨ci, hci, hd⟩
    · exact h.device x hx
  case closing =>
    intro d j k hx
    obtain rfl | hx := List.mem_cons.mp hx
    · cases hnot
    · have hne : j ≠ call.conn := by
        rintro rfl
        obtain ⟨c, hc, hcd⟩ := h.device _ hx
        cases hci.symm.trans hc
        exact hok _ hx (congrArg some (hcd.symm.trans hd))
      rw [pendingOn_cons_of_ne hne]
      exact h.closing d j k hx
  case settles =>
    intro j c hc hopen hempty
    obtain ⟨x, hx, hj⟩ := h.settles j c hc hopen hempty
    exact ⟨x, List.mem_cons_of_mem _ hx, hj⟩
  case creates =>
    intro j c hc hopen hpoll
    obtain ⟨x, hx, hj⟩ := h.creates j c hc hopen hpoll
    exact ⟨x, List.mem_cons_of_mem _ hx, hj⟩
  case complete =>
    intro x hx
    obtain rfl | hx := List.mem_cons.mp hx
    · exact hcomplete
    · exact h.complete x hx

/-- A subscription of an unknown device opens one connection for it. -/
theorem sound_create (h : Sound connections conns calls) {req : SubscribeRequest F64}
    (hnone : connections.lookup req.deviceID = none) (hcomplete : req.tags ≠ []) :
    Sound (connections.insert req.deviceID conns.length)
      (conns ++ [{ device := newConnection req }]) (.rate req conns.length false :: calls) := by
  have hold : ∀ (j : Nat) c, conns[j]? = some c →
      (conns ++ [{ device := newConnection req }])[j]? = some c :=
    fun _ _ hc => getElem?_snoc_iff.mpr (.inl hc)
  have hnew : (conns ++ [{ device := newConnection req }])[conns.length]? =
      some { device := newConnection req } := List.getElem?_concat_length
  have hpending : ∀ (j : Nat) c, conns[j]? = some c →
      pendingOn (.rate req conns.length false :: calls) j = pendingOn calls j := by
    intro j c hc
    obtain ⟨hj, -⟩ := List.getElem?_eq_some_iff.mp hc
    exact pendingOn_cons_of_ne (Nat.ne_of_lt hj) calls
  constructor
  case entry =>
    apply forall_lookup_insert
    · intro d j hj
      obtain ⟨c, hc, hd, hzero⟩ := h.entry d j hj
      exact ⟨c, hold j c hc, hd, hzero⟩
    · exact ⟨_, hnew, rfl, rfl⟩
  case opened =>
    intro j c hc hopen
    obtain hc | ⟨rfl, rfl⟩ := getElem?_snoc_iff.mp hc
    · have hj := h.opened j c hc hopen
      have hne : c.device.deviceID ≠ req.deviceID := by
        intro heq
        rw [heq, hnone] at hj
        cases hj
      exact (AList.lookup_insert_ne hne).trans hj
    · exact AList.lookup_insert _
  case closed =>
    intro j c hc hclosed
    obtain hc | ⟨-, rfl⟩ := getElem?_snoc_iff.mp hc
    · rw [hpending j c hc]
      exact h.closed j c hc hclosed
    · exact absurd rfl hclosed
  case device =>
    intro x hx
    obtain rfl | hx := List.mem_cons.mp hx
    · exact ⟨_, hnew, rfl⟩
    · obtain ⟨c, hc, hd⟩ := h.device x hx
      exact ⟨c, hold _ c hc, hd⟩
  case closing =>
    intro d j k hx
    obtain hx | hx := List.mem_cons.mp hx
    · cases hx
    · obtain ⟨c, hc, -⟩ := h.device _ hx
      rw [hpending j c hc]
      obtain ⟨hone, hempty⟩ := h.closing d j k hx
      refine ⟨hone, ?_⟩
      intro c' hc'
      cases (hold j c hc).symm.trans hc'
      exact hempty c hc
  case settles =>
    intro j c hc hopen hempty
    obtain hc | ⟨rfl, -⟩ := getElem?_snoc_iff.mp hc
    · obtain ⟨x, hx, hj⟩ := h.settles j c hc hopen hempty
      exact ⟨x, List.mem_cons_of_mem _ hx, hj⟩
    · exact ⟨_, List.mem_cons_self, rfl⟩
  case creates =>
    intro j c hc hopen hpoll
    obtain hc | ⟨rfl, -⟩ := getElem?_snoc_iff.mp hc
    · obtain ⟨x, hx, hj⟩ := h.creates j c hc hopen hpoll
      exact ⟨x, List.mem_cons_of_mem _ hx, hj⟩
    · exact ⟨_, List.mem_cons_self, rfl, rfl⟩
  case complete =>
    intro x hx
    obtain rfl | hx := List.mem_cons.mp hx
    · exact hcomplete
    · exact h.complete x hx

end Sections

def SoundState (s : Lifecycle F64) : Prop := Sound s.connections s.conns s.calls

/-- A call that goes on undisturbed keeps the account. -/
theorem resume_sound {s : Lifecycle F64} {n : Nat} {call : Call F64} (h : SoundState s)
    (hcall : s.calls[n]? = some call) (hok : Undisturbed s (.resume n)) :
    SoundState (resume { s with calls := s.calls.eraseIdx n } call) := by
  have hperm : s.calls.Perm (call :: s.calls.eraseIdx n) := by
    obtain ⟨hn, rfl⟩ := List.getElem?_eq_some_iff.mp hcall
    exact (List.getElem_cons_eraseIdx_perm hn).symm
  have h := Sound.perm h hperm
  cases call with
  | rate req i existed => exact (sound_rate h).perm List.perm_append_comm
  | tags req i existed => exact (sound_tags h).perm List.perm_append_comm
  | poll req i existed => exact sound_poll h
  | remove req i =>
    rw [Undisturbed, hcall] at hok
    have hiff : (∀ c ∈ (s.conns.modify i (removeTags req))[i]?, c.Empty) ↔
        ∀ c ∈ s.conns[i]?, (removeTags req c).Empty := by
      rw [List.getElem?_modify]
      simp
    rw [resume, SoundState]
    by_cases hlast : ∀ c ∈ s.conns[i]?, (removeTags req c).Empty
    · rw [if_pos (hiff.mpr hlast)]
      exact (sound_removeLast req.tags.length h hlast (hok hlast)).perm List.perm_append_comm
    · rw [if_neg (mt hiff.mp hlast)]
      exact sound_remove h hlast
  | close d i k => exact sound_close h

/-- Each step that no other call of the device disturbs keeps the account. -/
theorem step_sound {s t : Lifecycle F64} {a : Action F64} (h : SoundState s) (hok : Undisturbed s a)
    (hstep : step s a = some t) : SoundState t := by
  unfold step at hstep
  split at hstep
  next => cases hstep
  next =>
    cases a with
    | subscribe req =>
      cases hstep
      rw [subscribe]
      split
      next hcomplete =>
        have htags : req.tags ≠ [] := by
          simp only [SubscribeRequest.complete, Bool.and_eq_true] at hcomplete
          simpa using hcomplete.2
        split
        next i hi =>
          have h : Sound s.connections s.conns (.rate req i true :: s.calls) :=
            sound_look h hi htags rfl hok
          exact h.perm (List.perm_append_singleton _ _).symm
        next hnone =>
          exact (sound_create h hnone htags).perm (List.perm_append_singleton _ _).symm
      next => exact h
    | unsubscribe req =>
      cases hstep
      rw [unsubscribe]
      split
      next i hi =>
        have h : Sound s.connections s.conns (.remove req i :: s.calls) :=
          sound_look h hi trivial rfl hok
        exact h.perm (List.perm_append_singleton _ _).symm
      next => exact h
    | resume n =>
      obtain ⟨call, hcall, rfl⟩ := Option.map_eq_some_iff.mp hstep
      exact resume_sound h hcall hok

/-- At the start there is neither a connection nor a call. -/
theorem sound_initial : SoundState ({} : Lifecycle F64) := by
  constructor
  case entry => exact nofun
  case complete => exact fun call hcall => by cases hcall
  case device => exact fun call hcall => by cases hcall
  case closing => exact fun d i k hcall => by cases hcall
  all_goals
    intro i c hc
    cases hc

/-- In every run in which no look-up and no other call on its way to the connection comes between
the decision to close a connection and its removal, no stop channel is closed twice, and between
the calls a device is in the table exactly when it has a subscriber, and is polled. -/
theorem undisturbed_runs_orderly (as : List (Action F64)) (t : Lifecycle F64)
    (hrun : Runs.run step {} as = some t) (hok : Runs.Meets step Undisturbed {} as) :
    Orderly t := by
  have hstep : ∀ (s : Lifecycle F64) a t, SoundState s → Undisturbed s a → step s a = some t →
      SoundState t := fun _ _ _ => step_sound
  exact Sound.orderly (Runs.run_invariant hstep sound_initial hok hrun)

def subscribeFrom (subscriberID : String) : SubscribeRequest ℚ :=
  { deviceID := "press", host := "10.0.0.7", tags := ["Speed"], subscriberID := subscriberID }

def unsubscribeFrom (subscriberID : String) : UnsubscribeRequest := ⟨"press", [], subscriberID⟩

/-- Two subscriptions at once, and one of the subscribers leaves. -/
def alternating : List (Action ℚ) :=
  [.subscribe (subscribeFrom "gateway"), .subscribe (subscribeFrom "plc"), .resume 0, .resume 0,
    .resume 0, .resume 0, .resume 0, .resume 0, .unsubscribe (unsubscribeFrom "gateway"),
    .resume 0]

theorem alternating_orderly :
    ∃ t, Runs.run step {} alternating = some t ∧ t.calls.length = 0 ∧
      t.connections.lookup "press" = some 0 ∧ Orderly t := by
  have hok : Runs.Meets step Undisturbed {} alternating := by decide
  have hend : (Runs.run step {} alternating).map (fun t =>
      (t.calls.length, t.connections.lookup "press")) = some (0, some 0) := by decide
  obtain ⟨t, hrun, ht⟩ := Option.map_eq_some_iff.mp hend
  obtain ⟨hcalls, hentry⟩ := Prod.mk.injEq .. ▸ ht
  exact ⟨t, hrun, hcalls, hentry, undisturbed_runs_orderly alternating t hrun hok⟩

/-- Two unsubscriptions find the connection, and each finds no subscriber left. -/
def closedTwice : List (Action ℚ) :=
  [.subscribe (subscribeFrom "gateway"), .resume 0, .resume 0, .resume 0,
    .unsubscribe (unsubscribeFrom "gateway"), .unsubscribe (unsubscribeFrom "gateway"), .resume 0,
    .resume 0, .resume 0, .resume 0]

theorem unsubscribe_not_orderly :
    ¬ ∀ (as : List (Action ℚ)) (t : Lifecycle ℚ), Runs.run step {} as = some t → Orderly t := by
  intro h
  have hend : (Runs.run step {} closedTwice).map (fun t => t.conns.map Connection.closes) =
      some [2] := by decide
  obtain ⟨t, hrun, ht⟩ := Option.map_eq_some_iff.mp hend
  obtain ⟨hcloses, -⟩ := h closedTwice t hrun
  have htwo : 2 ∈ t.conns.map Connection.closes := by
    rw [ht]
    exact List.mem_singleton_self 2
  obtain ⟨c, hc, hc2⟩ := List.mem_map.mp htwo
  have hle := hcloses c hc
  omega

end EthernetIpLifecycle
