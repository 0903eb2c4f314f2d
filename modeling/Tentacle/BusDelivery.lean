import Mathlib.Data.String.Basic
import Tentacle.GoValues
import Tentacle.OrderedMoves
import Tentacle.Runs
import Tentacle.Subjects

/-!
# Delivery on the in-process bus

`Publish` collects the receivers of a message under the read lock of the subscription table and
starts one goroutine for each of them: every matching subscriber without a queue, and the first
one of every queue group. A goroutine calls the handler when the scheduler runs it. The goroutine
that publishes is named in the action; the table is read in an order that Go does not fix.
-/

namespace BusDelivery

open GoValues Subjects
open OrderedMoves (First)

structure ChannelSub where
  id : Nat
  pattern : String
  queue : String
  active : Bool
  deriving DecidableEq, Repr

abbrev Subs := GoMap String (List ChannelSub)

/-- The subscriptions that `Publish` finds when it reads the table in this order. -/
def matched (subs : Subs) (order : List String) (subject : String) : List ChannelSub :=
  order.flatMap fun pattern =>
    if matchSubject pattern subject then ((subs.lookup pattern).getD []).filter ChannelSub.active
    else []

/-- `queueGroups[s.queue] = append(queueGroups[s.queue], s)` for each of them. -/
def queueGroups (found : List ChannelSub) : GoMap String (List ChannelSub) :=
  found.foldl (fun groups s => groups.insert s.queue ((groups.lookup s.queue).getD [] ++ [s])) ∅

def receivers (found : List ChannelSub) : List ChannelSub :=
  found.filter (·.queue = "") ++
    (queueGroups (found.filter (·.queue ≠ ""))).entries.filterMap fun group => group.2.head?

/-- The call of a handler with one message. -/
structure Delivery where
  publisher : Nat
  subject : String
  subscriber : Nat
  /-- Which call of `Publish` the message is from. -/
  number : Nat
  data : Bytes
  deriving DecidableEq, Repr

structure System where
  subs : Subs := ∅
  nextId : Nat := 0
  /-- How many calls of `Publish` have been made. -/
  published : Nat := 0
  /-- All deliveries that were started, in the order of the calls of `Publish`. -/
  sent : List Delivery := []
  /-- The goroutines that have not called their handler yet. -/
  spawned : List Delivery := []
  invoked : List Delivery := []

def publish (s : System) (publisher : Nat) (subject : String) (data : Bytes)
    (order : List String) : System :=
  let started := (receivers (matched s.subs order subject)).map fun sub =>
    { publisher, subject, subscriber := sub.id, number := s.published, data }
  { s with
    published := s.published + 1
    sent := s.sent ++ started
    spawned := s.spawned ++ started }

def subscribe (s : System) (subject queue : String) : System :=
  let sub := { id := s.nextId, pattern := subject, queue, active := true }
  { s with
    subs := s.subs.insert subject ((s.subs.lookup subject).getD [] ++ [sub])
    nextId := s.nextId + 1 }

def removeSub (s : System) (id : Nat) (pattern : String) : System :=
  { s with
    subs := match s.subs.lookup pattern with
      | none => s.subs
      | some subs => s.subs.insert pattern (subs.eraseP (·.id = id)) }

inductive Action where
  | publish (publisher : Nat) (subject : String) (data : Bytes) (order : List String)
  | subscribe (subject queue : String)
  | unsubscribe (id : Nat) (pattern : String)
  /-- A goroutine runs and calls its handler. -/
  | invoke (n : Nat)
  deriving DecidableEq, Repr

def step (s : System) : Action → Option System
  | .publish publisher subject data order =>
    if order.Perm s.subs.keys then some (publish s publisher subject data order) else none
  | .subscribe subject queue => some (subscribe s subject queue)
  | .unsubscribe id pattern => some (removeSub s id pattern)
  | .invoke n => s.spawned[n]?.map fun d =>
    { s with spawned := s.spawned.eraseIdx n, invoked := s.invoked ++ [d] }

/-- The messages that one goroutine publishes on one subject for one subscriber. -/
def Delivery.stream (d : Delivery) : Nat × String × Nat := (d.publisher, d.subject, d.subscriber)

def ofStream (c : Nat × String × Nat) (ds : List Delivery) : List Delivery :=
  ds.filter (·.stream = c)

/-- Every subscriber's handler was called on the messages of a goroutine and subject in the order
in which they were published, none left out. -/
def InOrder (s : System) : Prop := ∀ c, ofStream c s.invoked <+: ofStream c s.sent

/-- The goroutine that runs is the oldest one of its stream that has not run. -/
def OldestFirst (s : System) : Action → Prop
  | .invoke n => First Delivery.stream s.spawned n
  | _ => True

instance OldestFirst.decidable (s : System) : (a : Action) → Decidable (OldestFirst s a)
  | .invoke n => inferInstanceAs (Decidable (First Delivery.stream s.spawned n))
  | .publish .. | .subscribe .. | .unsubscribe .. => isTrue trivial

/-! ## One delivery for each receiver -/

/-- Every subscription stands once, under its own pattern. -/
structure Table (subs : Subs) (nextId : Nat) : Prop where
  nodup : ∀ p l, subs.lookup p = some l → (l.map ChannelSub.id).Nodup
  placed : ∀ p l, subs.lookup p = some l → ∀ sub ∈ l, sub.pattern = p ∧ sub.id < nextId
  unique : ∀ p l, subs.lookup p = some l → ∀ q m, subs.lookup q = some m →
    ∀ a ∈ l, ∀ b ∈ m, a.id = b.id → p = q

/-- A subscriber is found once, however its pattern matches. -/
theorem nodup_matched {subs : Subs} {nextId : Nat} (h : Table subs nextId) {order : List String}
    (horder : order.Nodup) (subject : String) :
    ((matched subs order subject).map ChannelSub.id).Nodup := by
  have hmem : ∀ p, ∀ i ∈ List.map ChannelSub.id (if matchSubject p subject then
      ((subs.lookup p).getD []).filter ChannelSub.active else []),
      ∃ l, subs.lookup p = some l ∧ ∃ sub ∈ l, sub.id = i := by
    intro p i hi
    obtain ⟨sub, hsub, rfl⟩ := List.mem_map.mp hi
    split at hsub
    next =>
      have hsub := List.mem_of_mem_filter hsub
      cases hl : subs.lookup p with
      | none => simp [hl] at hsub
      | some l =>
        rw [hl] at hsub
        exact ⟨l, rfl, sub, hsub, rfl⟩
    next => cases hsub
  rw [matched, List.map_flatMap, List.nodup_flatMap]
  constructor
  · intro p _
    split
    next =>
      cases hl : subs.lookup p with
      | none => exact List.nodup_nil
      | some l => exact (h.nodup p l hl).sublist (List.filter_sublist.map _)
    next => exact List.nodup_nil
  · apply horder.imp
    intro p q hpq i hp hq
    obtain ⟨l, hl, a, ha, rfl⟩ := hmem p i hp
    obtain ⟨m, hm, b, hb, hab⟩ := hmem q _ hq
    exact hpq (h.unique p l hl q m hm a ha b hb hab.symm)

/-- A queue group holds subscribers of its own name only. -/
theorem mem_queueGroups {found : List ChannelSub} :
    ∀ q l, (queueGroups found).lookup q = some l → ∀ s ∈ l, s.queue = q ∧ s ∈ found := by
  apply List.foldlRecOn (motive := fun groups : GoMap String (List ChannelSub) =>
    ∀ q l, groups.lookup q = some l → ∀ s ∈ l, s.queue = q ∧ s ∈ found)
  · intro q l hl
    cases hl
  · intro groups hgroups s hs
    apply forall_lookup_insert hgroups
    intro a ha
    obtain ha | ha := List.mem_append.mp ha
    · cases hl : groups.lookup s.queue with
      | none => simp [hl] at ha
      | some l =>
        rw [hl] at ha
        exact hgroups _ _ hl a ha
    · cases List.mem_singleton.mp ha
      exact ⟨rfl, hs⟩

/-- The first one of every group: its queue is the name of the group. -/
theorem nodup_heads (found : List ChannelSub) :
    ((queueGroups found).entries.filterMap fun group => group.2.head?).Nodup := by
  have hkeys : (queueGroups found).entries.Pairwise (fun a b => a.1 ≠ b.1) :=
    List.nodupKeys_iff_pairwise.mp (queueGroups found).nodupKeys
  apply List.pairwise_filterMap.mpr
  apply hkeys.imp_of_mem
  intro a b ha hb hab s hs t ht hst
  have hsa := mem_queueGroups _ _ ((mem_entries_iff _ _ _).mp ha) s (List.mem_of_head? hs)
  have htb := mem_queueGroups _ _ ((mem_entries_iff _ _ _).mp hb) t (List.mem_of_head? ht)
  apply hab
  rw [← hsa.1, ← htb.1, hst]

theorem receivers_subset (found : List ChannelSub) : ∀ s ∈ receivers found, s ∈ found := by
  intro s hs
  obtain hs | hs := List.mem_append.mp hs
  · exact List.mem_of_mem_filter hs
  · obtain ⟨group, hgroup, hhead⟩ := List.mem_filterMap.mp hs
    have hs := mem_queueGroups _ _ ((mem_entries_iff _ _ _).mp hgroup) s (List.mem_of_head? hhead)
    exact List.mem_of_mem_filter hs.2

/-- Of each queue group one is chosen, so no subscriber receives twice. -/
theorem nodup_receivers {found : List ChannelSub} (h : (found.map ChannelSub.id).Nodup) :
    ((receivers found).map ChannelSub.id).Nodup := by
  apply List.Nodup.map_on
  · intro a ha b hb hab
    exact List.inj_on_of_nodup_map h (receivers_subset found a ha) (receivers_subset found b hb) hab
  · apply List.nodup_append.mpr
    refine ⟨(List.Nodup.of_map _ h).filter _, nodup_heads _, ?_⟩
    -- a receiver without a queue is in no group
    intro a ha b hb hab
    obtain ⟨group, hgroup, hhead⟩ := List.mem_filterMap.mp hb
    have hb := mem_queueGroups _ _ ((mem_entries_iff _ _ _).mp hgroup) b (List.mem_of_head? hhead)
    have hqueue : b.queue ≠ "" := by simpa using (List.mem_filter.mp hb.2).2
    rw [← hab] at hqueue
    exact hqueue (by simpa using (List.mem_filter.mp ha).2)

/-- A pattern's list may lose subscriptions and get new ones. -/
theorem Table.insert {subs : Subs} {nextId later : Nat} (h : Table subs nextId)
    (hle : nextId ≤ later) {p : String} {l : List ChannelSub}
    (hnodup : (l.map ChannelSub.id).Nodup)
    (hl : ∀ sub ∈ l, sub ∈ (subs.lookup p).getD [] ∨
      (sub.pattern = p ∧ nextId ≤ sub.id ∧ sub.id < later)) :
    Table (subs.insert p l) later := by
  have hold : ∀ sub ∈ (subs.lookup p).getD [], ∃ m, subs.lookup p = some m ∧ sub ∈ m := by
    intro sub hsub
    cases hm : subs.lookup p with
    | none => simp [hm] at hsub
    | some m =>
      rw [hm] at hsub
      exact ⟨m, rfl, hsub⟩
  -- no other pattern has a subscription with the number of one of these
  have hother : ∀ q m, subs.lookup q = some m → ∀ a ∈ l, ∀ b ∈ m, a.id = b.id → p = q := by
    intro q m hm a ha b hb hab
    obtain ha | ⟨-, ha, -⟩ := hl a ha
    · obtain ⟨m', hm', ha⟩ := hold a ha
      exact h.unique p m' hm' q m hm a ha b hb hab
    · have hb := (h.placed q m hm b hb).2
      omega
  constructor
  · exact forall_lookup_insert h.nodup hnodup
  · apply forall_lookup_insert
    · intro q m hm sub hsub
      obtain ⟨hpattern, hid⟩ := h.placed q m hm sub hsub
      exact ⟨hpattern, Nat.lt_of_lt_of_le hid hle⟩
    · intro sub hsub
      obtain hsub | ⟨hpattern, -, hid⟩ := hl sub hsub
      · obtain ⟨m, hm, hsub⟩ := hold sub hsub
        obtain ⟨hpattern, hid⟩ := h.placed p m hm sub hsub
        exact ⟨hpattern, Nat.lt_of_lt_of_le hid hle⟩
      · exact ⟨hpattern, hid⟩
  · apply forall_lookup_insert
    · intro q m hm
      apply forall_lookup_insert
      · exact h.unique q m hm
      · intro a ha b hb hab
        exact (hother q m hm b hb a ha hab.symm).symm
    · apply forall_lookup_insert
      · exact hother
      · intro a _ b _ _
        rfl

/-- A new subscription gets an identifier that none has. -/
theorem table_subscribe {s : System} (h : Table s.subs s.nextId) (subject queue : String) :
    Table (subscribe s subject queue).subs (subscribe s subject queue).nextId := by
  apply h.insert (Nat.le_succ _)
  · rw [List.map_append]
    apply List.nodup_append.mpr
    refine ⟨?_, List.nodup_singleton _, ?_⟩
    · cases hl : s.subs.lookup subject with
      | none => exact List.nodup_nil
      | some l => exact h.nodup subject l hl
    · intro i hi j hj hij
      obtain ⟨sub, hsub, rfl⟩ := List.mem_map.mp hi
      cases List.mem_singleton.mp hj
      cases hl : s.subs.lookup subject with
      | none => simp [hl] at hsub
      | some l =>
        rw [hl] at hsub
        exact absurd (h.placed subject l hl sub hsub).2 (hij ▸ Nat.lt_irrefl _)
  · intro sub hsub
    obtain hsub | hsub := List.mem_append.mp hsub
    · exact .inl hsub
    · cases List.mem_singleton.mp hsub
      exact .inr ⟨rfl, Nat.le_refl _, Nat.lt_succ_self _⟩

/-- What is left after a removal has still one identifier each. -/
theorem table_removeSub {s : System} (h : Table s.subs s.nextId) (id : Nat) (pattern : String) :
    Table (removeSub s id pattern).subs (removeSub s id pattern).nextId := by
  cases hl : s.subs.lookup pattern with
  | none =>
    rw [removeSub, hl]
    exact h
  | some l =>
    rw [removeSub, hl]
    apply h.insert (Nat.le_refl _)
    · exact (h.nodup pattern l hl).sublist (List.eraseP_sublist.map _)
    · intro sub hsub
      rw [hl]
      exact .inl (List.mem_of_mem_eraseP hsub)

/-! ## Streams -/

/-- The started deliveries have their handler called or are still to run, in the order in which
they were started. -/
structure Traced (s : System) : Prop where
  table : Table s.subs s.nextId
  numbers : ∀ d ∈ s.sent, d.number < s.published
  nodup : s.sent.Nodup
  spawned : s.spawned.Sublist s.sent
  perm : (s.invoked ++ s.spawned).Perm s.sent

/-- Before the first publish nothing is under way. -/
theorem traced_initial : Traced {} := by
  constructor
  · constructor <;> intro p l hl <;> cases hl
  · intro d hd
    cases hd
  · exact List.nodup_nil
  · exact List.Sublist.refl _
  · exact List.Perm.refl _

/-- A publish numbers its messages after all earlier ones. -/
theorem traced_publish {s : System} (h : Traced s) (publisher : Nat) (subject : String)
    (data : Bytes) {order : List String} (horder : order.Perm s.subs.keys) :
    Traced (publish s publisher subject data order) := by
  have hreceivers := nodup_receivers
    (nodup_matched h.table (horder.nodup_iff.mpr s.subs.keys_nodup) subject)
  constructor
  · exact h.table
  · intro d hd
    obtain hd | hd := List.mem_append.mp hd
    · exact Nat.lt_succ_of_lt (h.numbers d hd)
    · obtain ⟨sub, -, rfl⟩ := List.mem_map.mp hd
      exact Nat.lt_succ_self _
  · apply List.nodup_append.mpr
    refine ⟨h.nodup, ?_, ?_⟩
    · apply List.Nodup.of_map Delivery.subscriber
      rw [List.map_map]
      exact hreceivers
    · intro d hd d' hd' hdd'
      obtain ⟨sub, -, rfl⟩ := List.mem_map.mp hd'
      have hlt := h.numbers d hd
      rw [hdd'] at hlt
      exact Nat.lt_irrefl _ hlt
  · exact h.spawned.append_right _
  · change (s.invoked ++ (s.spawned ++ _)).Perm _
    rw [← List.append_assoc]
    exact h.perm.append_right _

/-- An invocation moves one delivery from those that wait to those that are done. -/
theorem traced_invoke {s t : System} {n : Nat} (h : Traced s)
    (hstep : step s (.invoke n) = some t) : Traced t := by
  obtain ⟨d, hd, rfl⟩ := Option.map_eq_some_iff.mp hstep
  obtain ⟨hsplit, herase⟩ := OrderedMoves.eraseIdx_split hd
  constructor
  · exact h.table
  · exact h.numbers
  · exact h.nodup
  · exact (List.eraseIdx_sublist _ _).trans h.spawned
  · change (s.invoked ++ [d] ++ s.spawned.eraseIdx n).Perm s.sent
    rw [List.append_assoc]
    refine List.Perm.trans ?_ h.perm
    apply List.Perm.append_left
    conv_rhs => rw [hsplit]
    rw [herase]
    rw [List.singleton_append]
    exact List.perm_middle.symm

/-- Each step keeps the account of what was spawned and invoked. -/
theorem traced_step {s t : System} {a : Action} (h : Traced s) (hstep : step s a = some t) :
    Traced t := by
  cases a with
  | publish publisher subject data order =>
    obtain ⟨horder, ⟨⟩⟩ := Option.ite_none_right_eq_some.mp hstep
    exact traced_publish h publisher subject data horder
  | subscribe subject queue =>
    cases hstep
    exact { h with table := table_subscribe h.table subject queue }
  | unsubscribe id pattern =>
    cases hstep
    exact { h with table := table_removeSub h.table id pattern }
  | invoke n => exact traced_invoke h hstep

/-- Where the calls were in order, the goroutines that are to run are what is left of each
stream. -/
theorem Traced.ofStream_sent {s : System} (h : Traced s) (hs : InOrder s)
    (c : Nat × String × Nat) :
    ofStream c s.sent = ofStream c s.invoked ++ ofStream c s.spawned := by
  obtain ⟨rest, hrest⟩ := hs c
  have hperm : (ofStream c s.invoked ++ ofStream c s.spawned).Perm (ofStream c s.sent) := by
    rw [ofStream, ofStream, ← List.filter_append]
    exact h.perm.filter _
  have hnodup : (ofStream c s.sent).Nodup := h.nodup.filter _
  have hsub : (ofStream c s.spawned).Sublist (ofStream c s.sent) := h.spawned.filter _
  rw [← hrest] at hperm hnodup hsub ⊢
  rw [OrderedMoves.eq_of_sublist_perm hnodup hsub ((List.perm_append_left_iff _).mp hperm)]

/-- A publish invokes no handler, so it cannot break the order. -/
theorem inOrder_publish_iff {s : System} (h : Traced s) (publisher : Nat) (subject : String)
    (data : Bytes) (order : List String) :
    InOrder (publish s publisher subject data order) ↔ InOrder s := by
  apply forall_congr'
  intro c
  change ofStream c s.invoked <+: ofStream c (s.sent ++ _) ↔ _
  rw [ofStream, ofStream, List.filter_append]
  constructor
  · intro hc
    apply List.prefix_of_prefix_length_le hc (List.prefix_append _ _)
    -- no more can have been called than were started
    rw [← (h.perm.filter _).length_eq, List.filter_append, List.length_append]
    exact Nat.le_add_right _ _
  · intro hc
    exact hc.trans (List.prefix_append _ _)

/-- An invocation keeps the order exactly if nothing older of its stream waits. -/
theorem inOrder_invoke_iff {s t : System} {n : Nat} (h : Traced s)
    (hstep : step s (.invoke n) = some t) :
    InOrder t ↔ InOrder s ∧ First Delivery.stream s.spawned n := by
  obtain ⟨d, hd, rfl⟩ := Option.map_eq_some_iff.mp hstep
  constructor
  · intro ht
    have hs : InOrder s := by
      intro c
      refine List.IsPrefix.trans ?_ (ht c)
      change ofStream c s.invoked <+: ofStream c (s.invoked ++ [d])
      rw [ofStream, ofStream, List.filter_append]
      exact List.prefix_append _ _
    refine ⟨hs, ?_⟩
    apply OrderedMoves.first_of_singleton_prefix (h.nodup.sublist h.spawned) hd
    have hc := ht d.stream
    change ofStream d.stream (s.invoked ++ [d]) <+: ofStream d.stream s.sent at hc
    rw [h.ofStream_sent hs, ofStream, List.filter_append] at hc
    have hc := (List.prefix_append_right_inj _).mp hc
    simpa [ofStream] using hc
  · rintro ⟨hs, hfirst⟩ c
    have hmove := OrderedMoves.filter_move Delivery.stream c s.invoked hd hfirst
    change ofStream c (s.invoked ++ [d]) <+: ofStream c s.sent
    rw [h.ofStream_sent hs c, ofStream, ofStream, ofStream, ← List.filter_append s.invoked,
      ← hmove, List.filter_append (s.invoked ++ [d])]
    exact List.prefix_append _ _

/-- A step keeps the order exactly if it takes the oldest of a stream. -/
theorem inOrder_step_iff {s t : System} {a : Action} (h : Traced s) (hstep : step s a = some t) :
    InOrder t ↔ InOrder s ∧ OldestFirst s a := by
  cases a with
  | publish publisher subject data order =>
    obtain ⟨-, ⟨⟩⟩ := Option.ite_none_right_eq_some.mp hstep
    rw [inOrder_publish_iff h]
    exact (and_iff_left trivial).symm
  | subscribe subject queue =>
    cases hstep
    exact (and_iff_left trivial).symm
  | unsubscribe id pattern =>
    cases hstep
    exact (and_iff_left trivial).symm
  | invoke n => exact inOrder_invoke_iff h hstep

/-- The handlers were called in the order of publishing exactly when the scheduler ran the
goroutines of every stream oldest first. -/
theorem inOrder_iff_oldestFirst (as : List Action) (t : System)
    (hrun : Runs.run step {} as = some t) :
    InOrder t ↔ Runs.Meets step OldestFirst {} as := by
  rw [Runs.run_iff_meets (fun _ _ _ => traced_step) (fun _ _ _ => inOrder_step_iff)
    traced_initial hrun]
  exact and_iff_right fun _ => List.nil_prefix

/-- Two messages for two subscribers, one of them in a queue group with a third. -/
def orderedSchedule : List Action :=
  [.subscribe "a.*" "", .subscribe "a.b" "q", .subscribe "a.b" "q",
    .publish 0 "a.b" [1] ["a.b", "a.*"], .publish 0 "a.b" [2] ["a.*", "a.b"],
    .invoke 1, .invoke 0, .invoke 1, .invoke 0]

theorem orderedSchedule_inOrder :
    ∃ t, Runs.run step {} orderedSchedule = some t ∧
      t.invoked.map (fun d => (d.subscriber, d.data)) = [(1, [1]), (0, [1]), (1, [2]), (0, [2])] ∧
      InOrder t := by
  have hok : Runs.Meets step OldestFirst {} orderedSchedule := by decide
  have hinvoked : (Runs.run step {} orderedSchedule).map
      (fun t => t.invoked.map fun d => (d.subscriber, d.data)) =
        some [(1, [1]), (0, [1]), (1, [2]), (0, [2])] := by decide
  obtain ⟨t, hrun, ht⟩ := Option.map_eq_some_iff.mp hinvoked
  exact ⟨t, hrun, ht, (inOrder_iff_oldestFirst orderedSchedule t hrun).mpr hok⟩

/-- The goroutine of the second message runs first. -/
def overtakingSchedule : List Action :=
  [.subscribe "a" "", .publish 0 "a" [1] ["a"], .publish 0 "a" [2] ["a"], .invoke 1, .invoke 0]

theorem publish_not_inOrder :
    ¬ ∀ (as : List Action) (t : System), Runs.run step {} as = some t → InOrder t := by
  intro h
  have hcalls : (Runs.run step {} overtakingSchedule).map (fun t =>
      (ofStream (0, "a", 0) t.invoked, ofStream (0, "a", 0) t.sent)) =
        some ([⟨0, "a", 0, 1, [2]⟩, ⟨0, "a", 0, 0, [1]⟩],
          [⟨0, "a", 0, 0, [1]⟩, ⟨0, "a", 0, 1, [2]⟩]) := by decide
  obtain ⟨t, hrun, ht⟩ := Option.map_eq_some_iff.mp hcalls
  have hc := h overtakingSchedule t hrun (0, "a", 0)
  obtain ⟨hinvoked, hsent⟩ := Prod.mk.injEq .. ▸ ht
  rw [hinvoked, hsent] at hc
  exact absurd hc (by decide)

end BusDelivery
