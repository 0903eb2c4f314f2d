import Tentacle.BusDelivery

/-!
# Requests on the in-process bus

`Request` subscribes an inbox of its own, starts every matching handler with a function that
publishes to the inbox, and waits for the first answer or for the timeout. Answers travel as
every other message: in goroutines, past subscribers of wildcards, and also after the request
has returned. The channel behind the inbox holds one answer; a second delivery blocks.
-/

namespace BusRequests

open GoValues Subjects BusDelivery Runs

/-- What the bus asks of `uuid.NewString`: no two alike, and nothing that a subject or a pattern
treats as special. -/
structure Uuids where
  newString : Nat → String
  injective : Function.Injective newString
  plain : ∀ n, Plain (newString n)

variable (u : Uuids)

/-- The reply subject of a request. -/
def inbox (n : Nat) : String := "_INBOX." ++ u.newString n

inductive RequestError where
  | noResponders
  | requestTimeout
  deriving DecidableEq, Repr

inductive Phase where
  | subscribed
  | waiting
  | done (result : Except RequestError Bytes)
  deriving DecidableEq

structure Request where
  number : Nat
  subject : String
  data : Bytes
  /-- The subscription of the inbox. -/
  sub : Nat
  phase : Phase := .subscribed
  replyCh : Option Bytes := none
  deriving DecidableEq

/-- A handler that was started with the reply function of a request. -/
structure Call where
  request : Nat
  pattern : String
  subject : String
  data : Bytes
  deriving DecidableEq, Repr

structure System where
  bus : BusDelivery.System := {}
  requests : List Request := []
  calls : List Call := []
  /-- The answers that were given, each with its call. -/
  replies : List (Nat × Bytes) := []

inductive Action where
  | publish (publisher : Nat) (subject : String) (data : Bytes) (order : List String)
  | subscribe (subject queue : String)
  | unsubscribe (id : Nat) (pattern : String)
  /-- A goroutine of `Publish` runs. -/
  | invoke (n : Nat)
  /-- `Request` subscribes its inbox. -/
  | request (subject : String) (data : Bytes)
  /-- It starts the handlers. -/
  | start (k : Nat) (order : List String)
  /-- A handler calls its reply function. -/
  | reply (n publisher : Nat) (data : Bytes) (order : List String)
  | receive (k : Nat)
  | timeout (k : Nat)
  /-- The deferred `Unsubscribe`. -/
  | leave (k : Nat)

/-- Only `Request` has the handle of its subscription. -/
def System.holds (s : System) (id : Nat) : Bool := s.requests.any (·.sub = id)

def System.find (s : System) (k : Nat) : Option Request := s.requests.find? (·.number = k)

def System.update (s : System) (f : Request → Request) : System :=
  { s with requests := s.requests.map f }

/-- A request goes on. -/
def Request.become (k : Nat) (phase : Phase) (r : Request) : Request :=
  if r.number = k then { r with phase := phase } else r

/-- A request takes the answer from its channel. -/
def Request.receive (k : Nat) (data : Bytes) (r : Request) : Request :=
  if r.number = k then { r with phase := .done (.ok data), replyCh := none } else r

/-- An answer arrives in the channel behind the inbox. -/
def Request.fill (d : Delivery) (r : Request) : Request :=
  if r.sub = d.subscriber then { r with replyCh := some d.data } else r

/-- The handlers that a request starts. -/
def started (s : System) (r : Request) (order : List String) : List Call :=
  (matched s.bus.subs (order.filter (· ≠ inbox u r.number)) r.subject).map fun sub =>
    ⟨r.number, sub.pattern, r.subject, r.data⟩

def step (s : System) : Action → Option System
  | .publish publisher subject data order =>
    (BusDelivery.step s.bus (.publish publisher subject data order)).map ({ s with bus := · })
  | .subscribe subject queue => some { s with bus := subscribe s.bus subject queue }
  | .unsubscribe id pattern =>
    if s.holds id then none else some { s with bus := removeSub s.bus id pattern }
  | .invoke n => s.bus.spawned[n]?.bind fun d =>
    -- the handler of an inbox blocks while its channel is full
    if s.requests.any (fun r => r.sub = d.subscriber && r.replyCh.isSome) then none
    else (BusDelivery.step s.bus (.invoke n)).map fun bus =>
      { s with bus := bus }.update (Request.fill d)
  | .request subject data =>
    let number := s.requests.length
    some { s with
      bus := subscribe s.bus (inbox u number) ""
      requests := s.requests ++ [{ number, subject, data, sub := s.bus.nextId }] }
  | .start k order => (s.find k).bind fun r =>
    match r.phase with
    | .subscribed =>
      if order.Perm s.bus.subs.keys then
        if started u s r order = [] then
          some (s.update (Request.become k (.done (.error .noResponders))))
        else some ({ s with calls := s.calls ++ started u s r order }.update
          (Request.become k .waiting))
      else none
    | _ => none
  | .reply n publisher data order => s.calls[n]?.bind fun c =>
    (BusDelivery.step s.bus (.publish publisher (inbox u c.request) data order)).map fun bus =>
      { s with bus := bus, replies := s.replies ++ [(n, data)] }
  | .receive k => (s.find k).bind fun r =>
    match r.phase, r.replyCh with
    | .waiting, some data => some (s.update (Request.receive k data))
    | _, _ => none
  | .timeout k => (s.find k).bind fun r =>
    match r.phase with
    | .waiting => some (s.update (Request.become k (.done (.error .requestTimeout))))
    | _ => none
  | .leave k => (s.find k).bind fun r =>
    match r.phase with
    | .done _ => some { s with bus := removeSub s.bus r.sub (inbox u k) }
    | _ => none

/-! ## Inboxes -/

theorem tokens_inbox (n : Nat) :
    tokens (inbox u n) = ["_INBOX".toList, (u.newString n).toList] := by
  have hchars : (inbox u n).toList = "_INBOX".toList ++ '.' :: (u.newString n).toList := by
    simp [inbox]
  rw [tokens, hchars, List.splitOn_append_cons_self_of_not_mem (by decide),
    List.splitOn_eq_singleton (u.plain n).dot]

omit u in
/-- A pattern without wildcards matches itself only. -/
theorem eq_of_matchTokens {ps ts : List (List Char)} (h : ∀ p ∈ ps, p ≠ ['*'] ∧ p ≠ ['>'])
    (hmatch : matchTokens ps ts = true) : ts = ps := by
  induction ps generalizing ts with
  | nil => simpa [matchTokens] using hmatch
  | cons p ps ih =>
    obtain ⟨hstar, hgreater⟩ := h p (by simp)
    cases ts with
    | nil => simp [matchTokens, hgreater] at hmatch
    | cons t ts =>
      rw [matchTokens_cons hstar hgreater, Bool.and_eq_true, decide_eq_true_eq] at hmatch
      rw [hmatch.1, ih (fun q hq => h q (by simp [hq])) hmatch.2]

/-- Only its own subject matches an inbox. -/
theorem eq_inbox_of_match {n : Nat} {subject : String}
    (h : matchSubject (inbox u n) subject = true) : subject = inbox u n := by
  have htokens : tokens subject = tokens (inbox u n) := by
    apply eq_of_matchTokens _ h
    intro p hp
    rw [tokens_inbox] at hp
    rcases List.mem_pair.mp hp with rfl | rfl
    · decide
    · exact ⟨(u.plain n).star, (u.plain n).greater⟩
  have hchars := congrArg (List.intercalate ['.']) htokens
  rw [tokens, tokens, List.intercalate_splitOn, List.intercalate_splitOn] at hchars
  exact String.toList_inj.mp hchars

theorem match_inbox (n : Nat) : matchSubject (inbox u n) (inbox u n) = true := by
  rw [matchSubject, tokens_inbox, matchTokens_cons (by decide) (by decide),
    matchTokens_cons (u.plain n).star (u.plain n).greater]
  simp [matchTokens]

theorem inbox_injective : Function.Injective (inbox u) := by
  intro m n h
  have htokens := congrArg tokens h
  rw [tokens_inbox, tokens_inbox] at htokens
  simp only [List.cons.injEq, and_true, true_and, String.toList_inj] at htokens
  exact u.injective htokens

/-! ## The table -/

def Phase.isDone : Phase → Bool
  | .done _ => true
  | _ => false

/-- The subscription stands in the table and takes every message. -/
def Listed (subs : Subs) (pattern : String) (id : Nat) : Prop :=
  ∃ l, subs.lookup pattern = some l ∧ ∃ sub ∈ l, sub.id = id ∧ sub.active ∧ sub.queue = ""

/-- Every request has its number, and a subscription that stands under its inbox as long as the
request has not returned. -/
structure Tabled (s : System) : Prop where
  traced : Traced s.bus
  numbers : s.requests.map Request.number = List.range s.requests.length
  ids : ∀ r ∈ s.requests, r.sub < s.bus.nextId
  fresh : ∀ d ∈ s.bus.spawned, d.subscriber < s.bus.nextId
  inboxes : ∀ r ∈ s.requests, ∀ p l, s.bus.subs.lookup p = some l → ∀ sub ∈ l, sub.id = r.sub →
    p = inbox u r.number
  listed : ∀ r ∈ s.requests, r.phase.isDone = false →
    Listed s.bus.subs (inbox u r.number) r.sub

variable {u} {s t : System}

theorem Tabled.eq_of_number (h : Tabled u s) {r r' : Request} (hr : r ∈ s.requests)
    (hr' : r' ∈ s.requests) (hnumber : r.number = r'.number) : r = r' := by
  have hnodup : (s.requests.map Request.number).Nodup := h.numbers ▸ List.nodup_range
  exact List.inj_on_of_nodup_map hnodup hr hr' hnumber

theorem find_some {k : Nat} {r : Request} (h : s.find k = some r) :
    r ∈ s.requests ∧ r.number = k :=
  ⟨List.mem_of_find?_eq_some h, by simpa using List.find?_some h⟩

/-- The receivers of a message stand in the table, under a pattern that matches. -/
theorem mem_receivers {subs : Subs} {order : List String} {subject : String} {sub : ChannelSub}
    (h : sub ∈ receivers (matched subs order subject)) :
    ∃ p l, subs.lookup p = some l ∧ sub ∈ l ∧ matchSubject p subject = true := by
  have hfound := receivers_subset _ sub h
  rw [matched, List.mem_flatMap] at hfound
  obtain ⟨p, -, hp⟩ := hfound
  split at hp
  next hmatch =>
    have hsub := List.mem_of_mem_filter hp
    cases hl : subs.lookup p with
    | none => simp [hl] at hsub
    | some l =>
      rw [hl] at hsub
      exact ⟨p, l, hl, hsub, hmatch⟩
  next => cases hp

/-- A subscription without a queue group receives what is published on its own subject. -/
theorem mem_receivers_of_listed {subs : Subs} {order : List String} {subject : String} {id : Nat}
    (horder : order.Perm subs.keys) (hlisted : Listed subs subject id)
    (hmatch : matchSubject subject subject = true) :
    ∃ sub ∈ receivers (matched subs order subject), sub.id = id := by
  obtain ⟨l, hl, sub, hsub, hid, hactive, hqueue⟩ := hlisted
  have hkey : subject ∈ order :=
    horder.mem_iff.mpr (AList.mem_keys.mp (AList.lookup_isSome.mp (by simp [hl])))
  refine ⟨sub, List.mem_append_left _ (List.mem_filter.mpr ⟨?_, by simpa using hqueue⟩), hid⟩
  rw [matched, List.mem_flatMap]
  refine ⟨subject, hkey, ?_⟩
  rw [if_pos hmatch, hl]
  exact List.mem_filter.mpr ⟨hsub, hactive⟩

/-- A publish leaves the table of requests as it is. -/
theorem Tabled.publish (h : Tabled u s) {publisher : Nat} {subject : String} {data : Bytes}
    {order : List String} {bus : BusDelivery.System} {replies : List (Nat × Bytes)}
    (hbus : BusDelivery.step s.bus (.publish publisher subject data order) = some bus) :
    Tabled u { s with bus := bus, replies := replies } := by
  have htraced := traced_step h.traced hbus
  obtain ⟨horder, ⟨⟩⟩ := Option.ite_none_right_eq_some.mp hbus
  refine ⟨htraced, h.numbers, h.ids, ?_, h.inboxes, h.listed⟩
  intro d hd
  rcases List.mem_append.mp hd with hd | hd
  · exact h.fresh d hd
  · obtain ⟨sub, hsub, rfl⟩ := List.mem_map.mp hd
    obtain ⟨p, l, hl, hmem, -⟩ := mem_receivers hsub
    exact (h.traced.table.placed p l hl sub hmem).2

/-- The requests change in place, and none of them comes back. -/
theorem Tabled.update (h : Tabled u s) {f : Request → Request} {calls : List Call}
    (hf : ∀ r ∈ s.requests, (f r).number = r.number ∧ (f r).sub = r.sub ∧
      ((f r).phase.isDone = false → r.phase.isDone = false)) :
    Tabled u ({ s with calls := calls }.update f) := by
  refine ⟨h.traced, ?_, ?_, h.fresh, ?_, ?_⟩
  · have hnumbers : (s.requests.map f).map Request.number = s.requests.map Request.number := by
      rw [List.map_map]
      exact List.map_congr_left fun r hr => (hf r hr).1
    change (s.requests.map f).map Request.number = List.range (s.requests.map f).length
    rw [hnumbers, List.length_map, h.numbers]
  · intro r hr
    obtain ⟨r', hr', rfl⟩ := List.mem_map.mp hr
    rw [(hf r' hr').2.1]
    exact h.ids r' hr'
  · intro r hr
    obtain ⟨r', hr', rfl⟩ := List.mem_map.mp hr
    rw [(hf r' hr').1, (hf r' hr').2.1]
    exact h.inboxes r' hr'
  · intro r hr hopen
    obtain ⟨r', hr', rfl⟩ := List.mem_map.mp hr
    rw [(hf r' hr').1, (hf r' hr').2.1]
    exact h.listed r' hr' ((hf r' hr').2.2 hopen)

/-- A further subscription takes no other one out of the table. -/
theorem Listed.subscribe {bus : BusDelivery.System} {pattern : String} {id : Nat}
    (h : Listed bus.subs pattern id) (subject queue : String) :
    Listed (BusDelivery.subscribe bus subject queue).subs pattern id := by
  obtain ⟨l, hl, sub, hsub, hid⟩ := h
  by_cases hp : pattern = subject
  · subst hp
    refine ⟨_, AList.lookup_insert _, sub, ?_, hid⟩
    rw [hl]
    exact List.mem_append_left _ hsub
  · exact ⟨l, (AList.lookup_insert_ne hp).trans hl, sub, hsub, hid⟩

/-- A subscription next to the requests leaves their inboxes listed. -/
theorem Tabled.subscribe (h : Tabled u s) (subject queue : String) :
    Tabled u { s with bus := BusDelivery.subscribe s.bus subject queue } := by
  refine ⟨{ h.traced with table := table_subscribe h.traced.table subject queue }, h.numbers, ?_,
    ?_, ?_, fun r hr hopen => (h.listed r hr hopen).subscribe subject queue⟩
  · intro r hr
    exact Nat.lt_succ_of_lt (h.ids r hr)
  · intro d hd
    exact Nat.lt_succ_of_lt (h.fresh d hd)
  · intro r hr
    apply forall_lookup_insert (h.inboxes r hr)
    intro sub hsub hid
    rcases List.mem_append.mp hsub with hsub | hsub
    · cases hl : s.bus.subs.lookup subject with
      | none => simp [hl] at hsub
      | some l =>
        rw [hl] at hsub
        exact h.inboxes r hr subject l hl sub hsub hid
    · cases List.mem_singleton.mp hsub
      exact absurd (h.ids r hr) (hid ▸ Nat.lt_irrefl _)

theorem Listed.removeSub {bus : BusDelivery.System} {pattern p : String} {id i : Nat}
    (h : Listed bus.subs pattern id) (hne : id ≠ i ∨ pattern ≠ p) :
    Listed (BusDelivery.removeSub bus i p).subs pattern id := by
  obtain ⟨l, hl, sub, hsub, hid⟩ := h
  rw [BusDelivery.removeSub]
  cases hp : bus.subs.lookup p with
  | none => exact ⟨l, hl, sub, hsub, hid⟩
  | some m =>
    by_cases hpattern : pattern = p
    · subst hpattern
      cases hl.symm.trans hp
      have hi : id ≠ i := hne.resolve_right (fun h => h rfl)
      refine ⟨_, AList.lookup_insert _, sub, ?_, hid⟩
      exact (List.mem_eraseP_of_neg (by simpa [hid.1] using hi)).mpr hsub
    · exact ⟨l, (AList.lookup_insert_ne hpattern).trans hl, sub, hsub, hid⟩

/-- A removal that is not of a request under way leaves the inboxes listed. -/
theorem Tabled.removeSub (h : Tabled u s) {id : Nat} {p : String}
    (hkept : ∀ r ∈ s.requests, r.phase.isDone = false → r.sub ≠ id ∨ inbox u r.number ≠ p) :
    Tabled u { s with bus := BusDelivery.removeSub s.bus id p } := by
  refine ⟨{ h.traced with table := table_removeSub h.traced.table id p }, h.numbers, h.ids,
    h.fresh, ?_, fun r hr hopen => (h.listed r hr hopen).removeSub (hkept r hr hopen)⟩
  intro r hr
  change ∀ q l, (BusDelivery.removeSub s.bus id p).subs.lookup q = some l → _
  rw [BusDelivery.removeSub]
  cases hp : s.bus.subs.lookup p with
  | none => exact h.inboxes r hr
  | some m =>
    apply forall_lookup_insert (h.inboxes r hr)
    intro sub hsub
    exact h.inboxes r hr p m hp sub (List.mem_of_mem_eraseP hsub)

/-- A new request has an inbox that no other request has. -/
theorem Tabled.request (h : Tabled u s) (subject : String) (data : Bytes) :
    Tabled u { s with
      bus := BusDelivery.subscribe s.bus (inbox u s.requests.length) ""
      requests := s.requests ++
        [{ number := s.requests.length, subject, data, sub := s.bus.nextId }] } := by
  have hsub := h.subscribe (inbox u s.requests.length) ""
  refine ⟨hsub.traced, ?_, ?_, hsub.fresh, ?_, ?_⟩
  · rw [List.map_append, h.numbers, List.length_append, List.length_singleton, List.range_succ]
    rfl
  · intro r hr
    rcases List.mem_append.mp hr with hr | hr
    · exact hsub.ids r hr
    · cases List.mem_singleton.mp hr
      exact Nat.lt_succ_self _
  · intro r hr
    rcases List.mem_append.mp hr with hr | hr
    · exact hsub.inboxes r hr
    · cases List.mem_singleton.mp hr
      apply forall_lookup_insert
      · intro p l hl sub hsub hid
        exact absurd (h.traced.table.placed p l hl sub hsub).2 (hid ▸ Nat.lt_irrefl _)
      · intro sub _ _
        rfl
  · intro r hr hopen
    rcases List.mem_append.mp hr with hr | hr
    · exact hsub.listed r hr hopen
    · cases List.mem_singleton.mp hr
      refine ⟨_, AList.lookup_insert _, _, List.mem_append_right _ (List.mem_singleton_self _), rfl,
        rfl, rfl⟩

/-! ## The answers -/

/-- The handler was started for the request, because its pattern matched. -/
structure Call.Of (c : Call) (r : Request) : Prop where
  request : c.request = r.number
  subject : c.subject = r.subject
  data : c.data = r.data
  matched : matchSubject c.pattern r.subject = true

/-- A handler that was started for the request gave the answer. -/
def Replied (s : System) (r : Request) (data : Bytes) : Prop :=
  ∃ n c, s.calls[n]? = some c ∧ c.Of r ∧ (n, data) ∈ s.replies

/-- All that is on its way to a request, or has arrived, was given as an answer to it, and a
request that waits after an answer was given has one on its way. -/
structure Answers (s : System) : Prop where
  calls : ∀ c ∈ s.calls, ∃ r ∈ s.requests, c.Of r ∧ r.phase ≠ .subscribed
  replies : ∀ e ∈ s.replies, e.1 < s.calls.length
  spawned : ∀ d ∈ s.bus.spawned, ∀ r ∈ s.requests, d.subscriber = r.sub → Replied s r d.data
  channel : ∀ r ∈ s.requests, ∀ data, r.replyCh = some data → Replied s r data
  result : ∀ r ∈ s.requests, ∀ data, r.phase = .done (.ok data) → Replied s r data
  waiting : ∀ r ∈ s.requests, r.phase = .waiting → ∀ data, Replied s r data →
    r.replyCh.isSome ∨ ∃ d ∈ s.bus.spawned, d.subscriber = r.sub

/-- A message for the inbox of a request was published there. -/
theorem Tabled.subject_eq (h : Tabled u s) {r : Request} (hr : r ∈ s.requests)
    {order : List String} {subject : String} {sub : ChannelSub}
    (hsub : sub ∈ receivers (matched s.bus.subs order subject)) (hid : sub.id = r.sub) :
    subject = inbox u r.number := by
  obtain ⟨p, l, hl, hmem, hmatch⟩ := mem_receivers hsub
  rw [h.inboxes r hr p l hl sub hmem hid] at hmatch
  exact eq_inbox_of_match u hmatch

/-- A message on a subject that is no inbox answers no request. -/
theorem Answers.publish (h : Answers s) (ht : Tabled u s) {publisher : Nat} {subject : String}
    {data : Bytes} {order : List String} {bus : BusDelivery.System}
    (hbus : BusDelivery.step s.bus (.publish publisher subject data order) = some bus)
    (hsubject : ∀ k, subject ≠ inbox u k) : Answers { s with bus := bus } := by
  obtain ⟨-, ⟨⟩⟩ := Option.ite_none_right_eq_some.mp hbus
  refine ⟨h.calls, h.replies, ?_, h.channel, h.result, ?_⟩
  · intro d hd r hr hid
    rcases List.mem_append.mp hd with hd | hd
    · exact h.spawned d hd r hr hid
    · obtain ⟨sub, hsub, rfl⟩ := List.mem_map.mp hd
      exact absurd (ht.subject_eq hr hsub hid) (hsubject r.number)
  · intro r hr hwaiting data hreplied
    rcases h.waiting r hr hwaiting data hreplied with hfull | ⟨d, hd, hid⟩
    · exact .inl hfull
    · exact .inr ⟨d, List.mem_append_left _ hd, hid⟩

theorem Replied.of_reply {r : Request} {data : Bytes} (h : Replied s r data)
    {bus : BusDelivery.System} (e : Nat × Bytes) :
    Replied { s with bus := bus, replies := s.replies ++ [e] } r data := by
  obtain ⟨n, c, hc, hof, hmem⟩ := h
  exact ⟨n, c, hc, hof, List.mem_append_left _ hmem⟩

/-- A reply goes to the inbox of the request that it answers, and to no other. -/
theorem Answers.reply (h : Answers s) (ht : Tabled u s) {n publisher : Nat} {c : Call}
    {data : Bytes} {order : List String} {bus : BusDelivery.System} (hc : s.calls[n]? = some c)
    (hbus : BusDelivery.step s.bus (.publish publisher (inbox u c.request) data order) = some bus) :
    Answers { s with bus := bus, replies := s.replies ++ [(n, data)] } := by
  obtain ⟨hn, -⟩ := List.getElem?_eq_some_iff.mp hc
  obtain ⟨r₀, hr₀, hof, -⟩ := h.calls c (List.mem_of_getElem? hc)
  obtain ⟨horder, ⟨⟩⟩ := Option.ite_none_right_eq_some.mp hbus
  refine ⟨h.calls, ?_, ?_, fun r hr data hdata => (h.channel r hr data hdata).of_reply _,
    fun r hr data hdata => (h.result r hr data hdata).of_reply _, ?_⟩
  · intro e he
    rcases List.mem_append.mp he with he | he
    · exact h.replies e he
    · rw [List.mem_singleton.mp he]
      exact hn
  · intro d hd r hr hid
    rcases List.mem_append.mp hd with hd | hd
    · exact (h.spawned d hd r hr hid).of_reply _
    · obtain ⟨sub, hsub, rfl⟩ := List.mem_map.mp hd
      have hnumber := inbox_injective u (ht.subject_eq hr hsub hid)
      have hr₀r : r₀ = r := ht.eq_of_number hr₀ hr (hof.request.symm.trans hnumber)
      exact ⟨n, c, hc, hr₀r ▸ hof, List.mem_append_right _ (List.mem_singleton_self _)⟩
  · intro r hr hwaiting data' hreplied
    obtain ⟨m, c', hc', hof', hmem⟩ := hreplied
    rcases List.mem_append.mp hmem with hmem | hmem
    · rcases h.waiting r hr hwaiting data' ⟨m, c', hc', hof', hmem⟩ with hfull | ⟨d, hd, hid⟩
      · exact .inl hfull
      · exact .inr ⟨d, List.mem_append_left _ hd, hid⟩
    · -- the new answer goes to the inbox, which is still subscribed
      cases List.mem_singleton.mp hmem
      cases hc.symm.trans hc'
      have hlisted := ht.listed r hr (by rw [hwaiting]; rfl)
      rw [← hof'.request] at hlisted
      obtain ⟨sub, hsub, hid⟩ := mem_receivers_of_listed horder hlisted (match_inbox u _)
      exact .inr ⟨_, List.mem_append_right _ (List.mem_map_of_mem hsub), hid⟩

/-- What identifies a request stays. -/
structure Same (r r' : Request) : Prop where
  number : r'.number = r.number
  sub : r'.sub = r.sub
  subject : r'.subject = r.subject
  data : r'.data = r.data

theorem Call.Of.same {c : Call} {r r' : Request} (h : c.Of r) (hsame : Same r r') : c.Of r' :=
  ⟨h.request.trans hsame.number.symm, h.subject.trans hsame.subject.symm,
    h.data.trans hsame.data.symm, hsame.subject ▸ h.matched⟩

theorem Same.symm {r r' : Request} (h : Same r r') : Same r' r :=
  ⟨h.number.symm, h.sub.symm, h.subject.symm, h.data.symm⟩

theorem Replied.update {r r' : Request} {data : Bytes} (h : Replied s r data) (hsame : Same r r')
    (more : List Call) (bus : BusDelivery.System) (f : Request → Request) :
    Replied ({ s with bus := bus, calls := s.calls ++ more }.update f) r' data := by
  obtain ⟨n, c, hc, hof, hmem⟩ := h
  obtain ⟨hn, -⟩ := List.getElem?_eq_some_iff.mp hc
  exact ⟨n, c, (List.getElem?_append_left hn).trans hc, hof.same hsame, hmem⟩

/-- What a step may do to a request besides filling its channel. -/
structure Moves (more : List Call) (r r' : Request) : Prop where
  same : Same r r'
  started : (∃ c ∈ more, c.Of r) ∨ r.phase ≠ .subscribed → r'.phase ≠ .subscribed
  channel : ∀ data, r'.replyCh = some data → r.replyCh = some data
  result : ∀ data, r'.phase = .done (.ok data) → r.phase = .done (.ok data) ∨ r.replyCh = some data
  waiting : r'.phase = .waiting → (r.phase = .waiting ∧ r'.replyCh = r.replyCh) ∨
    r.phase = .subscribed

/-- Requests that move as `Moves` allows keep the account of their answers. -/
theorem Answers.update (h : Answers s) (ht : Tabled u s) (f : Request → Request)
    (more : List Call) (hmore : ∀ c ∈ more, ∃ r ∈ s.requests, c.Of r)
    (hf : ∀ r ∈ s.requests, Moves more r (f r)) :
    Answers ({ s with calls := s.calls ++ more }.update f) := by
  have hold : ∀ {r data}, r ∈ s.requests → Replied s r data →
      Replied ({ s with calls := s.calls ++ more }.update f) (f r) data := by
    intro r data hr hreplied
    exact hreplied.update (hf r hr).same more s.bus f
  refine ⟨?_, ?_, ?_, ?_, ?_, ?_⟩
  · intro c hc
    rcases List.mem_append.mp hc with hc | hc
    · obtain ⟨r, hr, hof, hphase⟩ := h.calls c hc
      exact ⟨f r, List.mem_map_of_mem hr, hof.same (hf r hr).same, (hf r hr).started (.inr hphase)⟩
    · obtain ⟨r, hr, hof⟩ := hmore c hc
      exact ⟨f r, List.mem_map_of_mem hr, hof.same (hf r hr).same,
        (hf r hr).started (.inl ⟨c, hc, hof⟩)⟩
  · intro e he
    have hlt := h.replies e he
    change e.1 < (s.calls ++ more).length
    rw [List.length_append]
    omega
  · intro d hd r hr hid
    obtain ⟨r', hr', rfl⟩ := List.mem_map.mp hr
    rw [(hf r' hr').same.sub] at hid
    exact hold hr' (h.spawned d hd r' hr' hid)
  · intro r hr data hdata
    obtain ⟨r', hr', rfl⟩ := List.mem_map.mp hr
    exact hold hr' (h.channel r' hr' data ((hf r' hr').channel data hdata))
  · intro r hr data hdata
    obtain ⟨r', hr', rfl⟩ := List.mem_map.mp hr
    rcases (hf r' hr').result data hdata with hdata | hdata
    · exact hold hr' (h.result r' hr' data hdata)
    · exact hold hr' (h.channel r' hr' data hdata)
  · intro r hr hwaiting data hreplied
    obtain ⟨r', hr', rfl⟩ := List.mem_map.mp hr
    obtain ⟨n, c, hc, hof, hmem⟩ := hreplied
    -- an answer was given by a call that was there before
    have hn : n < s.calls.length := h.replies _ hmem
    have hc : s.calls[n]? = some c := (List.getElem?_append_left hn).symm.trans hc
    have hof := hof.same (hf r' hr').same.symm
    rcases (hf r' hr').waiting hwaiting with ⟨hphase, hchannel⟩ | hphase
    · rw [hchannel, (hf r' hr').same.sub]
      exact h.waiting r' hr' hphase data ⟨n, c, hc, hof, hmem⟩
    · obtain ⟨r₀, hr₀, hof₀, hphase₀⟩ := h.calls c (List.mem_of_getElem? hc)
      cases ht.eq_of_number hr₀ hr' (hof₀.request.symm.trans hof.request)
      exact absurd hphase hphase₀

/-- A request that has just been made has no answer. -/
theorem Answers.request (h : Answers s) (ht : Tabled u s) (subject : String) (data : Bytes) :
    Answers { s with
      bus := BusDelivery.subscribe s.bus (inbox u s.requests.length) ""
      requests := s.requests ++
        [{ number := s.requests.length, subject, data, sub := s.bus.nextId }] } := by
  refine ⟨?_, h.replies, ?_, ?_, ?_, ?_⟩
  · intro c hc
    obtain ⟨r, hr, hof⟩ := h.calls c hc
    exact ⟨r, List.mem_append_left _ hr, hof⟩
  · intro d hd r hr hid
    rcases List.mem_append.mp hr with hr | hr
    · exact h.spawned d hd r hr hid
    · cases List.mem_singleton.mp hr
      exact absurd (ht.fresh d hd) (hid ▸ Nat.lt_irrefl _)
  · intro r hr data hdata
    rcases List.mem_append.mp hr with hr | hr
    · exact h.channel r hr data hdata
    · cases List.mem_singleton.mp hr
      cases hdata
  · intro r hr data hdata
    rcases List.mem_append.mp hr with hr | hr
    · exact h.result r hr data hdata
    · cases List.mem_singleton.mp hr
      cases hdata
  · intro r hr hwaiting data hreplied
    rcases List.mem_append.mp hr with hr | hr
    · exact h.waiting r hr hwaiting data hreplied
    · cases List.mem_singleton.mp hr
      cases hwaiting

theorem same_fill (d : Delivery) (r : Request) : Same r (r.fill d) := by
  unfold Request.fill
  split <;> exact ⟨rfl, rfl, rfl, rfl⟩

theorem phase_fill (d : Delivery) (r : Request) : (r.fill d).phase = r.phase := by
  unfold Request.fill
  split <;> rfl

/-- A delivery to an inbox fills the channel of that request with the data of a reply. -/
theorem Answers.invoke (h : Answers s) {n : Nat} {d : Delivery} {bus : BusDelivery.System}
    (hd : s.bus.spawned[n]? = some d) (hbus : BusDelivery.step s.bus (.invoke n) = some bus) :
    Answers ({ s with bus := bus }.update (Request.fill d)) := by
  obtain ⟨d', hd', rfl⟩ := Option.map_eq_some_iff.mp hbus
  cases hd.symm.trans hd'
  have hreplied : ∀ r data, Replied s r data → Replied ({ s with bus := { s.bus with
      spawned := s.bus.spawned.eraseIdx n, invoked := s.bus.invoked ++ [d] } }.update
        (Request.fill d)) (r.fill d) data := by
    rintro r data ⟨m, c, hc, hof, hmem⟩
    exact ⟨m, c, hc, hof.same (same_fill d r), hmem⟩
  refine ⟨?_, h.replies, ?_, ?_, ?_, ?_⟩
  · intro c hc
    obtain ⟨r, hr, hof, hphase⟩ := h.calls c hc
    exact ⟨_, List.mem_map_of_mem hr, hof.same (same_fill d r), by rwa [phase_fill]⟩
  · intro e he r hr hid
    obtain ⟨r', hr', rfl⟩ := List.mem_map.mp hr
    rw [(same_fill d r').sub] at hid
    exact hreplied r' _ (h.spawned e (List.mem_of_mem_eraseIdx he) r' hr' hid)
  · intro r hr data hdata
    obtain ⟨r', hr', rfl⟩ := List.mem_map.mp hr
    by_cases hsub : r'.sub = d.subscriber
    · have hdata' : d.data = data := by simpa [Request.fill, hsub] using hdata
      rw [← hdata']
      exact hreplied r' _ (h.spawned d (List.mem_of_getElem? hd) r' hr' hsub.symm)
    · rw [Request.fill, if_neg hsub] at hdata
      exact hreplied r' _ (h.channel r' hr' data hdata)
  · intro r hr data hdata
    obtain ⟨r', hr', rfl⟩ := List.mem_map.mp hr
    rw [phase_fill] at hdata
    exact hreplied r' _ (h.result r' hr' data hdata)
  · intro r hr hwaiting data hdata
    obtain ⟨r', hr', rfl⟩ := List.mem_map.mp hr
    rw [phase_fill] at hwaiting
    by_cases hsub : r'.sub = d.subscriber
    · simp [Request.fill, hsub]
    · obtain ⟨m, c, hc, hof, hmem⟩ := hdata
      rcases h.waiting r' hr' hwaiting data
        ⟨m, c, hc, hof.same (same_fill d r').symm, hmem⟩ with hfull | ⟨e, he, hid⟩
      · exact .inl (by rwa [Request.fill, if_neg hsub])
      · refine .inr ⟨e, ?_, by rw [(same_fill d r').sub, hid]⟩
        obtain ⟨hsplit, herase⟩ := OrderedMoves.eraseIdx_split hd
        rw [hsplit] at he
        change e ∈ s.bus.spawned.eraseIdx n
        rw [herase]
        rcases List.mem_append.mp he with he | he
        · exact List.mem_append_left _ he
        · rcases List.mem_cons.mp he with rfl | he
          · exact absurd hid.symm hsub
          · exact List.mem_append_right _ he

/-! ## Every schedule -/

/-- Nobody but the reply functions publishes to an inbox, and no request goes to one: it would
start the handler of the inbox. -/
def Action.Avoids (u : Uuids) : Action → Prop
  | .publish _ subject _ _ | .request subject _ => ∀ k, subject ≠ inbox u k
  | _ => True

/-- A change of phase is a move, unless it invents a start or an answer. -/
theorem moves_become {k : Nat} {phase : Phase} {r r₀ : Request} (hr : r.number = k → r = r₀)
    (more : List Call) (hmore : ∀ c ∈ more, c.request = k) (hphase : phase ≠ .subscribed)
    (hresult : ∀ data, phase ≠ .done (.ok data))
    (hwaiting : phase = .waiting → r₀.phase = .subscribed) : Moves more r (r.become k phase) := by
  unfold Request.become
  split
  next hk =>
    cases hr hk
    exact ⟨⟨rfl, rfl, rfl, rfl⟩, fun _ => hphase, fun _ h => h,
      fun data h => absurd h (hresult data), fun h => .inr (hwaiting h)⟩
  next hk =>
    refine ⟨⟨rfl, rfl, rfl, rfl⟩, ?_, fun _ h => h, fun _ h => .inl h, fun h => .inl ⟨h, rfl⟩⟩
    rintro (⟨c, hc, hof⟩ | h)
    · exact absurd (hof.request.symm.trans (hmore c hc)) hk
    · exact h

/-- A request that goes on, with nothing started. -/
theorem sound_become (ht : Tabled u s) (h : Answers s) {k : Nat} {phase : Phase}
    (hdone : phase.isDone) (hresult : ∀ data, phase ≠ .done (.ok data)) :
    Tabled u (s.update (Request.become k phase)) ∧ Answers (s.update (Request.become k phase)) := by
  have hphase : phase ≠ .subscribed ∧ phase ≠ .waiting := by
    constructor <;> rintro rfl <;> cases hdone
  constructor
  · apply ht.update
    intro r _
    unfold Request.become
    split
    next => exact ⟨rfl, rfl, fun hopen => absurd hdone (by simp [hopen])⟩
    next => exact ⟨rfl, rfl, id⟩
  · have hmoves : ∀ r ∈ s.requests, Moves [] r (r.become k phase) := by
      intro r _
      exact moves_become (fun _ => Eq.refl r) [] (by simp) hphase.1 hresult
        fun hwaiting => absurd hwaiting hphase.2
    have hanswers := h.update ht (Request.become k phase) [] (by simp) hmoves
    rwa [List.append_nil] at hanswers

/-- With the publish of a request its calls are started, and its answer may come from now on. -/
theorem sound_start (ht : Tabled u s) (h : Answers s) {k : Nat} {r₀ : Request}
    (hfind : s.find k = some r₀) (hphase : r₀.phase = .subscribed) (order : List String) :
    let t := { s with calls := s.calls ++ started u s r₀ order }.update (Request.become k .waiting)
    Tabled u t ∧ Answers t := by
  obtain ⟨hr₀, hk⟩ := find_some hfind
  have hunique : ∀ r ∈ s.requests, r.number = k → r = r₀ := by
    intro r hr hnumber
    exact ht.eq_of_number hr hr₀ (hnumber.trans hk.symm)
  have hof : ∀ c ∈ started u s r₀ order, c.Of r₀ := by
    intro c hc
    obtain ⟨sub, hsub, rfl⟩ := List.mem_map.mp hc
    refine ⟨rfl, rfl, rfl, ?_⟩
    rw [matched, List.mem_flatMap] at hsub
    obtain ⟨p, -, hp⟩ := hsub
    split at hp
    next hmatch =>
      have hmem := List.mem_of_mem_filter hp
      cases hl : s.bus.subs.lookup p with
      | none => simp [hl] at hmem
      | some l =>
        rw [hl] at hmem
        change matchSubject sub.pattern r₀.subject = true
        rwa [(ht.traced.table.placed p l hl sub hmem).1]
    next => cases hp
  constructor
  · apply ht.update
    intro r hr
    unfold Request.become
    split
    next hnumber =>
      cases hunique r hr hnumber
      exact ⟨rfl, rfl, fun _ => by rw [hphase]; rfl⟩
    next => exact ⟨rfl, rfl, id⟩
  · refine h.update ht _ _ (fun c hc => ⟨r₀, hr₀, hof c hc⟩) fun r hr => ?_
    exact moves_become (hunique r hr) _ (fun c hc => (hof c hc).request.trans hk) (by simp)
      (by simp) fun _ => hphase

/-- A request that reads its channel is done with what the channel holds. -/
theorem sound_receive (ht : Tabled u s) (h : Answers s) {k : Nat} {r₀ : Request} {data : Bytes}
    (hfind : s.find k = some r₀) (hdata : r₀.replyCh = some data) :
    Tabled u (s.update (Request.receive k data)) ∧ Answers (s.update (Request.receive k data)) := by
  obtain ⟨hr₀, hk⟩ := find_some hfind
  constructor
  · apply ht.update
    intro r _
    unfold Request.receive
    split
    next => exact ⟨rfl, rfl, fun hopen => by cases hopen⟩
    next => exact ⟨rfl, rfl, id⟩
  · have hmoves : ∀ r ∈ s.requests, Moves [] r (r.receive k data) := by
      intro r hr
      unfold Request.receive
      split
      next hnumber =>
        cases ht.eq_of_number hr hr₀ (hnumber.trans hk.symm)
        refine ⟨⟨rfl, rfl, rfl, rfl⟩, by simp, by simp, ?_, by simp⟩
        intro data' hdata'
        cases hdata'
        exact .inr hdata
      next =>
        refine ⟨⟨rfl, rfl, rfl, rfl⟩, ?_, fun _ h => h, fun _ h => .inl h, fun h => .inl ⟨h, rfl⟩⟩
        rintro (⟨c, hc, -⟩ | h)
        · cases hc
        · exact h
    have hanswers := h.update ht (Request.receive k data) [] (by simp) hmoves
    rwa [List.append_nil] at hanswers

/-- An invocation leaves the table as it is. -/
theorem Tabled.invoke (h : Tabled u s) {n : Nat} {d : Delivery} {bus : BusDelivery.System}
    (hbus : BusDelivery.step s.bus (.invoke n) = some bus) :
    Tabled u ({ s with bus := bus }.update (Request.fill d)) := by
  have htraced := traced_step h.traced hbus
  obtain ⟨e, -, rfl⟩ := Option.map_eq_some_iff.mp hbus
  have hbus : Tabled u { s with bus := { s.bus with
      spawned := s.bus.spawned.eraseIdx n, invoked := s.bus.invoked ++ [e] } } :=
    ⟨htraced, h.numbers, h.ids, fun d hd => h.fresh d (List.mem_of_mem_eraseIdx hd), h.inboxes,
      h.listed⟩
  refine hbus.update fun r _ => ⟨(same_fill d r).number, (same_fill d r).sub, ?_⟩
  rw [phase_fill]
  exact id

/-- Each step keeps the table of inboxes and the account of answers. -/
theorem sound_step {a : Action} (ha : a.Avoids u) (ht : Tabled u s) (h : Answers s)
    (hstep : step u s a = some t) : Tabled u t ∧ Answers t := by
  cases a with
  | publish publisher subject data order =>
    obtain ⟨bus, hbus, rfl⟩ := Option.map_eq_some_iff.mp hstep
    exact ⟨ht.publish hbus, h.publish ht hbus ha⟩
  | subscribe subject queue =>
    cases hstep
    exact ⟨ht.subscribe subject queue, h.calls, h.replies, h.spawned, h.channel, h.result,
      h.waiting⟩
  | unsubscribe id pattern =>
    obtain ⟨hforeign, ⟨⟩⟩ := Option.ite_none_left_eq_some.mp hstep
    refine ⟨ht.removeSub fun r hr _ => .inl ?_, h.calls, h.replies, h.spawned, h.channel, h.result,
      h.waiting⟩
    rintro rfl
    exact hforeign (List.any_eq_true.mpr ⟨r, hr, by simp⟩)
  | invoke n =>
    obtain ⟨d, hd, hstep⟩ := Option.bind_eq_some_iff.mp hstep
    obtain ⟨-, hstep⟩ := Option.ite_none_left_eq_some.mp hstep
    obtain ⟨bus, hbus, rfl⟩ := Option.map_eq_some_iff.mp hstep
    exact ⟨ht.invoke hbus, h.invoke hd hbus⟩
  | request subject data =>
    cases hstep
    exact ⟨ht.request subject data, h.request ht subject data⟩
  | start k order =>
    obtain ⟨r, hr, hstep⟩ := Option.bind_eq_some_iff.mp hstep
    split at hstep
    next hphase =>
      obtain ⟨-, hstep⟩ := Option.ite_none_right_eq_some.mp hstep
      split at hstep
      next =>
        cases hstep
        exact sound_become ht h rfl (by simp)
      next =>
        cases hstep
        exact sound_start ht h hr hphase order
    next => cases hstep
  | reply n publisher data order =>
    obtain ⟨c, hc, hstep⟩ := Option.bind_eq_some_iff.mp hstep
    obtain ⟨bus, hbus, rfl⟩ := Option.map_eq_some_iff.mp hstep
    exact ⟨ht.publish hbus, h.reply ht hc hbus⟩
  | receive k =>
    obtain ⟨r, hr, hstep⟩ := Option.bind_eq_some_iff.mp hstep
    split at hstep
    next data _ hdata =>
      cases hstep
      exact sound_receive ht h hr hdata
    next => cases hstep
  | timeout k =>
    obtain ⟨r, hr, hstep⟩ := Option.bind_eq_some_iff.mp hstep
    split at hstep
    next =>
      cases hstep
      exact sound_become ht h rfl (by simp)
    next => cases hstep
  | leave k =>
    obtain ⟨r, hr, hstep⟩ := Option.bind_eq_some_iff.mp hstep
    obtain ⟨hmem, hk⟩ := find_some hr
    split at hstep
    next result hdone =>
      cases hstep
      refine ⟨ht.removeSub fun r' hr' hopen => .inr ?_, h.calls, h.replies, h.spawned, h.channel,
        h.result, h.waiting⟩
      intro hinbox
      cases ht.eq_of_number hr' hmem ((inbox_injective u hinbox).trans hk.symm)
      rw [hdone] at hopen
      cases hopen
    next => cases hstep

theorem tabled_initial : Tabled u {} := by
  refine ⟨traced_initial, rfl, ?_, ?_, ?_, ?_⟩ <;> intro r hr <;> cases hr

theorem answers_initial : Answers {} := by
  refine ⟨?_, ?_, ?_, ?_, ?_, ?_⟩ <;> intro r hr <;> cases hr

/-- However requests, handlers and deliveries interleave, a request returns only an answer that
a handler of its own gave: one whose pattern matches its subject and that was called with its
data. And once such an answer is given, a request that still waits has one in its channel or on
its way, and all that is on its way to it is an answer of its own. -/
theorem request_answered (u : Uuids) (as : List Action) (t : System) (hok : ∀ a ∈ as, a.Avoids u)
    (hrun : run (step u) {} as = some t) :
    ∀ r ∈ t.requests, (∀ data, r.phase = .done (.ok data) → Replied t r data) ∧
      (r.phase = .waiting → ∀ data, Replied t r data →
        r.replyCh.isSome ∨ ∃ d ∈ t.bus.spawned, d.subscriber = r.sub) ∧
      ∀ d ∈ t.bus.spawned, d.subscriber = r.sub → Replied t r d.data := by
  have hsteps : ∀ s a t, Tabled u s ∧ Answers s → a.Avoids u → step u s a = some t →
      Tabled u t ∧ Answers t := fun s a t hs ha hstep => sound_step ha hs.1 hs.2 hstep
  have hsound := run_preserves_of hsteps ⟨tabled_initial, answers_initial⟩ hok hrun
  intro r hr
  exact ⟨hsound.2.result r hr, hsound.2.waiting r hr, fun d hd => hsound.2.spawned d hd r hr⟩

/-- Longer and longer rows of one digit. -/
def countingUuids : Uuids where
  newString n := String.ofList (List.replicate (n + 2) '0')
  injective := by
    intro m n h
    have hlength := congrArg (fun w => w.toList.length) h
    simpa using hlength
  plain n := by
    refine ⟨?_, ?_, ?_⟩ <;> simp [List.replicate_succ]

/-- A handler answers a request, another subscriber sees the answer pass. -/
def requestSchedule : List Action :=
  [.subscribe "a" "", .subscribe "_INBOX.*" "", .request "a" [1],
    .start 0 ["a", "_INBOX.*", "_INBOX.00"],
    .reply 0 7 [2] ["_INBOX.00", "a", "_INBOX.*"], .invoke 0, .invoke 0, .receive 0, .leave 0]

theorem requestSchedule_answered :
    ∃ t, run (step countingUuids) {} requestSchedule = some t ∧
      ∃ r ∈ t.requests, r.phase = .done (.ok [2]) ∧ Replied t r [2] := by
  have hphases : (run (step countingUuids) {} requestSchedule).map
      (fun t => t.requests.map Request.phase) = some [.done (.ok [2])] := by decide
  obtain ⟨t, hrun, ht⟩ := Option.map_eq_some_iff.mp hphases
  have hplain : ∀ k, "a" ≠ inbox countingUuids k := by
    intro k h
    have hlength := congrArg (fun s => s.toList.length) h
    simp [inbox] at hlength
  have hok : ∀ a ∈ requestSchedule, a.Avoids countingUuids := by
    simpa [requestSchedule, Action.Avoids] using hplain
  obtain ⟨r, hr, hphase⟩ : ∃ r ∈ t.requests, r.phase = .done (.ok [2]) :=
    List.mem_map.mp (ht ▸ List.mem_singleton_self _)
  exact ⟨t, hrun, r, hr, hphase,
    (request_answered countingUuids requestSchedule t hok hrun r hr).1 [2] hphase⟩

end BusRequests
