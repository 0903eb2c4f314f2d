import Tentacle.GoSlices
import Tentacle.GoValues
import Tentacle.OrderedMoves
import Tentacle.RingBuffer

/-!
# The traffic viewer

The API keeps the last messages of the bus in a ring and streams them to the browsers that
listen. Every message is handled in a goroutine of its own, which writes the ring under one
lock and then offers the entry to the listeners under another. A listener that has 64
entries waiting misses the next one.
-/

namespace ApiTraffic

open GoValues GoSlices Outcome

def trafficRingSize : Nat := 200

structure TrafficEntry where
  timestamp : String := ""
  subject : String := ""
  size : Nat := 0
  payload : Bytes := []
  deriving DecidableEq, Repr

def binaryText (n : Nat) : Bytes := ("<binary " ++ toString n ++ " bytes>").toUTF8.toList

/-- The first bytes of a text; what is no UTF-8 reads as the replacement character. -/
def decodePayload (data : Bytes) (max : Nat) : Bytes :=
  match String.fromUTF8? ⟨data.toArray⟩ with
  | none => binaryText data.length
  | some s => if '\uFFFD' ∈ s.toList then binaryText data.length else data.take max

/-- A listener's channel, and what has become of the entries since it was registered. -/
structure Listener where
  ch : Nat
  /-- How many entries had been sent to the listeners of then. -/
  joined : Nat
  waiting : List TrafficEntry := []
  taken : List TrafficEntry := []
  /-- What was dropped, and how many entries were waiting then. -/
  missed : List (TrafficEntry × Nat) := []
  deriving DecidableEq, Repr

def listenerBuffer : Nat := 64

/-- `select` with a default: the entry is dropped if the channel is full. -/
def Listener.offer (entry : TrafficEntry) (l : Listener) : Listener :=
  if l.waiting.length < listenerBuffer then { l with waiting := l.waiting ++ [entry] }
  else { l with missed := l.missed ++ [(entry, l.waiting.length)] }

/-- Where the handler of a message stands. -/
inductive Handler where
  | store (entry : TrafficEntry)
  | fanOut (entry : TrafficEntry)
  deriving DecidableEq, Repr

structure TrafficCollector where
  ring : List TrafficEntry := List.replicate trafficRingSize {}
  head : Nat := 0
  count : Nat := 0
  listeners : List Listener := []
  handlers : List Handler := []
  /-- The entries of the messages on subjects that are not internal. -/
  accepted : List TrafficEntry := []
  /-- All entries in the order in which they were written. -/
  captured : List TrafficEntry := []
  /-- All entries in the order in which they were sent to the listeners. -/
  sent : List TrafficEntry := []

def skipped (subject : String) : Bool :=
  "$KV.".toList.isPrefixOf subject.toList || "$JS.".toList.isPrefixOf subject.toList ||
    "_INBOX.".toList.isPrefixOf subject.toList

inductive Action where
  /-- The bus calls the handler of the subscription to all subjects. -/
  | message (timestamp subject : String) (data : Bytes)
  /-- A handler takes its next step. -/
  | advance (n : Nat)
  | addListener (ch : Nat)
  | removeListener (ch : Nat)
  /-- A stream takes the next entry from its channel. -/
  | receive (ch : Nat)

/-- The action is not possible. -/
inductive Disabled where
  | disabled

def Listener.receive (l : Listener) : Listener :=
  match l.waiting with
  | [] => l
  | entry :: waiting => { l with waiting := waiting, taken := l.taken ++ [entry] }

def advance (tc : TrafficCollector) (n : Nat) : Handler → Outcome Disabled TrafficCollector
  | .store entry => do
    let ring ← assign tc.ring tc.head entry
    return { tc with
      ring := ring
      head := (tc.head + 1) % trafficRingSize
      count := if tc.count < trafficRingSize then tc.count + 1 else tc.count
      captured := tc.captured ++ [entry]
      handlers := tc.handlers.set n (.fanOut entry) }
  | .fanOut entry => .ok { tc with
      listeners := tc.listeners.map (Listener.offer entry)
      sent := tc.sent ++ [entry]
      handlers := tc.handlers.eraseIdx n }

def step (tc : TrafficCollector) : Action → Outcome Disabled TrafficCollector
  | .message timestamp subject data =>
    if skipped subject then .ok tc
    else
      let entry := {
        timestamp := timestamp
        subject := subject
        size := data.length
        payload := decodePayload data 500 }
      .ok { tc with
        accepted := tc.accepted ++ [entry]
        handlers := tc.handlers ++ [.store entry] }
  | .advance n =>
    match tc.handlers[n]? with
    | none => .err .disabled
    | some handler => advance tc n handler
  | .addListener ch =>
    if tc.listeners.any (·.ch = ch) then .err .disabled
    else .ok { tc with listeners := tc.listeners ++ [{ ch := ch, joined := tc.sent.length }] }
  | .removeListener ch => .ok { tc with listeners := tc.listeners.filter (·.ch ≠ ch) }
  | .receive ch => .ok { tc with
      listeners := tc.listeners.map fun l => if l.ch = ch then l.receive else l }

/-- The last entries, the newest one first; no limit, or one beyond the entries, asks for all. -/
def recent (tc : TrafficCollector) (limit : Int) : Outcome Empty (List TrafficEntry) :=
  let limit := if limit ≤ 0 ∨ limit > tc.count then tc.count else limit.toNat
  (List.range limit).mapM fun (i : Nat) =>
    indexInt tc.ring (((tc.head : Int) - 1 - i + trafficRingSize).tmod trafficRingSize)

/-! ## The listeners -/

/-- Each entry sent since the listener was registered it has taken, or it waits, in that order, or
it was dropped because the channel was full. -/
structure Listener.Kept (sent : List TrafficEntry) (l : Listener) : Prop where
  joined : l.joined ≤ sent.length
  order : (l.taken ++ l.waiting).Sublist (sent.drop l.joined)
  accounted : (l.taken ++ l.waiting ++ l.missed.map Prod.fst).Perm (sent.drop l.joined)
  room : l.waiting.length ≤ listenerBuffer
  full : ∀ m ∈ l.missed, m.2 = listenerBuffer

/-- What has been sent grows by the entry: it waits, or it is missed because 64 were waiting. -/
theorem Listener.Kept.offer {sent : List TrafficEntry} {l : Listener} (h : l.Kept sent)
    (entry : TrafficEntry) : (l.offer entry).Kept (sent ++ [entry]) := by
  have hjoined : l.joined ≤ (sent ++ [entry]).length := by
    rw [List.length_append]
    exact h.joined.trans (Nat.le_add_right _ _)
  have hdrop : (sent ++ [entry]).drop l.joined = sent.drop l.joined ++ [entry] :=
    List.drop_append_of_le_length h.joined
  have hroom := h.room
  unfold Listener.offer
  split
  next hfree =>
    refine ⟨hjoined, ?_, ?_, ?_, h.full⟩
    · rw [hdrop, ← List.append_assoc]
      exact h.order.append_right [entry]
    · rw [hdrop, ← List.append_assoc]
      -- the entry goes behind what was dropped
      have hbehind : (l.taken ++ l.waiting ++ [entry] ++ l.missed.map Prod.fst).Perm
          (l.taken ++ l.waiting ++ l.missed.map Prod.fst ++ [entry]) := by
        rw [List.append_assoc, List.append_assoc _ _ [entry]]
        exact List.perm_append_comm.append_left _
      exact hbehind.trans (h.accounted.append_right [entry])
    · rw [List.length_append, List.length_singleton]
      omega
  next hfull =>
    refine ⟨hjoined, ?_, ?_, hroom, ?_⟩
    · rw [hdrop]
      exact h.order.trans (List.sublist_append_left _ _)
    · rw [hdrop, List.map_append, ← List.append_assoc]
      exact h.accounted.append_right [entry]
    · intro m hm
      obtain hm | hm := List.mem_append.mp hm
      · exact h.full m hm
      · rw [List.mem_singleton.mp hm]
        dsimp only
        omega

/-- A handler that takes an entry leaves the rest in order. -/
theorem Listener.Kept.receive {sent : List TrafficEntry} {l : Listener} (h : l.Kept sent) :
    l.receive.Kept sent := by
  obtain ⟨hjoined, horder, haccounted, hroom, hfull⟩ := h
  unfold Listener.receive
  split
  next => exact ⟨hjoined, horder, haccounted, hroom, hfull⟩
  next entry waiting hwaiting =>
    rw [hwaiting] at horder haccounted hroom
    have hmove : l.taken ++ [entry] ++ waiting = l.taken ++ entry :: waiting := by
      rw [List.append_assoc, List.singleton_append]
    refine ⟨hjoined, ?_, ?_, ?_, hfull⟩
    · rw [hmove]
      exact horder
    · rw [hmove]
      exact haccounted
    · exact Nat.le_of_succ_le hroom

/-! ## The ring -/

/-- The entry that a handler has still to write. -/
def Handler.pending : Handler → Option TrafficEntry
  | .store entry => some entry
  | .fanOut _ => none

/-- The entry that a handler has written and still has to send. -/
def Handler.unsent : Handler → Option TrafficEntry
  | .store _ => none
  | .fanOut entry => some entry

structure Sound (tc : TrafficCollector) : Prop where
  cells : RingBuffer.Holds trafficRingSize tc.ring tc.captured
  head : tc.head = tc.captured.length % trafficRingSize
  count : tc.count = min tc.captured.length trafficRingSize
  accepted : (tc.captured ++ tc.handlers.filterMap Handler.pending).Perm tc.accepted
  sent : (tc.sent ++ tc.handlers.filterMap Handler.unsent).Perm tc.captured
  listeners : ∀ l ∈ tc.listeners, l.Kept tc.sent

theorem sound_start : Sound {} := by
  refine ⟨RingBuffer.holds_nil _ ({} : TrafficEntry), rfl, rfl, .nil, .nil, ?_⟩
  intro l hl
  cases hl

/-- A handler that has written its entry has it to send. -/
theorem perm_set {handlers : List Handler} {n : Nat} {entry : TrafficEntry}
    (h : handlers[n]? = some (.store entry)) :
    (entry :: (handlers.set n (.fanOut entry)).filterMap Handler.pending).Perm
        (handlers.filterMap Handler.pending) ∧
      ((handlers.set n (.fanOut entry)).filterMap Handler.unsent).Perm
        (entry :: handlers.filterMap Handler.unsent) := by
  obtain ⟨hn, -⟩ := List.getElem?_eq_some_iff.mp h
  have hset := List.set_eq_take_append_cons_drop (l := handlers) (i := n) (a := .fanOut entry)
  have hsplit := (OrderedMoves.eraseIdx_split h).1
  rw [if_pos hn] at hset
  rw [hset]
  constructor
  · conv_rhs => rw [hsplit]
    rw [List.filterMap_append, List.filterMap_append]
    exact List.perm_middle.symm
  · conv_rhs => rw [hsplit]
    rw [List.filterMap_append, List.filterMap_append]
    exact List.perm_middle

/-- A handler that has sent its entry is done. -/
theorem perm_eraseIdx {handlers : List Handler} {n : Nat} {entry : TrafficEntry}
    (h : handlers[n]? = some (.fanOut entry)) :
    (handlers.eraseIdx n).filterMap Handler.pending = handlers.filterMap Handler.pending ∧
      (entry :: (handlers.eraseIdx n).filterMap Handler.unsent).Perm
        (handlers.filterMap Handler.unsent) := by
  obtain ⟨hsplit, herase⟩ := OrderedMoves.eraseIdx_split h
  rw [herase]
  constructor
  · conv_rhs => rw [hsplit]
    rw [List.filterMap_append, List.filterMap_append]
    rfl
  · conv_rhs => rw [hsplit]
    rw [List.filterMap_append, List.filterMap_append]
    exact List.perm_middle.symm

/-- An entry that is stored is the newest of the ring, and the count goes up by one with it. -/
theorem sound_store {tc : TrafficCollector} (h : Sound tc) {n : Nat} {entry : TrafficEntry}
    (hn : tc.handlers[n]? = some (.store entry)) :
    (advance tc n (.store entry)).Ensures Sound := by
  have hhead : tc.head < tc.ring.length := by
    rw [h.cells.length, h.head]
    exact Nat.mod_lt _ (by decide)
  have hlength : (tc.captured ++ [entry]).length = tc.captured.length + 1 := List.length_append
  have hcount := h.count
  rw [advance, assign, if_pos hhead, ok_bind]
  refine ⟨?_, ?_, ?_, ?_, ?_, ?_⟩
  · dsimp only
    rw [h.head]
    exact h.cells.push (by decide) entry
  · dsimp only
    rw [hlength, h.head, Nat.mod_add_mod]
  · dsimp only
    rw [hlength]
    split <;> omega
  · dsimp only
    rw [List.append_assoc]
    exact ((perm_set hn).1.append_left tc.captured).trans h.accepted
  · dsimp only
    refine ((perm_set hn).2.append_left tc.sent).trans (List.perm_middle.trans ?_)
    exact (h.sent.cons entry).trans (List.perm_append_singleton entry tc.captured).symm
  · exact h.listeners

/-- No step panics, and the ring stays the last of what was captured. -/
theorem sound_step {tc : TrafficCollector} (h : Sound tc) (a : Action) :
    (step tc a).Ensures Sound := by
  cases a with
  | message timestamp subject data =>
    simp only [step]
    split
    next => exact h
    next =>
      refine ⟨h.cells, h.head, h.count, ?_, ?_, h.listeners⟩
      · dsimp only
        rw [List.filterMap_append, ← List.append_assoc]
        exact h.accepted.append_right _
      · dsimp only
        have hnone : ∀ e, [Handler.store e].filterMap Handler.unsent = [] := fun _ => rfl
        rw [List.filterMap_append, hnone, List.append_nil]
        exact h.sent
  | advance n =>
    simp only [step]
    split
    next => trivial
    next handler hhandler =>
      cases handler with
      | store entry => exact sound_store h hhandler
      | fanOut entry =>
        refine ⟨h.cells, h.head, h.count, ?_, ?_, ?_⟩
        · dsimp only
          rw [(perm_eraseIdx hhandler).1]
          exact h.accepted
        · dsimp only
          rw [List.append_assoc, List.singleton_append]
          exact ((perm_eraseIdx hhandler).2.append_left tc.sent).trans h.sent
        · intro l hl
          obtain ⟨l', hl', rfl⟩ := List.mem_map.mp hl
          exact (h.listeners l' hl').offer entry
  | addListener ch =>
    simp only [step]
    split
    next => trivial
    next =>
      refine ⟨h.cells, h.head, h.count, h.accepted, h.sent, ?_⟩
      intro l hl
      rcases List.mem_append.mp hl with hl | hl
      · exact h.listeners l hl
      · rw [List.mem_singleton.mp hl]
        have hnone : tc.sent.drop tc.sent.length = [] := List.drop_length
        refine ⟨le_rfl, ?_, ?_, Nat.zero_le _, List.forall_mem_nil _⟩
        · exact List.nil_sublist _
        · rw [hnone]
          exact .nil
  | removeListener ch =>
    exact ⟨h.cells, h.head, h.count, h.accepted, h.sent,
      fun l hl => h.listeners l (List.mem_of_mem_filter hl)⟩
  | receive ch =>
    refine ⟨h.cells, h.head, h.count, h.accepted, h.sent, ?_⟩
    intro l hl
    obtain ⟨l', hl', rfl⟩ := List.mem_map.mp hl
    split
    next => exact (h.listeners l' hl').receive
    next => exact h.listeners l' hl'

/-- Where the ring is the last of what was captured, `recent` reads it newest first. -/
theorem recent_eq {tc : TrafficCollector} (h : Sound tc) (limit : Int) :
    recent tc limit = .ok (tc.captured.reverse.take
      (if limit ≤ 0 then trafficRingSize else min limit.toNat trafficRingSize)) := by
  have hcount := h.count
  obtain ⟨n, hn⟩ : ∃ n, n = if limit ≤ 0 ∨ limit > tc.count then tc.count else limit.toNat :=
    ⟨_, rfl⟩
  have hbound : n ≤ min tc.captured.length trafficRingSize := by
    rw [hn]
    split <;> omega
  have hcell : ∀ i ∈ List.range n, (indexInt tc.ring
      (((tc.head : Int) - 1 - (i : Nat) + trafficRingSize).tmod trafficRingSize) :
        Outcome Empty TrafficEntry) = .ok (tc.captured.reverse.getD i {}) := by
    intro i hi
    rw [List.mem_range] at hi
    have hnewest := h.cells.newest (k := i) (by omega) (by omega)
    have hget : tc.captured.reverse[i]? = some (tc.captured.reverse.getD i {}) := by
      rw [List.getD_eq_getElem?_getD, List.getElem?_eq_getElem (by rw [List.length_reverse]; omega)]
      rfl
    have hidx : ((tc.head : Int) - 1 - (i : Nat) + trafficRingSize).tmod trafficRingSize =
        ((tc.captured.length - 1 - i) % trafficRingSize : Nat) := by
      rw [h.head, trafficRingSize] at *
      rw [Int.tmod_eq_emod_of_nonneg (by omega)]
      omega
    rw [hidx, indexInt, if_pos (Int.natCast_nonneg _), Int.toNat_natCast, index, hnewest, hget]
  have htake : (List.range n).map (fun i => tc.captured.reverse.getD i {}) =
      tc.captured.reverse.take n := by
    apply List.ext_getElem?
    intro i
    by_cases hi : i < n
    · rw [List.getElem?_take_of_lt hi, List.getElem?_map, List.getElem?_range hi, Option.map_some,
        List.getD_eq_getElem?_getD, List.getElem?_eq_getElem (by rw [List.length_reverse]; omega)]
      rfl
    · rw [List.getElem?_eq_none (by simp; omega), List.getElem?_eq_none (by simp; omega)]
  rw [recent, ← hn, mapM_ok hcell, htake]
  congr 1
  rw [List.take_eq_take_iff, List.length_reverse, hn]
  split <;> split <;> omega

/-- However the handlers interleave, none panics; every message on a subject that is not internal is
written once, and the viewer shows the last 200 written, or as many of them as it asks for, the
newest first. -/
theorem recent_newest (schedule : List Action) (limit : Int) :
    (schedule.foldlM step {}).Ensures fun tc =>
      (tc.captured ++ tc.handlers.filterMap Handler.pending).Perm tc.accepted ∧
      recent tc limit = .ok (tc.captured.reverse.take
        (if limit ≤ 0 then trafficRingSize else min limit.toNat trafficRingSize)) :=
  (ensures_foldlM (fun a _ _ htc => sound_step htc a) sound_start).imp
    fun _ htc => ⟨htc.accepted, recent_eq htc limit⟩

/-- Every entry that is written is sent once to the listeners of then. A stream has taken the
entries sent since it was registered, or they wait, in the order in which they were sent, except
those that found 64 waiting. -/
theorem streams_ordered (schedule : List Action) :
    (schedule.foldlM step {}).Ensures fun tc =>
      (tc.sent ++ tc.handlers.filterMap Handler.unsent).Perm tc.captured ∧
      ∀ l ∈ tc.listeners, l.Kept tc.sent :=
  (ensures_foldlM (fun a _ _ htc => sound_step htc a) sound_start).imp
    fun _ htc => ⟨htc.sent, htc.listeners⟩

end ApiTraffic
