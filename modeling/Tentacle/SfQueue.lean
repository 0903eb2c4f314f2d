import Tentacle.BoundedFifo
import Tentacle.StoreForward

/-!
# The store-and-forward buffer is a bounded queue

Whatever is called on a new buffer, in whatever order, its queue is that of a bounded FIFO in
which the records wait until they are drained or, when there is no room, evicted at the front.
A drained record differs from the buffered one in the historical mark of its metrics only.
-/

namespace SfQueue

open SparkplugPayload StoreForward BoundedFifo Runs

variable {F32 F64 : Type}

/-- The buffer, and all records that were buffered, evicted from it and drained so far. -/
structure Trace (F32 F64 : Type) where
  sf : Buffer F32 F64
  buffered : List (BufferedRecord F32 F64) := []
  evicted : List (BufferedRecord F32 F64) := []
  drained : List (BufferedRecord F32 F64) := []

inductive Call (F32 F64 : Type) where
  | buffer (deviceID : String) (payload : Payload F32 F64)
  | drain
  | setOnline
  | setOffline

def step (s : Trace F32 F64) : Call F32 F64 → Trace F32 F64
  | .buffer deviceID payload =>
    { s with
      sf := buffer deviceID payload s.sf
      buffered := s.buffered ++ [⟨deviceID, payload⟩]
      evicted := s.evicted ++ s.sf.records.take (evict s.sf.maxCount s.sf.records).2 }
  | .drain => { s with sf := (drain s.sf).1, drained := s.drained ++ (drain s.sf).2 }
  | .setOnline => { s with sf := setOnline s.sf }
  | .setOffline => { s with sf := setOffline s.sf }

def start (maxRecords drainRate : Int) : Trace F32 F64 :=
  { sf := newStoreForwardBuffer maxRecords drainRate }

/-- The FIFO with the same queue and the same history. -/
structure Follows (s : Trace F32 F64) (q : Fifo (BufferedRecord F32 F64)) : Prop where
  queue : s.sf.records = q.queue
  buffered : s.buffered = q.pushed
  evicted : s.evicted = q.gone .evicted
  drained : s.drained = (q.gone .drained).map markHistorical
  totalBuffered : s.sf.totalBuffered = q.pushed.length
  totalEvicted : s.sf.totalEvicted = (q.gone .evicted).length
  totalDrained : s.sf.totalDrained = (q.gone .drained).length

/-- The eviction drops as many of the oldest as are too many. -/
theorem evict_eq_drop {maxCount : Nat} (hmax : 1 ≤ maxCount)
    (records : List (BufferedRecord F32 F64)) :
    evict maxCount records =
      (records.drop (records.length + 1 - maxCount), records.length + 1 - maxCount) := by
  induction records with
  | nil =>
    have hzero : 0 + 1 - maxCount = 0 := by omega
    rw [evict, List.length_nil, hzero]
    rfl
  | cons r rs ih =>
    rw [evict, List.length_cons]
    split
    next h =>
      have hsucc : rs.length + 1 + 1 - maxCount = rs.length + 1 - maxCount + 1 := by omega
      rw [ih, hsucc]
      rfl
    next h =>
      have hzero : rs.length + 1 + 1 - maxCount = 0 := by omega
      rw [hzero]
      rfl

/-- A record that is buffered first makes its room, item by item, and is pushed then. -/
theorem follows_buffer {s : Trace F32 F64} {q : Fifo (BufferedRecord F32 F64)}
    (hmax : 1 ≤ s.sf.maxCount) (h : Follows s q) (deviceID : String)
    (payload : Payload F32 F64) :
    ∃ r, Reaches (BoundedFifo.step s.sf.maxCount) q r ∧
      Follows (step s (.buffer deviceID payload)) r := by
  let n := q.queue.length + 1 - s.sf.maxCount
  have hevict : evict s.sf.maxCount s.sf.records = (q.queue.drop n, n) := by
    rw [h.queue, evict_eq_drop hmax]
  have hleave : Reaches (BoundedFifo.step s.sf.maxCount) q (q.leaveFront .evicted n) := by
    apply reaches_leaveFront
    · omega
    · intro _ hn
      omega
  have hpush : BoundedFifo.step s.sf.maxCount (q.leaveFront .evicted n)
      (.push ⟨deviceID, payload⟩) =
        some ((q.leaveFront .evicted n).push ⟨deviceID, payload⟩) := by
    apply if_pos
    rw [leaveFront_queue, List.length_drop]
    omega
  have htake : (q.queue.take n).length = n := by
    rw [List.length_take]
    omega
  refine ⟨_, hleave.trans (.step hpush), ?_⟩
  rw [step, buffer, hevict]
  constructor
  case queue => rfl
  case buffered => simp [h.buffered]
  case evicted => simp [h.evicted, h.queue]
  case drained => simpa using h.drained
  case totalBuffered => simp [h.totalBuffered]
  case totalEvicted => simp only [gone_push, gone_leaveFront, if_true, List.length_append, htake,
    h.totalEvicted]
  case totalDrained => simpa using h.totalDrained

/-- A drain takes the whole queue off the front. -/
theorem follows_drain {s : Trace F32 F64} {q : Fifo (BufferedRecord F32 F64)} (h : Follows s q)
    (max : Nat) : ∃ r, Reaches (BoundedFifo.step max) q r ∧ Follows (step s .drain) r := by
  by_cases hidle : s.sf.state ≠ .draining ∨ s.sf.records = []
  · refine ⟨q, .refl _ _, ?_⟩
    obtain hstate | hempty := hidle
    · simpa [step, drain, hstate] using h
    · by_cases hstate : s.sf.state = .draining
      · have hdrain : drain s.sf = ({ s.sf with state := .online }, []) := by
          simp [drain, hstate, hempty]
        rw [step, hdrain, List.append_nil]
        exact { h with }
      · simpa [step, drain, hstate] using h
  · obtain ⟨hstate, hfull⟩ := not_or.mp hidle
    let n := min s.sf.drainRate q.queue.length
    have hdrain : drain s.sf =
        ({ s.sf with
          records := q.queue.drop n
          totalDrained := s.sf.totalDrained + n }, (q.queue.take n).map markHistorical) := by
      rw [drain, if_neg hstate, if_neg hfull, h.queue]
    have hleave : Reaches (BoundedFifo.step max) q (q.leaveFront .drained n) := by
      apply reaches_leaveFront
      · exact Nat.min_le_right _ _
      · intro hway
        cases hway
    have htake : (q.queue.take n).length = n := by
      rw [List.length_take]
      exact Nat.min_eq_left (Nat.min_le_right _ _)
    refine ⟨_, hleave, ?_⟩
    rw [step, hdrain]
    constructor
    case queue => rfl
    case buffered => exact h.buffered
    case evicted => simpa using h.evicted
    case drained => simp [h.drained]
    case totalBuffered => exact h.totalBuffered
    case totalEvicted => simpa using h.totalEvicted
    case totalDrained => simp only [gone_leaveFront, if_true, List.length_append, htake,
      h.totalDrained]

@[simp] theorem setOnline_maxCount (sf : Buffer F32 F64) :
    (setOnline sf).maxCount = sf.maxCount := by
  unfold setOnline
  split <;> [rfl; split <;> rfl]
@[simp] theorem drain_maxCount (sf : Buffer F32 F64) : (drain sf).1.maxCount = sf.maxCount := by
  unfold drain
  split <;> [rfl; split <;> rfl]

@[simp] theorem step_maxCount (s : Trace F32 F64) (c : Call F32 F64) :
    (step s c).sf.maxCount = s.sf.maxCount := by
  cases c with
  | buffer deviceID payload => rfl
  | drain => exact drain_maxCount s.sf
  | setOnline => exact setOnline_maxCount s.sf
  | setOffline => rfl

/-- The mode decides when records are drained, not which. -/
theorem follows_setOnline {s : Trace F32 F64} {q : Fifo (BufferedRecord F32 F64)}
    (h : Follows s q) : Follows (step s .setOnline) q := by
  rw [step, setOnline]
  split
  next => exact h
  next =>
    split
    next => exact { h with }
    next => exact { h with }

/-- Each call is a run of the bounded queue. -/
theorem follows_step {s : Trace F32 F64} {q : Fifo (BufferedRecord F32 F64)}
    (hmax : 1 ≤ s.sf.maxCount) (h : Follows s q) (c : Call F32 F64) :
    ∃ r, Reaches (BoundedFifo.step s.sf.maxCount) q r ∧ Follows (step s c) r := by
  cases c with
  | buffer deviceID payload => exact follows_buffer hmax h deviceID payload
  | drain => exact follows_drain h _
  | setOnline => exact ⟨q, .refl _ _, follows_setOnline h⟩
  | setOffline => exact ⟨q, .refl _ _, { h with }⟩

theorem follows_foldl (calls : List (Call F32 F64)) {s : Trace F32 F64}
    {q : Fifo (BufferedRecord F32 F64)} (hmax : 1 ≤ s.sf.maxCount) (h : Follows s q) :
    ∃ r, Reaches (BoundedFifo.step s.sf.maxCount) q r ∧ Follows (calls.foldl step s) r := by
  induction calls generalizing s q with
  | nil => exact ⟨q, .refl _ _, h⟩
  | cons c calls ih =>
    obtain ⟨r, hqr, hr⟩ := follows_step hmax h c
    rw [← step_maxCount s c] at hmax
    obtain ⟨r', hrr', hr'⟩ := ih hmax hr
    rw [step_maxCount] at hrr'
    exact ⟨r', hqr.trans hrr', hr'⟩

theorem start_follows (maxRecords drainRate : Int) :
    Follows (start maxRecords drainRate : Trace F32 F64) {} := by
  constructor <;> rfl

theorem one_le_maxCount (maxRecords drainRate : Int) :
    1 ≤ (start maxRecords drainRate : Trace F32 F64).sf.maxCount := by
  change 1 ≤ if maxRecords ≤ 0 then 10000 else maxRecords.toNat
  split
  next => decide
  next h => omega

/-- The queue never outgrows its limit, the counters balance, and the history of the buffer is
that of a run of the reference queue: what was buffered is what left, drained or evicted, in
the order in which it left, and then the queue. -/
theorem buffer_bounded_fifo (maxRecords drainRate : Int) (calls : List (Call F32 F64)) :
    let s := calls.foldl step (start maxRecords drainRate)
    let maxCount := if maxRecords ≤ 0 then 10000 else maxRecords.toNat
    s.sf.records.length ≤ maxCount ∧
      s.sf.totalBuffered = s.sf.totalDrained + s.sf.totalEvicted + s.sf.records.length ∧
      ∃ q, Reaches (BoundedFifo.step maxCount) {} q ∧ Follows s q ∧
        s.buffered = q.left.map Prod.snd ++ s.sf.records ∧
        (q.gone .drained).Sublist s.buffered := by
  intro s maxCount
  obtain ⟨q, hreach, hq⟩ :=
    follows_foldl calls (one_le_maxCount maxRecords drainRate) (start_follows maxRecords drainRate)
  have hbalanced : Balanced maxCount q := reaches_balanced ⟨rfl, Nat.zero_le _⟩ hreach
  refine ⟨?_, ?_, q, hreach, hq, ?_, ?_⟩
  · rw [hq.queue]
    exact hbalanced.length
  · rw [hq.totalBuffered, hq.totalDrained, hq.totalEvicted, hq.queue]
    exact hbalanced.count
  · rw [hq.buffered, hq.queue]
    exact hbalanced.pushed
  · rw [hq.buffered]
    exact hbalanced.sublist .drained

end SfQueue
