import Tentacle.SparkplugPayload

/-!
# The store-and-forward buffer

`StoreForwardBuffer` with its queue, its mode and its counters; every method
runs under the buffer's own lock. The timeline and the publish rate, which only
the status report reads, and the unused byte limit are left out.
-/

namespace StoreForward

open GoValues SparkplugPayload

variable {F32 F64 : Type}

inductive SFState where
  | online
  | offline
  | draining
  deriving DecidableEq, Repr

structure BufferedRecord (F32 F64 : Type) where
  deviceID : String
  payload : Payload F32 F64

structure Buffer (F32 F64 : Type) where
  state : SFState
  records : List (BufferedRecord F32 F64)
  maxCount : Nat
  drainRate : Nat
  totalBuffered : Nat
  totalDrained : Nat
  totalEvicted : Nat

def newStoreForwardBuffer (maxRecords drainRate : Int) : Buffer F32 F64 :=
  { state := .offline
    records := []
    maxCount := if maxRecords ≤ 0 then 10000 else maxRecords.toNat
    drainRate := if drainRate ≤ 0 then 100 else drainRate.toNat
    totalBuffered := 0
    totalDrained := 0
    totalEvicted := 0 }

def setOnline (sf : Buffer F32 F64) : Buffer F32 F64 :=
  if sf.state = .online then sf
  else if sf.records ≠ [] then { sf with state := .draining }
  else { sf with state := .online }

def setOffline (sf : Buffer F32 F64) : Buffer F32 F64 := { sf with state := .offline }

/-- The loop that evicts the oldest records of a full queue, with their number. -/
def evict (maxCount : Nat) : List (BufferedRecord F32 F64) → List (BufferedRecord F32 F64) × Nat
  | [] => ([], 0)
  | r :: rs =>
    if maxCount ≤ (r :: rs).length then
      let (kept, n) := evict maxCount rs
      (kept, n + 1)
    else (r :: rs, 0)

def buffer (deviceID : String) (payload : Payload F32 F64) (sf : Buffer F32 F64) :
    Buffer F32 F64 :=
  let (kept, n) := evict sf.maxCount sf.records
  { sf with
    records := kept ++ [⟨deviceID, payload⟩]
    totalEvicted := sf.totalEvicted + n
    totalBuffered := sf.totalBuffered + 1 }

def markHistorical (r : BufferedRecord F32 F64) : BufferedRecord F32 F64 :=
  { r with payload := { r.payload with
      metrics := r.payload.metrics.map (fun m => { m with isHistorical := true }) } }

def drain (sf : Buffer F32 F64) : Buffer F32 F64 × List (BufferedRecord F32 F64) :=
  if sf.state ≠ .draining then (sf, [])
  else if sf.records = [] then ({ sf with state := .online }, [])
  else
    let count := min sf.drainRate sf.records.length
    ({ sf with
      records := sf.records.drop count
      totalDrained := sf.totalDrained + count }, (sf.records.take count).map markHistorical)

/-- What is evicted is the front of the queue. -/
theorem evict_eq (maxCount : Nat) (records : List (BufferedRecord F32 F64)) :
    ∃ evicted, records = evicted ++ (evict maxCount records).1 ∧
      evicted.length = (evict maxCount records).2 := by
  induction records with
  | nil => exact ⟨[], rfl, rfl⟩
  | cons r rs ih =>
    obtain ⟨evicted, hrs, hlen⟩ := ih
    by_cases h : maxCount ≤ rs.length + 1
    · refine ⟨r :: evicted, ?_, ?_⟩
      · simp only [evict, List.length_cons, h, if_true, List.cons_append]
        rw [← hrs]
      · simp only [evict, List.length_cons, h, if_true, hlen]
    · exact ⟨[], by simp [evict, h], by simp [evict, h]⟩

@[simp] theorem setOnline_records (sf : Buffer F32 F64) : (setOnline sf).records = sf.records := by
  unfold setOnline
  split <;> [rfl; split <;> rfl]
@[simp] theorem setOnline_totalEvicted (sf : Buffer F32 F64) :
    (setOnline sf).totalEvicted = sf.totalEvicted := by
  unfold setOnline
  split <;> [rfl; split <;> rfl]
@[simp] theorem setOffline_records (sf : Buffer F32 F64) : (setOffline sf).records = sf.records :=
  rfl
@[simp] theorem setOffline_totalEvicted (sf : Buffer F32 F64) :
    (setOffline sf).totalEvicted = sf.totalEvicted := rfl

/-- A batch is the front of the queue, with every metric marked historical. -/
theorem drain_records (sf : Buffer F32 F64) :
    ∃ batch, (drain sf).2 = batch.map markHistorical ∧ sf.records = batch ++ (drain sf).1.records ∧
      (drain sf).1.totalEvicted = sf.totalEvicted := by
  by_cases hs : sf.state = .draining
  · by_cases hr : sf.records = []
    · exact ⟨[], by simp [drain, hs, hr], by simp [drain, hs, hr], by simp [drain, hs, hr]⟩
    · refine ⟨sf.records.take (min sf.drainRate sf.records.length), ?_, ?_, ?_⟩
      · simp [drain, hs, hr]
      · simp only [drain, hs, hr, ne_eq, not_true, if_false]
        exact (List.take_append_drop _ _).symm
      · simp [drain, hs, hr]
  · exact ⟨[], by simp [drain, hs], by simp [drain, hs], by simp [drain, hs]⟩

/-- No record is left behind: the buffer is online only when its queue is empty. -/
def Settled (sf : Buffer F32 F64) : Prop := sf.state = .online → sf.records = []

theorem setOffline_settled (sf : Buffer F32 F64) : Settled (setOffline sf) := nofun

/-- Going online makes a queue drain, or finds none. -/
theorem setOnline_settled {sf : Buffer F32 F64} (h : Settled sf) : Settled (setOnline sf) := by
  by_cases hs : sf.state = .online
  · simpa [setOnline, hs] using h
  · by_cases hr : sf.records = []
    · intro _
      simp [setOnline, hs, hr]
    · intro hon
      simp [setOnline, hs, hr] at hon

/-- After a drain the queue is empty. -/
theorem drain_settled {sf : Buffer F32 F64} (h : Settled sf) : Settled (drain sf).1 := by
  by_cases hs : sf.state = .draining
  · by_cases hr : sf.records = []
    · intro _
      simp [drain, hs, hr]
    · intro hon
      simp [drain, hs, hr] at hon
  · simpa [drain, hs] using h

/-- A record put into a buffer that is online stays behind. -/
theorem buffer_settled_iff (deviceID : String) (payload : Payload F32 F64) (sf : Buffer F32 F64) :
    Settled (buffer deviceID payload sf) ↔ sf.state ≠ .online := by
  constructor
  · intro h hs
    have hrecords := h hs
    simp [buffer] at hrecords
  · intro hs hon
    exact absurd hon hs

end StoreForward
