import Mathlib.Algebra.Order.Group.Multiset
import Mathlib.Tactic.Abel
import Tentacle.BridgeSystem

/-!
# Where the accepted values go

Every value that the exception check lets through for a known variable is a
sample. A sample is in a handler, in the buffer, in the batch being drained, on
the wire, or evicted, as long as no publish of a DDATA fails: a failed publish,
live or from the buffer, drops its sample. Samples are compared without the
historical flag, which draining sets.
-/

namespace SampleConservation

open GoValues SparkplugPayload SparkplugNode MqttBridge StoreForward BridgeSystem

variable {F32 F64 : Type}

abbrev Sample (F32 F64 : Type) := String × Metric F32 F64

def sample (deviceID : String) (m : Metric F32 F64) : Sample F32 F64 :=
  (deviceID, { m with isHistorical := false })

def recordSamples (r : BufferedRecord F32 F64) : List (Sample F32 F64) :=
  r.payload.metrics.map (sample r.deviceID)

def messageSamples (m : Message F32 F64) : List (Sample F32 F64) :=
  match m.type with
  | .ddata deviceID => m.payload.metrics.map (sample deviceID)
  | _ => []

/-- The samples that the exception check has let through. -/
def accepted (s : System F32 F64) : Multiset (Sample F32 F64) :=
  s.accepted.map (fun a => sample a.1 a.2)

/-- The samples handed to the MQTT client in a DDATA. -/
def delivered (s : System F32 F64) : Multiset (Sample F32 F64) := s.wire.flatMap messageSamples

def buffered (s : System F32 F64) : Multiset (Sample F32 F64) := s.sf.records.flatMap recordSamples

/-- The samples of the handlers that are not done. -/
def handled (s : System F32 F64) : Multiset (Sample F32 F64) :=
  s.handlers.map (fun h => sample h.deviceID h.metric)

/-- The samples of the batch being drained. -/
def draining (s : System F32 F64) : Multiset (Sample F32 F64) := s.batch.flatMap recordSamples

/-- When nothing is under way, every accepted sample is delivered, buffered or
one of those that `totalEvicted` counts. -/
def NoSilentLoss (s : System F32 F64) : Prop :=
  Idle s → ∃ evicted : Multiset (Sample F32 F64), evicted.card = s.sf.totalEvicted ∧
    accepted s = delivered s + buffered s + evicted

/-- A DDATA is published by a node that is born and has a client, and without an error. -/
def Succeeds [GoFloats F32 F64] (marshal : PbPayload F32 F64 → Option String) (s : System F32 F64) :
    BridgeAction F32 F64 → Prop
  | .publish broker nowMs i =>
    ∀ h ∈ s.handlers[i]?, mayPublish s.node ∧ accepts marshal broker (.ddata h.deviceID)
      { timestamp := nowMs, seq := (s.node.seq + 1) % 256, metrics := [h.metric] }
  | .drainPublish broker =>
    ∀ r ∈ s.batch.head?, mayPublish s.node ∧ accepts marshal broker (.ddata r.deviceID)
      { r.payload with seq := (s.node.seq + 1) % 256 }
  | _ => True

instance Succeeds.decidable [GoFloats F32 F64] (marshal : PbPayload F32 F64 → Option String)
    (s : System F32 F64) : (a : BridgeAction F32 F64) → Decidable (Succeeds marshal s a)
  | .publish _ _ _ | .drainPublish _ => by unfold Succeeds; infer_instance
  | .receive _ _ | .checkSF _ | .checkNode _ | .buffer _ | .drain | .fireTimer | .rebirthCommand
  | .birthStep _ _ _ _ | .loadVariables _ | .connect _ _ | .onConnect | .connectionLost
  | .disconnect _ _ | .processHostState _ _ _ | .stateChange _ | .reconcile _
  | .setEnabled _ => isTrue trivial

/-- All samples that are somewhere, also in goroutines that are under way. -/
def held (s : System F32 F64) : Multiset (Sample F32 F64) :=
  delivered s + buffered s + handled s + draining s

/-- What was accepted is held or was evicted. Every buffered record holds one
sample, so evictions can be counted in records. -/
structure Balanced (s : System F32 F64) : Prop where
  single : ∀ r ∈ s.sf.records, r.payload.metrics.length = 1
  books : ∃ evicted : Multiset (Sample F32 F64), evicted.card = s.sf.totalEvicted ∧
    accepted s = held s + evicted

theorem Balanced.noSilentLoss {s : System F32 F64} (h : Balanced s) : NoSilentLoss s := by
  rintro ⟨hhandlers, -, -, hbatch, -⟩
  obtain ⟨evicted, hcard, hbooks⟩ := h.books
  refine ⟨evicted, hcard, ?_⟩
  rw [hbooks]
  simp [held, handled, draining, hhandlers, hbatch]

/-- A step that moves samples: what is accepted or evicted in it accounts for
the change in what is held. -/
theorem Balanced.move {s t : System F32 F64} (h : Balanced s)
    (hsingle : ∀ r ∈ t.sf.records, r.payload.metrics.length = 1)
    (out : Multiset (Sample F32 F64)) (hout : s.sf.totalEvicted + out.card = t.sf.totalEvicted)
    (heq : accepted t + held s = accepted s + held t + out) : Balanced t := by
  obtain ⟨evicted, hcard, hbooks⟩ := h.books
  refine ⟨hsingle, evicted + out, by rw [Multiset.card_add, hcard, hout], ?_⟩
  apply add_right_cancel (b := held s)
  rw [heq, hbooks]
  abel

/-- A step that moves no sample. -/
theorem Balanced.same {s t : System F32 F64} (h : Balanced s) (haccepted : t.accepted = s.accepted)
    (hdelivered : delivered t = delivered s) (hrecords : t.sf.records = s.sf.records)
    (hevicted : t.sf.totalEvicted = s.sf.totalEvicted) (hhandled : handled t = handled s)
    (hbatch : t.batch = s.batch) : Balanced t := by
  apply h.move (by rw [hrecords]; exact h.single) 0 hevicted.symm
  rw [held, held, hdelivered, hhandled]
  simp only [accepted, buffered, draining, haccepted, hrecords, hbatch, add_zero]

/-- Messages other than DDATA deliver nothing. -/
theorem delivered_append {s t : System F32 F64} {sent : List (Message F32 F64)}
    (hwire : t.wire = s.wire ++ sent) (h : ∀ m ∈ sent, ∀ deviceID, m.type ≠ .ddata deviceID) :
    delivered t = delivered s := by
  have hnone : sent.flatMap messageSamples = [] := by
    rw [List.flatMap_eq_nil_iff]
    intro m hm
    unfold messageSamples
    split
    · rename_i d hd
      exact absurd hd (h m hm d)
    · rfl
  simp [delivered, hwire, hnone]

@[simp] theorem sample_historical (deviceID : String) (m : Metric F32 F64) :
    sample deviceID { m with isHistorical := true } = sample deviceID m := rfl

@[simp] theorem recordSamples_markHistorical (r : BufferedRecord F32 F64) :
    recordSamples (markHistorical r) = recordSamples r := by
  simp [recordSamples, markHistorical, Function.comp_def]

/-- A handler that goes on handles the same sample. -/
theorem handled_setPhase {s : System F32 F64} {i : Nat} {h : Handler F32 F64}
    (hi : s.handlers[i]? = some h) (phase : Phase) :
    handled (setPhase s i h phase) = handled s := by
  have hset : (s.handlers.set i { h with phase := phase }).map
      (fun h => sample h.deviceID h.metric) =
        s.handlers.map (fun h => sample h.deviceID h.metric) := by
    obtain ⟨hlt, rfl⟩ := List.getElem?_eq_some_iff.mp hi
    apply List.ext_getElem (by simp)
    intro j hj _
    by_cases hji : i = j
    · subst hji
      simp
    · simp [hji]
  simp only [handled, setPhase, hset]

/-- The sample of a handler that is done leaves the others. -/
theorem handled_erase {s t : System F32 F64} {i : Nat} {h : Handler F32 F64}
    (hi : s.handlers[i]? = some h) (ht : t.handlers = s.handlers.eraseIdx i) :
    handled s = sample h.deviceID h.metric ::ₘ handled t := by
  obtain ⟨hlt, rfl⟩ := List.getElem?_eq_some_iff.mp hi
  have hperm := (List.getElem_cons_eraseIdx_perm hlt).map (fun h => sample h.deviceID h.metric)
  rw [handled, handled, ht, ← Multiset.coe_eq_coe.mpr hperm]
  rfl

/-- The queue gives up its oldest samples and takes a new one. -/
theorem buffered_buffer {s t : System F32 F64} {h : Handler F32 F64} (hs : Balanced s)
    (ht : t.sf = buffer h.deviceID h.payload s.sf) :
    ∃ evicted : Multiset (Sample F32 F64), s.sf.totalEvicted + evicted.card = t.sf.totalEvicted ∧
      sample h.deviceID h.metric ::ₘ buffered s = buffered t + evicted ∧
      ∀ r ∈ t.sf.records, r.payload.metrics.length = 1 := by
  obtain ⟨front, hsplit, hlen⟩ := evict_eq s.sf.maxCount s.sf.records
  have hrecords :
      t.sf.records = (evict s.sf.maxCount s.sf.records).1 ++ [⟨h.deviceID, h.payload⟩] := by
    rw [ht]
    rfl
  refine ⟨front.flatMap recordSamples, ?_, ?_, ?_⟩
  · have hone : ∀ r ∈ front, (recordSamples r).length = 1 := by
      intro r hr
      rw [recordSamples, List.length_map]
      exact hs.single r (by rw [hsplit]; exact List.mem_append_left _ hr)
    rw [ht, Multiset.coe_card, List.length_flatMap, List.map_congr_left hone]
    simp [buffer, hlen]
  · have hsamples : buffered s =
        ((front.flatMap recordSamples : List _) : Multiset (Sample F32 F64)) +
          ((evict s.sf.maxCount s.sf.records).1.flatMap recordSamples : List _) := by
      rw [Multiset.coe_add, ← List.flatMap_append, ← hsplit]
      rfl
    have hnew : buffered t =
        (((evict s.sf.maxCount s.sf.records).1.flatMap recordSamples : List _) :
          Multiset (Sample F32 F64)) + {sample h.deviceID h.metric} := by
      rw [buffered, hrecords, List.flatMap_append, ← Multiset.coe_add]
      rfl
    rw [hsamples, hnew, ← Multiset.singleton_add]
    abel
  · intro r hr
    rw [hrecords, List.mem_append, List.mem_singleton] at hr
    rcases hr with hr | rfl
    · exact hs.single r (by rw [hsplit]; exact List.mem_append_right _ hr)
    · rfl

/-- A batch leaves the queue as it was buffered. -/
theorem buffered_drain {s t : System F32 F64} (hsf : t.sf = (drain s.sf).1)
    (hbatch : t.batch = (drain s.sf).2) : buffered s = buffered t + draining t := by
  obtain ⟨front, hfront, hsplit, -⟩ := drain_records s.sf
  have hsamples : t.batch.flatMap recordSamples = front.flatMap recordSamples := by
    rw [hbatch, hfront, List.flatMap_map]
    simp
  rw [buffered, buffered, draining, hsamples, hsplit, hsf, List.flatMap_append, ← Multiset.coe_add,
    add_comm]

theorem handled_append {s t : System F32 F64} {h : Handler F32 F64}
    (ht : t.handlers = s.handlers ++ [h]) :
    handled t = handled s + {sample h.deviceID h.metric} := by
  rw [handled, ht, List.map_append, ← Multiset.coe_add]
  rfl

theorem accepted_append {s t : System F32 F64} {deviceID : String} {m : Metric F32 F64}
    (ht : t.accepted = s.accepted ++ [(deviceID, m)]) :
    accepted t = accepted s + {sample deviceID m} := by
  rw [accepted, ht, List.map_append, ← Multiset.coe_add]
  rfl

/-- A DDATA delivers the samples in it. -/
theorem delivered_ddata {s t : System F32 F64} {deviceID topic : String} {p : Payload F32 F64}
    (ht : t.wire = s.wire ++ [⟨.ddata deviceID, topic, p⟩]) :
    delivered t = delivered s + (p.metrics.map (sample deviceID) : List _) := by
  rw [delivered, ht, List.flatMap_append, ← Multiset.coe_add]
  simp [delivered, messageSamples]

/-- The check lets a sample through to a new handler. -/
theorem Balanced.accept {s t : System F32 F64} (h : Balanced s) {hd : Handler F32 F64}
    (haccepted : t.accepted = s.accepted ++ [(hd.deviceID, hd.metric)])
    (hhandlers : t.handlers = s.handlers ++ [hd]) (hwire : t.wire = s.wire) (hsf : t.sf = s.sf)
    (hbatch : t.batch = s.batch) : Balanced t := by
  apply h.move (by rw [hsf]; exact h.single) 0 (by rw [hsf]; rfl)
  rw [accepted_append haccepted, held, held, handled_append hhandlers]
  simp only [delivered, buffered, draining, hwire, hsf, hbatch]
  abel

/-- A handler puts its sample into the buffer. -/
theorem Balanced.store {s t : System F32 F64} (h : Balanced s) {i : Nat} {hd : Handler F32 F64}
    (hi : s.handlers[i]? = some hd) (haccepted : t.accepted = s.accepted)
    (hhandlers : t.handlers = s.handlers.eraseIdx i) (hwire : t.wire = s.wire)
    (hsf : t.sf = buffer hd.deviceID hd.payload s.sf) (hbatch : t.batch = s.batch) :
    Balanced t := by
  obtain ⟨out, hout, hsamples, hsingle⟩ := buffered_buffer h hsf
  apply h.move hsingle out hout
  rw [held, held, handled_erase hi hhandlers, ← Multiset.singleton_add]
  rw [← Multiset.singleton_add] at hsamples
  simp only [accepted, delivered, draining, haccepted, hwire, hbatch]
  calc _ = accepted s + delivered s + ({sample hd.deviceID hd.metric} + buffered s) + handled t +
        draining s := by
        simp only [accepted, delivered, draining]
        abel
    _ = _ := by
        rw [hsamples]
        simp only [accepted, delivered, draining]
        abel

/-- A handler hands its sample to the client. -/
theorem Balanced.deliver {s t : System F32 F64} (h : Balanced s) {i : Nat} {hd : Handler F32 F64}
    {topic : String} {p : Payload F32 F64} (hi : s.handlers[i]? = some hd)
    (hp : p.metrics = [hd.metric]) (haccepted : t.accepted = s.accepted)
    (hhandlers : t.handlers = s.handlers.eraseIdx i)
    (hwire : t.wire = s.wire ++ [⟨.ddata hd.deviceID, topic, p⟩]) (hsf : t.sf = s.sf)
    (hbatch : t.batch = s.batch) : Balanced t := by
  apply h.move (by rw [hsf]; exact h.single) 0 (by rw [hsf]; rfl)
  rw [held, held, handled_erase hi hhandlers, delivered_ddata hwire, hp, ← Multiset.singleton_add]
  simp only [accepted, buffered, draining, haccepted, hsf, hbatch, List.map_cons, List.map_nil,
    Multiset.coe_singleton]
  abel

/-- A batch is taken from the queue. -/
theorem Balanced.takeBatch {s t : System F32 F64} (h : Balanced s) (hnone : s.batch = [])
    (haccepted : t.accepted = s.accepted) (hhandlers : t.handlers = s.handlers)
    (hwire : t.wire = s.wire) (hsf : t.sf = (drain s.sf).1) (hbatch : t.batch = (drain s.sf).2) :
    Balanced t := by
  obtain ⟨front, -, hsplit, hevicted⟩ := drain_records s.sf
  refine h.move ?_ 0 (by rw [hsf, hevicted]; rfl) ?_
  · intro r hr
    rw [hsf] at hr
    exact h.single r (by rw [hsplit]; exact List.mem_append_right _ hr)
  · have hempty : draining s = 0 := by simp [draining, hnone]
    rw [held, held, buffered_drain hsf hbatch, hempty]
    simp only [accepted, delivered, handled, haccepted, hwire, hhandlers]
    abel

/-- The next record of the batch is handed to the client. -/
theorem Balanced.replay {s t : System F32 F64} (h : Balanced s) {r : BufferedRecord F32 F64}
    {rest : List (BufferedRecord F32 F64)} {topic : String} {p : Payload F32 F64}
    (hr : s.batch = r :: rest) (hp : p.metrics = r.payload.metrics)
    (haccepted : t.accepted = s.accepted) (hhandlers : t.handlers = s.handlers)
    (hwire : t.wire = s.wire ++ [⟨.ddata r.deviceID, topic, p⟩]) (hsf : t.sf = s.sf)
    (hbatch : t.batch = rest) : Balanced t := by
  have hdraining : draining s = (recordSamples r : List _) + draining t := by
    rw [draining, draining, hr, hbatch, List.flatMap_cons, Multiset.coe_add]
  apply h.move (by rw [hsf]; exact h.single) 0 (by rw [hsf]; rfl)
  rw [held, held, delivered_ddata hwire, hp, hdraining]
  simp only [accepted, buffered, handled, haccepted, hsf, hhandlers, recordSamples]
  abel

/-- A reconcile moves no sample. -/
theorem reconcileStep_balanced {s t : System F32 F64} (h : Balanced s) {i : Nat} {r : Reconcile}
    (ht : reconcileStep s i r = some t) : Balanced t := by
  cases r with
  | setHost online after =>
    simp only [reconcileStep] at ht
    split at ht <;> cases ht
    exact h.same rfl rfl rfl rfl rfl rfl
  | readNode after | readHost nodeBorn after =>
    cases ht
    exact h.same rfl rfl rfl rfl rfl rfl
  | apply nodeBorn hostOnline after =>
    cases ht
    cases nodeBorn && hostOnline
    · exact h.same rfl rfl (setOffline_records _) (setOffline_totalEvicted _) rfl rfl
    · exact h.same rfl rfl (setOnline_records _) (setOnline_totalEvicted _) rfl rfl

theorem initial_balanced (cfg : Settings) (file : Option String) :
    Balanced (initial cfg file : System F32 F64) :=
  ⟨nofun, 0, rfl, rfl⟩

section Steps

variable [GoFloats F32 F64] [GoFloat64 F64] {marshal : PbPayload F32 F64 → Option String}

theorem receive_balanced {s : System F32 F64} (h : Balanced s) (msg : PlcDataMessage F64)
    (nowMs : Nat) : Balanced (receive s msg nowMs) := by
  unfold receive
  split
  · exact h.accept rfl rfl rfl rfl rfl
  · exact h.same rfl rfl rfl rfl rfl rfl

/-- A birth carries no sample away. -/
theorem birthStep_balanced {s t : System F32 F64} (h : Balanced s) {broker : Broker}
    {nowMs i : Nat} {order : List String} {rest : List (BirthStep F32 F64)}
    {c : BirthStep F32 F64} (ht : birthStep marshal s broker nowMs order i rest c = some t) :
    Balanced t := by
  cases c with
  | buildDeviceMetrics | resetRBEStates =>
    simp only [birthStep] at ht
    split at ht <;> cases ht
    exact h.same rfl rfl rfl rfl rfl rfl
  | birth =>
    simp only [birthStep] at ht
    split at ht <;> cases ht
    exact h.same rfl (delivered_append rfl (fun _ hm => birth_not_ddata hm)) rfl rfl rfl rfl
  | publishDeviceBirth deviceID =>
    cases ht
    exact h.same rfl (delivered_append rfl (fun _ hm => publishDeviceBirth_not_ddata hm))
      rfl rfl rfl rfl
  | updateNodeMetrics | markDead | setDeviceMetrics deviceID metrics =>
    cases ht
    exact h.same rfl rfl rfl rfl rfl rfl

/-- Each step that succeeds moves samples from one place to another. -/
theorem step_balanced {s t : System F32 F64} {a : BridgeAction F32 F64} (h : Balanced s)
    (hok : Succeeds marshal s a) (ht : step marshal s a = some t) : Balanced t := by
  cases a with
  | receive msg nowMs =>
    simp only [step] at ht
    split at ht <;> cases ht
    exact receive_balanced h msg nowMs
  | checkSF i | checkNode i =>
    simp only [step] at ht
    split at ht <;> [split at ht; skip] <;> cases ht
    rename_i hi _
    exact h.same rfl rfl rfl rfl (handled_setPhase hi _) rfl
  | buffer i =>
    simp only [step] at ht
    split at ht <;> [split at ht; skip] <;> cases ht
    rename_i hi _
    exact h.store hi rfl rfl rfl rfl rfl
  | publish broker nowMs i =>
    simp only [step] at ht
    split at ht <;> [split at ht; skip]
    · rename_i hd hi _
      obtain ⟨hmay, hsend⟩ := hok hd hi
      rcases publishDeviceData_cases marshal broker nowMs hd.deviceID [hd.metric] s.node with
        ⟨hno, -⟩ | ⟨-, heq⟩
      · rw [hmay] at hno
        cases hno
      · rw [heq, publish_of_accepts hsend] at ht
        cases ht
        exact h.deliver hi rfl rfl rfl rfl rfl rfl
    · cases ht
    · cases ht
  | drain =>
    simp only [step] at ht
    split at ht <;> cases ht
    rename_i hnone
    exact h.takeBatch hnone rfl rfl rfl rfl rfl
  | drainPublish broker =>
    simp only [step] at ht
    split at ht
    · cases ht
    · rename_i r rest hbatch
      obtain ⟨hmay, hsend⟩ := hok r (by rw [hbatch]; rfl)
      rcases publishDeviceDataPayload_cases marshal broker r.deviceID r.payload s.node with
        ⟨hno, -⟩ | ⟨-, heq⟩
      · rw [hmay] at hno
        cases hno
      · rw [heq, publish_of_accepts hsend] at ht
        cases ht
        exact h.replay (p := { r.payload with seq := (s.node.seq + 1) % 256 }) hbatch
          rfl rfl rfl rfl rfl rfl
  | birthStep broker nowMs order i =>
    simp only [step] at ht
    split at ht
    · exact birthStep_balanced h ht
    · cases ht
  | reconcile i =>
    simp only [step] at ht
    split at ht
    · exact reconcileStep_balanced h ht
    · cases ht
  | connect nowMs dial =>
    simp only [step] at ht
    split at ht <;> cases ht
    · exact h
    · exact h.same rfl rfl rfl rfl rfl rfl
  | disconnect broker nowMs =>
    cases ht
    exact h.same rfl (delivered_append rfl (fun _ hm _ => by rw [disconnect_mem hm]; exact nofun))
      rfl rfl rfl rfl
  | fireTimer | loadVariables vars | stateChange i | setEnabled enabled =>
    simp only [step] at ht
    split at ht <;> cases ht
    exact h.same rfl rfl rfl rfl rfl rfl
  | rebirthCommand | onConnect | connectionLost | processHostState hostID online timestamp =>
    cases ht
    exact h.same rfl rfl rfl rfl rfl rfl

/-- In every run in which no publish of a DDATA fails, no accepted sample is
lost without being counted. -/
theorem succeeding_runs_lose_nothing (marshal : PbPayload F32 F64 → Option String)
    (cfg : Settings) (file : Option String) (as : List (BridgeAction F32 F64)) (t : System F32 F64)
    (hrun : Runs.run (step marshal) (initial cfg file) as = some t)
    (hok : Runs.Meets (step marshal) (Succeeds marshal) (initial cfg file) as) :
    NoSilentLoss t :=
  (Runs.run_invariant (fun _ _ _ hs ha ht => step_balanced hs ha ht)
    (initial_balanced cfg file) hok hrun).noSilentLoss

end Steps

/-- A handler of the plant's variable, up to its decision. -/
def decided (x : ℚ) (nowMs : Nat) : List (BridgeAction ℚ ℚ) :=
  [.receive (temperature x) nowMs, .checkSF 0, .checkNode 0]

/-- One sample goes out live, one through the buffer. -/
def succeedingSchedule : List (BridgeAction ℚ ℚ) :=
  startup ++ decided 21 4 ++
    [.publish accepting 4 0, .rebirthCommand, .birthStep accepting 5 [] 2] ++ reconciled ++
    [.receive (temperature 22) 6, .checkSF 0, .buffer 0] ++ births 7 2 ++ reconciled ++
    [.drain, .drainPublish accepting]

/-- The sizes of the books, and the work under way. -/
def sizes (s : System ℚ ℚ) : List Nat × List Nat :=
  ([s.accepted.length, (s.wire.flatMap messageSamples).length, s.sf.records.length,
    s.sf.totalEvicted], work s)

theorem idle_of_sizes {s : System ℚ ℚ} {books : List Nat} {n : Nat}
    (h : sizes s = (books, List.replicate n 0)) : Idle s := by
  apply idle_of_work
  rw [(Prod.mk.inj h).2]
  exact fun m hm => List.eq_of_mem_replicate hm

theorem succeeding_schedule_loses_nothing :
    ∃ t, Runs.run (step marshals) (initial settings none) succeedingSchedule = some t ∧
      Idle t ∧ (accepted t).card = 2 ∧ NoSilentLoss t := by
  have hok : Runs.Meets (step marshals) (Succeeds marshals) (initial settings none)
      succeedingSchedule := by decide +kernel
  cases hrun : Runs.run (step marshals) (initial settings none) succeedingSchedule with
  | none => exact absurd (congrArg Option.isSome hrun) (by decide +kernel)
  | some t =>
    have hsizes : (Runs.run (step marshals) (initial settings none) succeedingSchedule).map sizes =
        some ([2, 2, 0, 0], List.replicate 7 0) := by decide +kernel
    rw [hrun, Option.map_some, Option.some.injEq] at hsizes
    refine ⟨t, rfl, idle_of_sizes hsizes, ?_,
      succeeding_runs_lose_nothing marshals settings none succeedingSchedule t hrun hok⟩
    simpa [sizes, accepted] using (List.cons.inj (Prod.mk.inj hsizes).1).1

/-- The client refuses a live DDATA. -/
def refusedSchedule : List (BridgeAction ℚ ℚ) := startup ++ decided 21 4 ++ [.publish refusing 4 0]

/-- A sample whose publish fails is nowhere: the exception state has it as
published, and it is not on the wire, not in the buffer and not counted. -/
theorem refused_schedule_loses :
    ¬ ∀ (marshal : PbPayload ℚ ℚ → Option String) (cfg : Settings) (file : Option String)
      (as : List (BridgeAction ℚ ℚ)) (t : System ℚ ℚ),
      Runs.run (step marshal) (initial cfg file) as = some t → NoSilentLoss t := by
  intro h
  cases hrun : Runs.run (step marshals) (initial settings none) refusedSchedule with
  | none => exact absurd (congrArg Option.isSome hrun) (by decide +kernel)
  | some t =>
    have hsizes : (Runs.run (step marshals) (initial settings none) refusedSchedule).map sizes =
        some ([1, 0, 0, 0], List.replicate 6 0) := by decide +kernel
    rw [hrun, Option.map_some, Option.some.injEq] at hsizes
    obtain ⟨evicted, hcard, hbooks⟩ :=
      h marshals settings none refusedSchedule t hrun (idle_of_sizes hsizes)
    simp only [sizes, Prod.mk.injEq, List.cons.injEq, List.length_eq_zero_iff] at hsizes
    obtain ⟨⟨hacc, hwire, hrecords, hevicted, -⟩, -⟩ := hsizes
    have hlen := congrArg Multiset.card hbooks
    simp [accepted, delivered, buffered, hacc, hwire, hrecords, hcard, hevicted] at hlen

end SampleConservation
