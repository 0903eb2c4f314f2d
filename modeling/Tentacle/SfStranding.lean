import Tentacle.BridgeSystem

/-!
# Records left behind in the buffer

A handler decides to buffer on what it reads of the buffer's mode and of the
node's state, and buffers later. Only the buffer's mode at that later moment
counts: a record put into a buffer that is online is not drained, because
`SetOnline` does nothing there.
-/

namespace SfStranding

open GoValues SparkplugPayload SparkplugNode MqttBridge StoreForward BridgeSystem

variable {F32 F64 : Type}

/-- With nothing under way, a buffer that is online has an empty queue. -/
def NoneStranded (s : System F32 F64) : Prop := Idle s → Settled s.sf

/-- A record is put into the buffer only while the buffer is not online. -/
def BuffersOffline (s : System F32 F64) : BridgeAction F32 F64 → Prop
  | .buffer _ => s.sf.state ≠ .online
  | _ => True

instance BuffersOffline.decidable (s : System F32 F64) :
    (a : BridgeAction F32 F64) → Decidable (BuffersOffline s a)
  | .buffer _ => inferInstanceAs (Decidable (s.sf.state ≠ .online))
  | .receive _ _ | .checkSF _ | .checkNode _ | .publish _ _ _ | .drain | .drainPublish _
  | .fireTimer | .rebirthCommand | .birthStep _ _ _ _ | .loadVariables _ | .connect _ _
  | .onConnect | .connectionLost | .disconnect _ _ | .processHostState _ _ _ | .stateChange _
  | .reconcile _ | .setEnabled _ => isTrue trivial

/-- What a step can do to the buffer. -/
inductive SfStep (sf : Buffer F32 F64) : Buffer F32 F64 → BridgeAction F32 F64 → Prop where
  | same {a : BridgeAction F32 F64} : SfStep sf sf a
  | online {a : BridgeAction F32 F64} : SfStep sf (setOnline sf) a
  | offline {a : BridgeAction F32 F64} : SfStep sf (setOffline sf) a
  | drain : SfStep sf (drain sf).1 .drain
  | buffer {deviceID : String} {payload : Payload F32 F64} {i : Nat} :
      SfStep sf (buffer deviceID payload sf) (.buffer i)

/-- A reconcile moves the state of the queue and nothing in it. -/
theorem reconcileStep_sf {s t : System F32 F64} {i : Nat} {r : Reconcile}
    (ht : reconcileStep s i r = some t) :
    t.sf = s.sf ∨ t.sf = setOnline s.sf ∨ t.sf = setOffline s.sf := by
  cases r with
  | setHost online after =>
    simp only [reconcileStep] at ht
    split at ht <;> cases ht
    exact .inl rfl
  | readNode after | readHost nodeBorn after =>
    cases ht
    exact .inl rfl
  | apply nodeBorn hostOnline after =>
    cases ht
    dsimp only
    split
    · exact .inr (.inl rfl)
    · exact .inr (.inr rfl)

section Steps

variable [GoFloats F32 F64] [GoFloat64 F64] {marshal : PbPayload F32 F64 → Option String}

/-- A birth does not touch the queue. -/
theorem birthStep_sf {s t : System F32 F64} {broker : Broker} {nowMs i : Nat}
    {order : List String} {rest : List (BirthStep F32 F64)} {c : BirthStep F32 F64}
    (ht : birthStep marshal s broker nowMs order i rest c = some t) : t.sf = s.sf := by
  cases c with
  | buildDeviceMetrics | resetRBEStates | birth =>
    simp only [birthStep] at ht
    split at ht <;> cases ht
    rfl
  | _ =>
    cases ht
    rfl

theorem receive_sf (s : System F32 F64) (msg : PlcDataMessage F64) (nowMs : Nat) :
    (receive s msg nowMs).sf = s.sf := by
  unfold receive
  split <;> rfl

/-- Each step does to the queue what its own call says. -/
theorem step_sf {s t : System F32 F64} {a : BridgeAction F32 F64} (ht : step marshal s a = some t) :
    SfStep s.sf t.sf a := by
  cases a with
  | receive msg nowMs =>
    simp only [step] at ht
    split at ht <;> cases ht
    rw [receive_sf]
    exact .same
  | checkSF i | checkNode i =>
    simp only [step] at ht
    split at ht <;> [split at ht; skip] <;> cases ht
    exact .same
  | buffer i =>
    simp only [step] at ht
    split at ht <;> [split at ht; skip] <;> cases ht
    exact .buffer
  | publish broker nowMs i =>
    simp only [step] at ht
    split at ht <;> [split at ht; skip] <;> cases ht
    exact .same
  | drain =>
    simp only [step] at ht
    split at ht <;> cases ht
    exact .drain
  | drainPublish broker =>
    simp only [step] at ht
    split at ht <;> cases ht
    exact .same
  | birthStep broker nowMs order i =>
    simp only [step] at ht
    split at ht
    · rw [birthStep_sf ht]
      exact .same
    · cases ht
  | reconcile i =>
    simp only [step] at ht
    split at ht
    · rcases reconcileStep_sf ht with h | h | h <;> rw [h]
      · exact .same
      · exact .online
      · exact .offline
    · cases ht
  | connect nowMs dial =>
    simp only [step] at ht
    split at ht <;> cases ht <;> exact .same
  | fireTimer | loadVariables vars | stateChange i | setEnabled enabled =>
    simp only [step] at ht
    split at ht <;> cases ht
    exact .same
  | _ =>
    cases ht
    exact .same

/-- A step that buffers only while offline leaves nothing stranded. -/
theorem step_settled {s t : System F32 F64} {a : BridgeAction F32 F64} (h : Settled s.sf)
    (hok : BuffersOffline s a) (ht : step marshal s a = some t) : Settled t.sf := by
  have hsf := step_sf ht
  generalize t.sf = sf at hsf ⊢
  cases hsf with
  | same => exact h
  | online => exact setOnline_settled h
  | offline => exact setOffline_settled _
  | drain => exact drain_settled h
  | buffer => exact (buffer_settled_iff _ _ _).mpr hok

/-- In every run in which each record is put into a buffer that is not online,
no record is left behind in a buffer that is. -/
theorem offline_runs_none_stranded (marshal : PbPayload F32 F64 → Option String) (cfg : Settings)
    (file : Option String) (as : List (BridgeAction F32 F64)) (t : System F32 F64)
    (hrun : Runs.run (step marshal) (initial cfg file) as = some t)
    (hok : Runs.Meets (step marshal) BuffersOffline (initial cfg file) as) : NoneStranded t := by
  have hsettled : Settled t.sf :=
    Runs.run_invariant (fun _ _ _ hs ha ht => step_settled hs ha ht) (setOffline_settled _) hok hrun
  exact fun _ => hsettled

end Steps

/-- During a rebirth a handler finds the buffer online and the node dead. -/
def handled : List (BridgeAction ℚ ℚ) :=
  [.rebirthCommand, .birthStep accepting 4 [] 2, .receive (temperature 21) 5, .checkSF 0,
    .checkNode 0]

def summary (s : System ℚ ℚ) : SFState × Nat × List Nat :=
  (s.sf.state, s.sf.records.length, work s)

/-- The summary of the example says that nothing is under way. -/
theorem idle_of_summary {s : System ℚ ℚ} {state : SFState} {queue n : Nat}
    (h : summary s = (state, queue, List.replicate n 0)) :
    Idle s ∧ s.sf.state = state ∧ s.sf.records.length = queue := by
  simp only [summary, Prod.mk.injEq] at h
  obtain ⟨hstate, hqueue, hwork⟩ := h
  refine ⟨idle_of_work ?_, hstate, hqueue⟩
  rw [hwork]
  exact fun m hm => List.eq_of_mem_replicate hm

/-- The buffer goes offline before the handler puts its record there. -/
def offlineSchedule : List (BridgeAction ℚ ℚ) :=
  startup ++ handled ++ reconciled ++ [.buffer 0] ++ births 6 2 ++ reconciled ++
    [.drain, .drainPublish accepting, .drain]

theorem offline_schedule_none_stranded :
    ∃ t, Runs.run (step marshals) (initial settings none) offlineSchedule = some t ∧
      Idle t ∧ t.sf.state = .online ∧ NoneStranded t := by
  have hok : Runs.Meets (step marshals) BuffersOffline (initial settings none)
      offlineSchedule := by decide +kernel
  cases hrun : Runs.run (step marshals) (initial settings none) offlineSchedule with
  | none => exact absurd (congrArg Option.isSome hrun) (by decide +kernel)
  | some t =>
    have hsummary : (Runs.run (step marshals) (initial settings none) offlineSchedule).map summary =
        some (.online, 0, List.replicate 7 0) := by decide +kernel
    rw [hrun, Option.map_some, Option.some.injEq] at hsummary
    obtain ⟨hidle, hstate, -⟩ := idle_of_summary hsummary
    exact ⟨t, rfl, hidle, hstate,
      offline_runs_none_stranded marshals settings none offlineSchedule t hrun hok⟩

/-- The handler puts its record into the buffer before the buffer hears of the
rebirth, and the buffer hears of it when the rebirth is over. -/
def onlineSchedule : List (BridgeAction ℚ ℚ) :=
  startup ++ handled ++ [.buffer 0] ++ births 6 2 ++ reconciled ++ reconciled

/-- A record is left behind: nothing is under way, the buffer is online and no
drain will look at its queue. -/
theorem online_schedule_strands :
    ¬ ∀ (marshal : PbPayload ℚ ℚ → Option String) (cfg : Settings) (file : Option String)
      (as : List (BridgeAction ℚ ℚ)) (t : System ℚ ℚ),
      Runs.run (step marshal) (initial cfg file) as = some t → NoneStranded t := by
  intro h
  cases hrun : Runs.run (step marshals) (initial settings none) onlineSchedule with
  | none => exact absurd (congrArg Option.isSome hrun) (by decide +kernel)
  | some t =>
    have hsummary : (Runs.run (step marshals) (initial settings none) onlineSchedule).map summary =
        some (.online, 1, List.replicate 7 0) := by decide +kernel
    rw [hrun, Option.map_some, Option.some.injEq] at hsummary
    obtain ⟨hidle, hstate, hqueue⟩ := idle_of_summary hsummary
    have hempty := h marshals settings none onlineSchedule t hrun hidle hstate
    rw [hempty] at hqueue
    cases hqueue

end SfStranding
