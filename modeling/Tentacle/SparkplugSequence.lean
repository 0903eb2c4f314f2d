import Tentacle.Histories
import Tentacle.NodeSystem

/-!
# Sequence numbers on the wire

The node advances its sequence number before a message is encoded and
published, so a message that fails leaves a gap. Between births the number of
the last message on the wire is the node's own number, provided no message has
failed since.
-/

namespace SparkplugSequence

open GoValues SparkplugPayload SparkplugNode NodeSystem
open Histories (Each each_snoc)

variable {F32 F64 : Type}

/-- The number of the last message that has one; an NDEATH has none. -/
def lastSeq (wire : List (Message F32 F64)) : Option Nat := (wire.filterMap Message.seq).getLast?

/-- An NBIRTH starts at zero, a DBIRTH or DDATA goes on from the message before. -/
def Follows (before : List (Message F32 F64)) (m : Message F32 F64) : Prop :=
  match m.type with
  | .nbirth => m.seq = some 0
  | .dbirth _ | .ddata _ => ∃ p, lastSeq before = some p ∧ m.seq = some ((p + 1) % 256)
  | .ndeath => True

/-- The law of the sequence numbers on the wire. -/
def Sequenced (wire : List (Message F32 F64)) : Prop := Each Follows wire

section Condition

variable [GoFloats F32 F64] (marshal : PbPayload F32 F64 → Option String)

/-- No DBIRTH or DDATA fails, and an NBIRTH fails only before the node is born. -/
def Delivered (s : System F32 F64) : NodeAction F32 F64 → Prop
  | .birth broker now _ =>
    mayBirth s.node →
      if accepts marshal broker .nbirth (nbirthPayload now s.node) then
        ∀ deviceID ∈ s.node.deviceMetrics.keys, ∀ metrics ∈ s.node.deviceMetrics.lookup deviceID,
          Deliverable marshal broker (.dbirth deviceID) now metrics
      else s.node.state ≠ .born
  | .publishDeviceBirth broker now deviceID =>
    mayPublish s.node → ∀ metrics ∈ s.node.deviceMetrics.lookup deviceID,
      Deliverable marshal broker (.dbirth deviceID) now metrics
  | .publishDeviceData broker now deviceID metrics =>
    mayPublish s.node → Deliverable marshal broker (.ddata deviceID) now metrics
  | .publishDeviceDataPayload broker deviceID timestamp metrics =>
    mayPublish s.node → Deliverable marshal broker (.ddata deviceID) timestamp metrics
  | _ => True

instance Delivered.decidable (s : System F32 F64) :
    (a : NodeAction F32 F64) → Decidable (Delivered marshal s a)
  | .birth _ _ _ | .publishDeviceBirth _ _ _ | .publishDeviceData _ _ _ _
  | .publishDeviceDataPayload _ _ _ _ => by unfold Delivered; infer_instance
  | .connect _ _ | .loseConnection | .connectionLost | .autoReconnect | .onConnect
  | .processHostState _ _ _ | .markDead | .setNodeMetrics _ | .setDeviceMetrics _ _
  | .disconnect _ _ | .restart => isTrue trivial

end Condition

/-- The law so far, and the number that the next message has to follow. -/
def UpTo (wire : List (Message F32 F64)) (seq : Nat) : Prop :=
  Sequenced wire ∧ lastSeq wire = some seq

theorem lastSeq_append {wire : List (Message F32 F64)} {m : Message F32 F64} {seq : Nat}
    (h : m.seq = some seq) : lastSeq (wire ++ [m]) = some seq := by
  simp [lastSeq, h]

theorem upTo_nbirth {wire : List (Message F32 F64)} {m : Message F32 F64} (hw : Sequenced wire)
    (ht : m.type = .nbirth) (hm : m.seq = some 0) : UpTo (wire ++ [m]) 0 :=
  ⟨(each_snoc _ _ _).mpr ⟨hw, by simpa only [Follows, ht] using hm⟩, lastSeq_append hm⟩

theorem UpTo.device {wire : List (Message F32 F64)} {seq : Nat} (h : UpTo wire seq)
    {m : Message F32 F64} {deviceID : String} (ht : m.type = .dbirth deviceID ∨
      m.type = .ddata deviceID) (hm : m.seq = some ((seq + 1) % 256)) :
    UpTo (wire ++ [m]) ((seq + 1) % 256) := by
  refine ⟨(each_snoc _ _ _).mpr ⟨h.1, ?_⟩, lastSeq_append hm⟩
  rcases ht with ht | ht <;> simpa only [Follows, ht] using ⟨seq, h.2, hm⟩

/-- While the node is born, the next message follows the last one on the wire. -/
structure InStep (s : System F32 F64) : Prop where
  sequenced : Sequenced s.wire
  born : s.node.state = .born → lastSeq s.wire = some s.node.seq

theorem InStep.upTo {s : System F32 F64} (h : InStep s) (hborn : s.node.state = .born) :
    UpTo s.wire s.node.seq := ⟨h.sequenced, h.born hborn⟩

/-- A step that publishes nothing keeps the numbers in step when a node that is
born after it was born before, at the same number. -/
theorem InStep.quiet {s t : System F32 F64} (h : InStep s) (hwire : t.wire = s.wire)
    (hnode : t.node.state = .born → s.node.state = .born ∧ t.node.seq = s.node.seq) :
    InStep t := by
  refine ⟨by rw [hwire]; exact h.sequenced, ?_⟩
  intro hborn
  obtain ⟨hs, hseq⟩ := hnode hborn
  rw [hwire, hseq]
  exact h.born hs

theorem initial_inStep (cfg : Config) (file : Option String) :
    InStep (initial cfg file : System F32 F64) :=
  ⟨Histories.each_nil _, by simp [initial, newSparkplugNode]⟩

section Steps

variable [GoFloats F32 F64] {marshal : PbPayload F32 F64 → Option String} {broker : Broker}

/-- A device birth that is delivered has the next number. -/
theorem publishDeviceBirthLocked_upTo {wire : List (Message F32 F64)} {n : Node F32 F64}
    {now : Nat} {deviceID : String} {metrics : List (Metric F32 F64)} (h : UpTo wire n.seq)
    (hok : Deliverable marshal broker (.dbirth deviceID) now metrics) :
    UpTo (wire ++ (publishDeviceBirthLocked marshal broker now deviceID metrics n).2)
      ((n.seq + 1) % 256) := by
  simp only [publishDeviceBirthLocked,
    publish_of_accepts (hok ((n.seq + 1) % 256) (Nat.mod_lt _ (by decide)))]
  exact h.device (.inl rfl) rfl

theorem deviceBirths_upTo {wire : List (Message F32 F64)} {n : Node F32 F64} {now : Nat}
    {order : List String} (h : UpTo wire n.seq)
    (hok : ∀ deviceID ∈ order, ∀ metrics ∈ n.deviceMetrics.lookup deviceID,
      Deliverable marshal broker (.dbirth deviceID) now metrics) :
    UpTo (wire ++ (deviceBirths marshal broker now order n).2)
      (deviceBirths marshal broker now order n).1.seq := by
  induction order generalizing wire n with
  | nil => simpa [deviceBirths] using h
  | cons d order ih =>
    have hrest := fun e he => hok e (List.mem_cons_of_mem d he)
    cases hd : n.deviceMetrics.lookup d with
    | none => simpa only [deviceBirths, hd] using ih h hrest
    | some metrics =>
      have hsent := publishDeviceBirthLocked_upTo h (hok d List.mem_cons_self metrics hd)
      have := ih (n := (publishDeviceBirthLocked marshal broker now d metrics n).1)
        (by simpa only [publishDeviceBirthLocked_fst] using hsent)
        (by simpa only [publishDeviceBirthLocked_fst] using hrest)
      simpa only [deviceBirths, hd, List.append_assoc] using this

/-- A birth that is delivered starts from zero again and counts on. -/
theorem birth_inStep {s : System F32 F64} {now : Nat} {order : List String} (h : InStep s)
    (horder : order.Perm s.node.deviceMetrics.keys)
    (hok : Delivered marshal s (.birth broker now order)) :
    InStep { s with
      node := (birth marshal broker now order s.node).1
      wire := s.wire ++ (birth marshal broker now order s.node).2 } := by
  rcases birth_cases marshal broker now order s.node with
    ⟨-, heq⟩ | ⟨hmay, hn, heq⟩ | ⟨hmay, hn, heq⟩
  · rw [heq]
    exact h.quiet (List.append_nil _) (fun hborn => ⟨hborn, rfl⟩)
  · have hcond := hok hmay
    rw [if_neg hn] at hcond
    rw [heq]
    exact h.quiet (List.append_nil _) (fun hborn => absurd hborn hcond)
  · have hcond := hok hmay
    rw [if_pos hn] at hcond
    have hnbirth : UpTo (s.wire ++ [⟨.nbirth, MessageType.nbirth.topic s.node.config,
        nbirthPayload now s.node⟩]) 0 := upTo_nbirth h.sequenced rfl rfl
    have hall := deviceBirths_upTo (n := bornNode s.node) (by simpa using hnbirth)
      (fun d hd metrics hm => hcond d (horder.mem_iff.mp hd) metrics (by simpa using hm))
    rw [List.append_assoc, List.singleton_append] at hall
    rw [heq]
    exact ⟨hall.1, fun _ => hall.2⟩

/-- A device birth that is delivered keeps the numbers in step. -/
theorem publishDeviceBirth_inStep {s : System F32 F64} {now : Nat} {deviceID : String}
    (h : InStep s) (hok : Delivered marshal s (.publishDeviceBirth broker now deviceID)) :
    InStep { s with
      node := (publishDeviceBirth marshal broker now deviceID s.node).1
      wire := s.wire ++ (publishDeviceBirth marshal broker now deviceID s.node).2 } := by
  rcases publishDeviceBirth_cases marshal broker now deviceID s.node with
    heq | ⟨metrics, hmay, hd, heq⟩
  · rw [heq]
    exact h.quiet (List.append_nil _) (fun hborn => ⟨hborn, rfl⟩)
  · have hsent := publishDeviceBirthLocked_upTo (h.upTo (mayPublish_born hmay))
      (hok hmay metrics hd)
    rw [heq]
    exact ⟨hsent.1, fun _ => hsent.2⟩

/-- A DDATA, live or from the buffer, of a node that may publish. -/
theorem ddata_inStep {s : System F32 F64} {wrap : String → String} {now : Nat} {deviceID : String}
    {metrics : List (Metric F32 F64)} (h : InStep s) (hmay : mayPublish s.node = true)
    (hok : Deliverable marshal broker (.ddata deviceID) now metrics) :
    InStep { s with
      node := { s.node with seq := (s.node.seq + 1) % 256 }
      wire := s.wire ++ (publish marshal broker s.node.config wrap (.ddata deviceID)
        { timestamp := now
          seq := (s.node.seq + 1) % 256
          metrics := metrics }).toOption.toList } := by
  have hsent := (h.upTo (mayPublish_born hmay)).device
    (m := ⟨.ddata deviceID, (MessageType.ddata deviceID).topic s.node.config,
      { timestamp := now, seq := (s.node.seq + 1) % 256, metrics := metrics }⟩) (.inr rfl) rfl
  rw [publish_of_accepts (hok ((s.node.seq + 1) % 256) (Nat.mod_lt _ (by decide)))]
  exact ⟨hsent.1, fun _ => hsent.2⟩

theorem disconnect_inStep {s : System F32 F64} {now : Nat} (h : InStep s) :
    InStep { s with
      node := (disconnect marshal broker now s.node).1
      wire := s.wire ++ (disconnect marshal broker now s.node).2 } := by
  rcases disconnect_cases marshal broker now s.node with ⟨-, heq⟩ | ⟨-, -, heq⟩ | ⟨-, -, heq⟩
  · rw [heq]
    exact h.quiet (List.append_nil _) (fun hborn => ⟨hborn, rfl⟩)
  · rw [heq]
    refine ⟨?_, by simp⟩
    cases hp : publish marshal broker s.node.config id .ndeath
        (ndeathPayload now s.node.bdSeq) with
    | error e => simpa [Except.toOption] using h.sequenced
    | ok m =>
      obtain ⟨-, rfl⟩ := accepts_of_publish hp
      exact (each_snoc _ _ _).mpr ⟨h.sequenced, trivial⟩
  · rw [heq]
    exact h.quiet (List.append_nil _) (by simp)

/-- Each section whose messages are delivered keeps the numbers in step. -/
theorem step_inStep {s t : System F32 F64} {a : NodeAction F32 F64} (h : InStep s)
    (hok : Delivered marshal s a) (ht : step marshal s a = some t) : InStep t := by
  cases a with
  | connect now dial =>
    simp only [step] at ht
    split at ht
    · cases ht
      exact h
    · rename_i n hn
      obtain ⟨-, rfl⟩ := connect_ok hn
      cases ht
      exact h.quiet rfl (by simp)
  | loseConnection =>
    simp only [step] at ht
    split at ht
    · split at ht
      · cases ht
        exact h.quiet rfl (fun hborn => ⟨hborn, rfl⟩)
      · cases ht
    · cases ht
  | connectionLost =>
    cases ht
    exact h.quiet rfl (by simp [connectionLost])
  | autoReconnect =>
    simp only [step] at ht
    split at ht
    · split at ht
      · cases ht
      · cases ht
        exact h.quiet rfl (fun hborn => ⟨hborn, rfl⟩)
    · cases ht
  | onConnect =>
    cases ht
    exact h.quiet rfl (by simp [onConnect])
  | processHostState hostID online timestamp =>
    cases ht
    exact h.quiet rfl (fun hborn => by simpa using hborn)
  | markDead =>
    cases ht
    exact h.quiet rfl (by simp [markDead])
  | birth broker now order =>
    simp only [step] at ht
    split at ht
    · rename_i horder
      cases ht
      exact birth_inStep h horder hok
    · cases ht
  | setNodeMetrics metrics =>
    cases ht
    exact h.quiet rfl (fun hborn => ⟨hborn, rfl⟩)
  | setDeviceMetrics deviceID metrics =>
    cases ht
    exact h.quiet rfl (fun hborn => ⟨hborn, rfl⟩)
  | publishDeviceBirth broker now deviceID =>
    cases ht
    exact publishDeviceBirth_inStep h hok
  | publishDeviceData broker now deviceID metrics =>
    rcases publishDeviceData_cases marshal broker now deviceID metrics s.node with
      ⟨-, heq⟩ | ⟨hmay, heq⟩
    · simp only [step, heq] at ht
      cases ht
      exact h.quiet (List.append_nil _) (fun hborn => ⟨hborn, rfl⟩)
    · simp only [step, heq] at ht
      cases ht
      exact ddata_inStep h hmay (hok hmay)
  | publishDeviceDataPayload broker deviceID timestamp metrics =>
    rcases publishDeviceDataPayload_cases marshal broker deviceID
      { timestamp := timestamp, seq := 0, metrics := metrics } s.node with ⟨-, heq⟩ | ⟨hmay, heq⟩
    · simp only [step, heq] at ht
      cases ht
      exact h.quiet (List.append_nil _) (fun hborn => ⟨hborn, rfl⟩)
    · simp only [step, heq] at ht
      cases ht
      exact ddata_inStep h hmay (hok hmay)
  | disconnect broker now =>
    cases ht
    exact disconnect_inStep h
  | restart =>
    cases ht
    exact h.quiet rfl (by simp [newSparkplugNode])

/-- In every run in which no DBIRTH or DDATA fails, and no NBIRTH fails in a
node that is born, the numbers on the wire follow each other. -/
theorem delivered_runs_sequenced (marshal : PbPayload F32 F64 → Option String) (cfg : Config)
    (file : Option String) (as : List (NodeAction F32 F64)) (t : System F32 F64)
    (hrun : Runs.run (step marshal) (initial cfg file) as = some t)
    (hok : Runs.Meets (step marshal) (Delivered marshal) (initial cfg file) as) :
    Sequenced t.wire :=
  (Runs.run_invariant (fun _ _ _ hs ha ht => step_inStep hs ha ht)
    (initial_inStep cfg file) hok hrun).sequenced

end Steps

def plantConfig : Config := ⟨"plant", "edge1", "", ""⟩

def reading (x : ℚ) : List (Metric ℚ ℚ) :=
  [{ name := "temperature", datatype := .double, value := some (.float64 x) }]

/-- A device is born, then reports live and from the buffer. -/
def deliveredSchedule : List (NodeAction ℚ ℚ) :=
  [.connect 1 none, .onConnect, .setDeviceMetrics "oven" (reading 20), .birth accepting 2 ["oven"],
    .publishDeviceData accepting 3 "oven" (reading 21),
    .publishDeviceDataPayload accepting "oven" 4 (reading 22)]

theorem delivered_schedule_sequenced :
    ∃ t, Runs.run (step marshals) (initial plantConfig none) deliveredSchedule = some t ∧
      t.wire.map Message.seq = [some 0, some 1, some 2, some 3] ∧ Sequenced t.wire := by
  have hok : Runs.Meets (step marshals) (Delivered marshals) (initial plantConfig none)
      deliveredSchedule := by decide +kernel
  cases hrun : Runs.run (step marshals) (initial plantConfig none) deliveredSchedule with
  | none => exact absurd (congrArg Option.isSome hrun) (by decide)
  | some t =>
    refine ⟨t, rfl, ?_, delivered_runs_sequenced marshals plantConfig none _ t hrun hok⟩
    have hseq : (Runs.run (step marshals) (initial plantConfig none) deliveredSchedule).map
        (·.wire.map Message.seq) = some [some 0, some 1, some 2, some 3] := by decide
    rw [hrun, Option.map_some, Option.some.injEq] at hseq
    exact hseq

/-- The first DDATA after the birth is refused, the second is accepted. -/
def refusedSchedule : List (NodeAction ℚ ℚ) :=
  [.connect 1 none, .onConnect, .birth accepting 2 [],
    .publishDeviceData refusing 3 "oven" (reading 20),
    .publishDeviceData accepting 4 "oven" (reading 21)]

/-- A refused message leaves a gap: the DDATA after an NBIRTH with number 0
carries number 2. -/
theorem refused_not_sequenced :
    ¬ ∀ (marshal : PbPayload ℚ ℚ → Option String) (cfg : Config) (file : Option String)
      (as : List (NodeAction ℚ ℚ)) (t : System ℚ ℚ),
      Runs.run (step marshal) (initial cfg file) as = some t → Sequenced t.wire := by
  intro h
  cases hrun : Runs.run (step marshals) (initial plantConfig none) refusedSchedule with
  | none => exact absurd (congrArg Option.isSome hrun) (by decide)
  | some t =>
    have hwire : (Runs.run (step marshals) (initial plantConfig none) refusedSchedule).map
        (·.wire.map (fun m => (m.type, m.seq))) =
          some [(.nbirth, some 0), (.ddata "oven", some 2)] := by decide
    rw [hrun, Option.map_some, Option.some.injEq] at hwire
    obtain ⟨m, ms, hm, hmt, hms⟩ := List.map_eq_cons_iff.mp hwire
    obtain ⟨m', ms', hm', hmt', hnil⟩ := List.map_eq_cons_iff.mp hms
    rw [List.map_eq_nil_iff] at hnil
    simp only [Prod.mk.injEq] at hmt hmt'
    subst hnil
    have hfollows := h marshals plantConfig none refusedSchedule t hrun [m] m' []
      (by rw [hm, hm']; rfl)
    simp [Follows, hmt'.1, hmt'.2, lastSeq, hmt.2] at hfollows

end SparkplugSequence
