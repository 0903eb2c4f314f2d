import Mathlib.Data.List.Dedup
import Tentacle.BridgeSystem
import Tentacle.Histories

/-!
# Births before data

A DDATA may carry a metric only when a DBIRTH of its device has announced it
since the last NBIRTH. A variable is known from its first message on, but it is
announced by the birth that the message schedules; every later message for it
goes out, whether or not that birth has come. What is under way (in a handler,
in the buffer, in a batch) is safe when the metric is announced while the node
is born, and every birth under way will still announce it.
-/

namespace BirthBeforeData

open GoValues SparkplugPayload SparkplugNode MqttBridge StoreForward BridgeSystem
open Histories (Each each_snoc)

variable {F32 F64 : Type}

/-- A device and the name of one of its metrics. -/
abbrev Name := String × String

def names (deviceID : String) (metrics : List (Metric F32 F64)) : List Name :=
  metrics.map (fun x => (deviceID, x.name))

def announce (known : List Name) (m : Message F32 F64) : List Name :=
  match m.type with
  | .nbirth => []
  | .dbirth deviceID => known ++ names deviceID m.payload.metrics
  | _ => known

/-- What the DBIRTHs since the last NBIRTH have announced. -/
def announced (wire : List (Message F32 F64)) : List Name := wire.foldl announce []

/-- A DDATA carries only what the messages before it have announced. -/
def OnlyAnnounced (before : List (Message F32 F64)) (m : Message F32 F64) : Prop :=
  ∀ deviceID, m.type = .ddata deviceID →
    ∀ x ∈ names deviceID m.payload.metrics, x ∈ announced before

/-- The law of births before data. -/
def BirthsFirst (wire : List (Message F32 F64)) : Prop := Each OnlyAnnounced wire

/-- The metrics that a birth of the bridge's variables announces. -/
def trackedNames (br : Bridge F32 F64) : List Name :=
  br.plcVariables.entries.map (fun e => (reportedDevice br e.2.deviceID, e.2.id))

/-- The metrics that the node would announce now. -/
def nodeNames (n : Node F32 F64) : List Name :=
  n.deviceMetrics.entries.flatMap (fun e => names e.1 e.2)

/-- The goroutine hands the metric to the node before its birth. -/
def covers (x : Name) : List (BirthStep F32 F64) → Bool
  | [] => true
  | .birth :: _ => false
  | .buildDeviceMetrics :: _ => true
  | .setDeviceMetrics deviceID metrics :: rest => x ∈ names deviceID metrics || covers x rest
  | _ :: rest => covers x rest

/-- Every birth from now on announces the metric. -/
def WillAnnounce (s : System F32 F64) (x : Name) : Prop :=
  x ∈ nodeNames s.node ∨ (x ∈ trackedNames s.bridge ∧ ∀ p ∈ s.births, covers x p)

/-- A DDATA with the metric may go out now or later. -/
def Safe (s : System F32 F64) (x : Name) : Prop :=
  (s.node.state = .born → x ∈ announced s.wire) ∧ WillAnnounce s x

instance Safe.decidable (s : System F32 F64) (x : Name) : Decidable (Safe s x) := by
  unfold Safe WillAnnounce
  infer_instance

/-- The next section of the goroutine is the birth itself. -/
def birthIsNext (s : System F32 F64) (i : Nat) : Bool :=
  match s.births[i]? with
  | some (.birth :: _) => true
  | _ => false

/-- A message for a known variable is let through only when its metric is safe,
the DBIRTHs of a birth succeed, and no loaded variable takes the key of a
tracked variable of another name or device. -/
def Announces [GoFloats F32 F64] [GoFloat64 F64] (marshal : PbPayload F32 F64 → Option String)
    (s : System F32 F64) : BridgeAction F32 F64 → Prop
  | .receive msg nowMs =>
    considers s.bridge msg → ∀ pv ∈ s.bridge.plcVariables.lookup (msgKey msg),
      (checkRBE (updateVariable pv msg) msg nowMs).2 →
        Safe s (reportedDevice s.bridge msg.deviceID, pv.id)
  | .birthStep broker nowMs _ i =>
    birthIsNext s i → mayBirth s.node →
      accepts marshal broker .nbirth (nbirthPayload nowMs s.node) →
        ∀ deviceID ∈ s.node.deviceMetrics.keys, ∀ metrics ∈ s.node.deviceMetrics.lookup deviceID,
          Deliverable marshal broker (.dbirth deviceID) nowMs metrics
  | .loadVariables vars =>
    ∀ v ∈ vars,
      ∀ pv ∈ s.bridge.plcVariables.lookup (variableKey v.moduleID v.deviceID v.variableID),
        pv.deviceID = v.deviceID ∧ pv.id = v.variableID
  | _ => True

instance Announces.decidable [GoFloats F32 F64] [GoFloat64 F64]
    (marshal : PbPayload F32 F64 → Option String) (s : System F32 F64) :
    (a : BridgeAction F32 F64) → Decidable (Announces marshal s a)
  | .receive _ _ | .birthStep _ _ _ _ | .loadVariables _ => by unfold Announces; infer_instance
  | .checkSF _ | .checkNode _ | .buffer _ | .publish _ _ _ | .drain | .drainPublish _
  | .fireTimer | .rebirthCommand | .connect _ _ | .onConnect | .connectionLost
  | .disconnect _ _ | .processHostState _ _ _ | .stateChange _ | .reconcile _
  | .setEnabled _ => isTrue trivial

/-- The names of a message are those of its device and its metrics. -/
theorem mem_names {deviceID : String} {metrics : List (Metric F32 F64)} {x : Name} :
    x ∈ names deviceID metrics ↔ x.1 = deviceID ∧ ∃ m ∈ metrics, m.name = x.2 := by
  obtain ⟨d, name⟩ := x
  simp only [names, List.mem_map, Prod.mk.injEq]
  constructor
  · rintro ⟨m, hm, rfl, rfl⟩
    exact ⟨rfl, m, hm, rfl⟩
  · rintro ⟨rfl, m, hm, rfl⟩
    exact ⟨m, hm, rfl, rfl⟩

/-- A tracked name is a PLC variable under the device it is reported for. -/
theorem mem_trackedNames {br : Bridge F32 F64} {x : Name} :
    x ∈ trackedNames br ↔ ∃ key pv, br.plcVariables.lookup key = some pv ∧
      x = (reportedDevice br pv.deviceID, pv.id) := by
  simp only [trackedNames, List.mem_map]
  constructor
  · rintro ⟨⟨key, pv⟩, he, rfl⟩
    exact ⟨key, pv, (mem_entries_iff _ _ _).mp he, rfl⟩
  · rintro ⟨key, pv, hpv, rfl⟩
    exact ⟨⟨key, pv⟩, (mem_entries_iff _ _ _).mpr hpv, rfl⟩

/-- The node knows a name when it keeps a metric of it for the device. -/
theorem mem_nodeNames {n : Node F32 F64} {x : Name} :
    x ∈ nodeNames n ↔ ∃ metrics, n.deviceMetrics.lookup x.1 = some metrics ∧
      x ∈ names x.1 metrics := by
  simp only [nodeNames, List.mem_flatMap]
  constructor
  · rintro ⟨⟨deviceID, metrics⟩, he, hx⟩
    have hd := (mem_names.mp hx).1
    exact ⟨metrics, hd ▸ (mem_entries_iff _ _ _).mp he, hd ▸ hx⟩
  · rintro ⟨metrics, hlook, hx⟩
    exact ⟨⟨x.1, metrics⟩, (mem_entries_iff _ _ _).mpr hlook, hx⟩

theorem announced_append (wire more : List (Message F32 F64)) :
    announced (wire ++ more) = more.foldl announce (announced wire) := List.foldl_append

/-- Only an NBIRTH takes anything back. -/
theorem announced_grows {wire more : List (Message F32 F64)} (h : ∀ m ∈ more, m.type ≠ .nbirth)
    {x : Name} (hx : x ∈ announced wire) : x ∈ announced (wire ++ more) := by
  induction more generalizing wire with
  | nil => simpa using hx
  | cons m more ih =>
    rw [List.append_cons]
    apply ih (fun m' hm' => h m' (List.mem_cons_of_mem m hm'))
    rw [announced_append, List.foldl_cons, List.foldl_nil, announce]
    split
    · rename_i hn
      exact absurd hn (h m List.mem_cons_self)
    · exact List.mem_append_left _ hx
    · exact hx

/-- Messages other than DDATA keep the law. -/
theorem birthsFirst_append {wire more : List (Message F32 F64)} (hwire : BirthsFirst wire)
    (h : ∀ m ∈ more, ∀ deviceID, m.type ≠ .ddata deviceID) : BirthsFirst (wire ++ more) := by
  induction more generalizing wire with
  | nil => simpa using hwire
  | cons m more ih =>
    rw [List.append_cons]
    refine ih ?_ (fun m' hm' => h m' (List.mem_cons_of_mem m hm'))
    refine (each_snoc _ _ _).mpr ⟨hwire, ?_⟩
    intro deviceID hd
    exact absurd hd (h m List.mem_cons_self deviceID)

section Births

variable [GoFloats F32 F64] {marshal : PbPayload F32 F64 → Option String} {broker : Broker}

/-- When every DBIRTH succeeds, the loop announces all metrics of its devices. -/
theorem deviceBirths_announces {nowMs : Nat} {order : List String} {n : Node F32 F64}
    (hok : ∀ deviceID ∈ order, ∀ metrics ∈ n.deviceMetrics.lookup deviceID,
      Deliverable marshal broker (.dbirth deviceID) nowMs metrics)
    (known : List Name) {x : Name} (hx : x ∈ known ∨ x.1 ∈ order ∧ x ∈ nodeNames n) :
    x ∈ (deviceBirths marshal broker nowMs order n).2.foldl announce known := by
  induction order generalizing n known with
  | nil => simpa [deviceBirths] using hx
  | cons d order ih =>
    have hrest := fun e he => hok e (List.mem_cons_of_mem d he)
    cases hd : n.deviceMetrics.lookup d with
    | none =>
      simp only [deviceBirths, hd]
      refine ih hrest known (hx.imp_right ?_)
      rintro ⟨hmem, hnode⟩
      refine ⟨(List.mem_cons.mp hmem).resolve_left ?_, hnode⟩
      intro hxd
      obtain ⟨metrics, hlook, -⟩ := mem_nodeNames.mp hnode
      rw [hxd, hd] at hlook
      cases hlook
    | some metrics =>
      have hsent : (publishDeviceBirthLocked marshal broker nowMs d metrics n).2 =
          [⟨.dbirth d, (MessageType.dbirth d).topic n.config,
            { timestamp := nowMs, seq := (n.seq + 1) % 256, metrics := metrics }⟩] := by
        simp only [publishDeviceBirthLocked, publish_of_accepts (hok d List.mem_cons_self metrics hd
          ((n.seq + 1) % 256) (Nat.mod_lt _ (by decide)))]
        rfl
      simp only [deviceBirths, hd, hsent, List.foldl_append, List.foldl_cons, List.foldl_nil]
      apply ih (n := (publishDeviceBirthLocked marshal broker nowMs d metrics n).1) hrest _
      rcases hx with hx | ⟨hmem, hnode⟩
      · exact .inl (List.mem_append_left _ hx)
      · rcases List.mem_cons.mp hmem with hxd | hmem
        · obtain ⟨metrics', hlook, hnames⟩ := mem_nodeNames.mp hnode
          rw [hxd, hd, Option.some.injEq] at hlook
          rw [hxd, ← hlook] at hnames
          exact .inl (List.mem_append_right _ hnames)
        · exact .inr ⟨hmem, hnode⟩

end Births

def recordNames (r : BufferedRecord F32 F64) : List Name := names r.deviceID r.payload.metrics

@[simp] theorem recordNames_markHistorical (r : BufferedRecord F32 F64) :
    recordNames (markHistorical r) = recordNames r := by
  simp [recordNames, markHistorical, names, Function.comp_def]

/-- What is on its way out. -/
def pending (s : System F32 F64) : List Name :=
  s.handlers.map (fun h => (h.deviceID, h.metric.name)) ++ s.sf.records.flatMap recordNames ++
    s.batch.flatMap recordNames

theorem mem_pending {s : System F32 F64} {x : Name} :
    x ∈ pending s ↔ (∃ h ∈ s.handlers, x = (h.deviceID, h.metric.name)) ∨
      (∃ r ∈ s.sf.records, x ∈ recordNames r) ∨ ∃ r ∈ s.batch, x ∈ recordNames r := by
  simp only [pending, List.mem_append, List.mem_map, List.mem_flatMap, or_assoc, eq_comm]

/-- A handler that goes on adds no sample to those that are to be sent. -/
theorem setPhase_pending {s : System F32 F64} {i : Nat} {h : Handler F32 F64}
    (hi : s.handlers[i]? = some h) (phase : Phase) :
    ∀ x ∈ pending (setPhase s i h phase), x ∈ pending s := by
  intro x hx
  refine mem_pending.mpr ((mem_pending.mp hx).imp_left ?_)
  rintro ⟨h', hh', rfl⟩
  rcases List.mem_or_eq_of_mem_set hh' with hh' | rfl
  · exact ⟨h', hh', rfl⟩
  · exact ⟨h, List.mem_of_getElem? hi, rfl⟩

/-- A handler's metric is still pending in the buffer, evicted ones no more. -/
theorem buffer_pending {s : System F32 F64} {i : Nat} {h : Handler F32 F64}
    (hi : s.handlers[i]? = some h) :
    ∀ x ∈ pending { s with
      sf := buffer h.deviceID h.payload s.sf
      handlers := s.handlers.eraseIdx i }, x ∈ pending s := by
  obtain ⟨front, hsplit, -⟩ := evict_eq s.sf.maxCount s.sf.records
  intro x hx
  rw [mem_pending] at hx ⊢
  rcases hx with ⟨h', hh', hx⟩ | ⟨r, hr, hx⟩ | hx
  · exact .inl ⟨h', List.mem_of_mem_eraseIdx hh', hx⟩
  · simp only [buffer, List.mem_append, List.mem_singleton] at hr
    rcases hr with hr | rfl
    · exact .inr (.inl ⟨r, by rw [hsplit]; exact List.mem_append_right _ hr, hx⟩)
    · obtain ⟨hdev, m, hm, hname⟩ := mem_names.mp hx
      refine .inl ⟨h, List.mem_of_getElem? hi, Prod.ext hdev ?_⟩
      simp only [Handler.payload, List.mem_singleton] at hm
      exact hm ▸ hname.symm
  · exact .inr (.inr hx)

/-- A drain moves samples from the queue to the batch and adds none. -/
theorem drain_pending (s : System F32 F64) :
    ∀ x ∈ pending { s with sf := (drain s.sf).1, batch := (drain s.sf).2 }, x ∈ pending s := by
  obtain ⟨front, hfront, hsplit, -⟩ := drain_records s.sf
  intro x hx
  rw [mem_pending] at hx ⊢
  rcases hx with hx | ⟨r, hr, hx⟩ | ⟨r, hr, hx⟩
  · exact .inl hx
  · exact .inr (.inl ⟨r, by rw [hsplit]; exact List.mem_append_right _ hr, hx⟩)
  · rw [hfront] at hr
    obtain ⟨r', hr', rfl⟩ := List.mem_map.mp hr
    rw [recordNames_markHistorical] at hx
    exact .inr (.inl ⟨r', by rw [hsplit]; exact List.mem_append_left _ hr', hx⟩)

/-- The goroutine hands over no metrics before it has built them itself. -/
def Unbuilt (p : List (BirthStep F32 F64)) : Prop :=
  (∀ x, covers x p = true) ∧ ∀ deviceID metrics, .setDeviceMetrics deviceID metrics ∉ p

/-- The law, with what keeps it: the node and the goroutines that hand it
metrics know the tracked variables, and whatever is pending is safe. -/
structure Orderly (s : System F32 F64) : Prop where
  law : BirthsFirst s.wire
  node : ∀ x ∈ nodeNames s.node, x ∈ trackedNames s.bridge
  sets : ∀ p ∈ s.births, ∀ deviceID metrics, .setDeviceMetrics deviceID metrics ∈ p →
    ∀ x : Name, x ∈ names deviceID metrics ↔ x.1 = deviceID ∧ x ∈ trackedNames s.bridge
  safe : ∀ x ∈ pending s, Safe s x

theorem initial_orderly (cfg : Settings) (file : Option String) :
    Orderly (initial cfg file : System F32 F64) :=
  ⟨Histories.each_nil _, nofun, nofun, nofun⟩

theorem Safe.mono {s t : System F32 F64} {x : Name} (h : Safe s x)
    (hborn : t.node.state = .born → s.node.state = .born)
    (hwire : x ∈ announced s.wire → x ∈ announced t.wire)
    (hwill : WillAnnounce s x → WillAnnounce t x) : Safe t x :=
  ⟨fun ht => hwire (h.1 (hborn ht)), hwill h.2⟩

/-- New goroutines build before their birth, and known names stay known. -/
theorem WillAnnounce.mono {s t : System F32 F64} {x : Name} (h : WillAnnounce s x)
    (hnode : x ∈ nodeNames s.node → x ∈ nodeNames t.node)
    (htracked : x ∈ trackedNames s.bridge → x ∈ trackedNames t.bridge)
    (hbirths : ∀ p ∈ t.births, p ∈ s.births ∨ covers x p = true) : WillAnnounce t x := by
  rcases h with h | ⟨htr, hcov⟩
  · exact .inl (hnode h)
  · refine .inr ⟨htracked htr, ?_⟩
    intro p hp
    rcases hbirths p hp with hp | hp
    · exact hcov p hp
    · exact hp

/-- A step that only starts births, ends the node's session, and moves or drops
what is pending. -/
theorem Orderly.frame {s t : System F32 F64} (h : Orderly s) (hlaw : BirthsFirst t.wire)
    (hwire : ∀ x ∈ announced s.wire, x ∈ announced t.wire)
    (hborn : t.node.state = .born → s.node.state = .born)
    (hmetrics : t.node.deviceMetrics = s.node.deviceMetrics)
    (htracked : trackedNames t.bridge = trackedNames s.bridge)
    (hbirths : ∀ p ∈ t.births, p ∈ s.births ∨ Unbuilt p)
    (hpending : ∀ x ∈ pending t, x ∈ pending s) : Orderly t := by
  have hnames : nodeNames t.node = nodeNames s.node := by simp only [nodeNames, hmetrics]
  refine ⟨hlaw, ?_, ?_, ?_⟩
  · rw [hnames, htracked]
    exact h.node
  · rw [htracked]
    intro p hp deviceID metrics hset
    rcases hbirths p hp with hp | hp
    · exact h.sets p hp deviceID metrics hset
    · exact absurd hset (hp.2 deviceID metrics)
  · intro x hx
    refine (h.safe x (hpending x hx)).mono hborn (hwire x) (fun hw => ?_)
    apply hw.mono (by rw [hnames]; exact id) (by rw [htracked]; exact id)
    exact fun p hp => (hbirths p hp).imp_right (fun hu => hu.1 x)

theorem birthProgram_unbuilt : Unbuilt (birthProgram : List (BirthStep F32 F64)) :=
  ⟨fun _ => rfl, by simp [birthProgram]⟩

theorem rebirthProgram_unbuilt : Unbuilt (rebirthProgram : List (BirthStep F32 F64)) :=
  ⟨fun _ => rfl, by simp [rebirthProgram, birthProgram]⟩

theorem timerProgram_unbuilt :
    Unbuilt (.updateNodeMetrics :: rebirthProgram : List (BirthStep F32 F64)) :=
  ⟨fun _ => rfl, by simp [rebirthProgram, birthProgram]⟩

/-- One more goroutine that has yet to build. -/
theorem mem_append_unbuilt {births : List (List (BirthStep F32 F64))}
    {q : List (BirthStep F32 F64)} (hq : Unbuilt q) :
    ∀ p ∈ births ++ [q], p ∈ births ∨ Unbuilt p := by
  intro p hp
  rcases List.mem_append.mp hp with hp | hp
  · exact .inl hp
  · exact .inr (List.mem_singleton.mp hp ▸ hq)

/-- A pending metric goes out: its node is born, so the metric is announced. -/
theorem ddata_birthsFirst {s : System F32 F64} (h : Orderly s) (hborn : s.node.state = .born)
    {deviceID topic : String} {p : Payload F32 F64}
    (hp : ∀ x ∈ names deviceID p.metrics, x ∈ pending s) :
    BirthsFirst (s.wire ++ [⟨.ddata deviceID, topic, p⟩]) := by
  refine (each_snoc _ _ _).mpr ⟨h.law, ?_⟩
  rintro d ⟨⟩ x hx
  exact (h.safe x (hp x hx)).1 hborn

/-- Without a goroutine that holds the read lock no metrics are being handed over. -/
theorem not_mem_of_unlocked {s : System F32 F64} (h : ¬ Locked s) {p : List (BirthStep F32 F64)}
    (hp : p ∈ s.births) (deviceID : String) (metrics : List (Metric F32 F64)) :
    .setDeviceMetrics deviceID metrics ∉ p :=
  fun hset => h ⟨p, hp, _, hset, rfl⟩

/-- Variables that keep their names and devices stay tracked. -/
theorem trackedNames_mono {br br' : Bridge F32 F64} (hmodule : br'.moduleID = br.moduleID)
    (h : ∀ key pv, br.plcVariables.lookup key = some pv →
      ∃ pv', br'.plcVariables.lookup key = some pv' ∧ pv'.id = pv.id ∧ pv'.deviceID = pv.deviceID) :
    ∀ x ∈ trackedNames br, x ∈ trackedNames br' := by
  intro x hx
  obtain ⟨key, pv, hpv, rfl⟩ := mem_trackedNames.mp hx
  obtain ⟨pv', hpv', hid, hdev⟩ := h key pv hpv
  refine mem_trackedNames.mpr ⟨key, pv', hpv', ?_⟩
  simp only [reportedDevice, hmodule, hid, hdev]

theorem trackedNames_resetRBEStates (br : Bridge F32 F64) :
    trackedNames (resetRBEStates br) = trackedNames br := by
  simp only [trackedNames, resetRBEStates, mapValues, List.map_map]
  rfl

/-- A step that learns of variables while no goroutine holds the read lock. -/
theorem Orderly.learn {s t : System F32 F64} (h : Orderly s) (hlocked : ¬ Locked s)
    (hwire : t.wire = s.wire) (hnode : t.node = s.node)
    (htracked : ∀ x ∈ trackedNames s.bridge, x ∈ trackedNames t.bridge)
    (hbirths : ∀ p ∈ t.births, p ∈ s.births ∨ Unbuilt p)
    (hpending : ∀ x ∈ pending t, x ∈ pending s ∨ Safe s x) : Orderly t := by
  refine ⟨hwire ▸ h.law, ?_, ?_, ?_⟩
  · rw [hnode]
    exact fun x hx => htracked x (h.node x hx)
  · intro p hp deviceID metrics hset
    rcases hbirths p hp with hp | hp
    · exact absurd hset (not_mem_of_unlocked hlocked hp deviceID metrics)
    · exact absurd hset (hp.2 deviceID metrics)
  · intro x hx
    have hsafe : Safe s x := (hpending x hx).elim (h.safe x) id
    refine hsafe.mono (by rw [hnode]; exact id) (by rw [hwire]; exact id) (fun hw => ?_)
    apply hw.mono (by rw [hnode]; exact id) (htracked x)
    exact fun p hp => (hbirths p hp).imp_right (fun hu => hu.1 x)

/-- A goroutine goes on from `p` to `q`. -/
theorem Orderly.advance {s t : System F32 F64} (h : Orderly s) {i : Nat}
    {p q : List (BirthStep F32 F64)} (hi : s.births[i]? = some p)
    (hbirths : t.births = s.births.set i q) (hlaw : BirthsFirst t.wire)
    (hborn : ∀ x, Safe s x → t.node.state = .born → x ∈ announced t.wire)
    (hnode : ∀ x ∈ nodeNames s.node, x ∈ nodeNames t.node)
    (hknown : ∀ x ∈ nodeNames t.node, x ∈ trackedNames s.bridge)
    (htracked : trackedNames t.bridge = trackedNames s.bridge)
    (hcovers : ∀ x ∈ trackedNames s.bridge, covers x p = true →
      covers x q = true ∨ x ∈ nodeNames t.node)
    (hsets : ∀ deviceID metrics, .setDeviceMetrics deviceID metrics ∈ q →
      .setDeviceMetrics deviceID metrics ∈ p ∨
        ∀ x : Name, x ∈ names deviceID metrics ↔ x.1 = deviceID ∧ x ∈ trackedNames s.bridge)
    (hpending : pending t = pending s) : Orderly t := by
  have hmem : p ∈ s.births := List.mem_of_getElem? hi
  have hcases : ∀ r ∈ t.births, r ∈ s.births ∨ r = q := by
    rw [hbirths]
    exact fun r hr => List.mem_or_eq_of_mem_set hr
  refine ⟨hlaw, by rw [htracked]; exact hknown, ?_, ?_⟩
  · rw [htracked]
    intro r hr deviceID metrics hset
    rcases hcases r hr with hr | rfl
    · exact h.sets r hr deviceID metrics hset
    · rcases hsets deviceID metrics hset with hset | heq
      · exact h.sets p hmem deviceID metrics hset
      · exact heq
  · rw [hpending]
    intro x hx
    have hsafe := h.safe x hx
    refine ⟨hborn x hsafe, ?_⟩
    rcases hsafe.2 with hn | ⟨htr, hcov⟩
    · exact .inl (hnode x hn)
    · rcases hcovers x htr (hcov p hmem) with hq | hn
      · refine .inr ⟨by rw [htracked]; exact htr, ?_⟩
        intro r hr
        rcases hcases r hr with hr | rfl
        · exact hcov r hr
        · exact hq
      · exact .inl hn

/-- A load replaces tracked variables by ones of the same name and device. -/
theorem foldl_loadVariable_tracked {br : Bridge F32 F64} {vars : List (VariableInfo F64)}
    (hok : ∀ v ∈ vars,
      ∀ pv ∈ br.plcVariables.lookup (variableKey v.moduleID v.deviceID v.variableID),
        pv.deviceID = v.deviceID ∧ pv.id = v.variableID) :
    ∀ x ∈ trackedNames br, x ∈ trackedNames (vars.foldl loadVariable br) := by
  -- the induction compares every state of the loop with the bridge before it
  have hloop : ∀ (vars' : List (VariableInfo F64)) (br' : Bridge F32 F64), vars' ⊆ vars →
      br'.moduleID = br.moduleID →
      (∀ key pv, br.plcVariables.lookup key = some pv →
        ∃ pv', br'.plcVariables.lookup key = some pv' ∧
          pv'.id = pv.id ∧ pv'.deviceID = pv.deviceID) →
      ∀ x ∈ trackedNames br, x ∈ trackedNames (vars'.foldl loadVariable br') := by
    intro vars'
    induction vars' with
    | nil => exact fun br' _ hmod hvars => trackedNames_mono hmod hvars
    | cons v vars' ih =>
      intro br' hsub hmod hvars
      refine ih (loadVariable br' v) (fun w hw => hsub (List.mem_cons_of_mem v hw))
        ((loadVariable_moduleID br' v).trans hmod) ?_
      intro key pv hpv
      rw [loadVariable_plcVariables]
      by_cases hk : key = variableKey v.moduleID v.deviceID v.variableID
      · obtain ⟨hdev, hid⟩ := hok v (hsub List.mem_cons_self) pv (hk ▸ hpv)
        exact ⟨loadedVariable v, hk ▸ AList.lookup_insert _, hid.symm, hdev.symm⟩
      · rw [AList.lookup_insert_ne hk]
        exact hvars key pv hpv
  exact hloop vars br (List.Subset.refl _) rfl (fun key pv hpv => ⟨pv, hpv, rfl, rfl⟩)

/-- The variables, in whatever order they are taken. -/
theorem mem_ordered {br : Bridge F32 F64} {order : List String}
    (horder : order.Perm br.plcVariables.keys) {pv : PlcVariable F64} :
    pv ∈ order.filterMap br.plcVariables.lookup ↔ ∃ key, br.plcVariables.lookup key = some pv := by
  rw [List.mem_filterMap]
  constructor
  · rintro ⟨key, -, hpv⟩
    exact ⟨key, hpv⟩
  · rintro ⟨key, hpv⟩
    refine ⟨key, horder.mem_iff.mpr ?_, hpv⟩
    exact AList.mem_keys.mp (AList.lookup_isSome.mp (by rw [hpv]; rfl))

/-- The birth that is to come announces what its groups hold. -/
theorem covers_sets {x : Name} {groups : List (String × List (Metric F32 F64))}
    {rest : List (BirthStep F32 F64)} (h : ∃ g ∈ groups, x ∈ names g.1 g.2) :
    covers x (groups.map (fun g => .setDeviceMetrics g.1 g.2) ++ rest) = true := by
  induction groups with
  | nil => simp at h
  | cons g groups ih =>
    simp only [List.map_cons, List.cons_append, covers, Bool.or_eq_true, decide_eq_true_eq]
    obtain ⟨g', hg', hx⟩ := h
    rcases List.mem_cons.mp hg' with rfl | hg'
    · exact .inl hx
    · exact .inr (ih ⟨g', hg', hx⟩)

/-- A section that hands nothing to the node: births are announced at most. -/
theorem Orderly.pass {s t : System F32 F64} (h : Orderly s) {i : Nat} {c : BirthStep F32 F64}
    {rest : List (BirthStep F32 F64)} {sent : List (Message F32 F64)}
    (hi : s.births[i]? = some (c :: rest)) (hc : ∀ x, covers x (c :: rest) = covers x rest)
    (hbirths : t.births = s.births.set i rest) (hwire : t.wire = s.wire ++ sent)
    (hsent : ∀ m ∈ sent, ∃ deviceID, m.type = .dbirth deviceID)
    (hborn : t.node.state = .born → s.node.state = .born)
    (hmetrics : t.node.deviceMetrics = s.node.deviceMetrics)
    (htracked : trackedNames t.bridge = trackedNames s.bridge) (hpending : pending t = pending s) :
    Orderly t := by
  have hnames : nodeNames t.node = nodeNames s.node := by simp only [nodeNames, hmetrics]
  refine h.advance hi hbirths ?_ ?_ (by rw [hnames]; exact fun _ hx => hx)
    (by rw [hnames]; exact h.node) htracked (fun x _ hx => .inl (by rwa [hc] at hx))
    (fun d ms hset => .inl (List.mem_cons_of_mem c hset)) hpending
  · rw [hwire]
    refine birthsFirst_append h.law (fun m hm deviceID => ?_)
    obtain ⟨d, hd⟩ := hsent m hm
    rw [hd]
    exact nofun
  · intro x hsafe ht
    rw [hwire]
    refine announced_grows (fun m hm => ?_) (hsafe.1 (hborn ht))
    obtain ⟨d, hd⟩ := hsent m hm
    rw [hd]
    exact nofun

/-- A step of a reconcile publishes nothing, and a birth that it starts is not yet built. -/
theorem reconcileStep_orderly {s t : System F32 F64} (h : Orderly s) {i : Nat} {r : Reconcile}
    (ht : reconcileStep s i r = some t) : Orderly t := by
  cases r with
  | setHost online after =>
    simp only [reconcileStep] at ht
    split at ht <;> cases ht
    exact h.frame h.law (fun _ hx => hx) id rfl rfl (fun p hp => .inl hp) (fun _ hx => hx)
  | readNode after | readHost nodeBorn after =>
    cases ht
    exact h.frame h.law (fun _ hx => hx) id rfl rfl (fun p hp => .inl hp) (fun _ hx => hx)
  | apply nodeBorn hostOnline after =>
    cases ht
    refine h.frame h.law (fun _ hx => hx) id rfl rfl ?_ ?_
    · dsimp only
      split
      · exact mem_append_unbuilt birthProgram_unbuilt
      · exact fun p hp => .inl hp
    · have hrecords : (if nodeBorn && hostOnline then setOnline s.sf else setOffline s.sf).records =
          s.sf.records := by
        split <;> simp
      simp only [pending, hrecords]
      exact fun _ hx => hx

section Data

variable [GoFloats F32 F64] {marshal : PbPayload F32 F64 → Option String}

/-- A DDATA of something pending, or the failure of one, and the rest of what
was pending. -/
theorem ddata_orderly {s t : System F32 F64} (h : Orderly s) {broker : Broker} {config : Config}
    {wrap : String → String} {deviceID : String} {p : Payload F32 F64}
    (hborn : s.node.state = .born) (hp : ∀ x ∈ names deviceID p.metrics, x ∈ pending s)
    (hwire : t.wire = s.wire ++
      (publish marshal broker config wrap (.ddata deviceID) p).toOption.toList)
    (hnode : t.node = { s.node with seq := (s.node.seq + 1) % 256 })
    (hbridge : t.bridge = s.bridge) (hbirths : t.births = s.births)
    (hpending : ∀ x ∈ pending t, x ∈ pending s) : Orderly t := by
  have hsent : ∀ m ∈ (publish marshal broker config wrap (.ddata deviceID) p).toOption.toList,
      m.type ≠ .nbirth := by
    intro m hm
    rw [mem_published hm]
    exact nofun
  refine h.frame ?_ (fun x hx => by rw [hwire]; exact announced_grows hsent hx)
    (fun _ => hborn) (by rw [hnode]) (by rw [hbridge]) (fun p hp => .inl (hbirths ▸ hp)) hpending
  rw [hwire]
  cases hr : publish marshal broker config wrap (.ddata deviceID) p with
  | error e => simpa [Except.toOption] using h.law
  | ok m =>
    obtain ⟨-, rfl⟩ := accepts_of_publish hr
    exact ddata_birthsFirst h hborn hp

end Data

section Steps

variable [GoFloats F32 F64] [GoFloat64 F64] {marshal : PbPayload F32 F64 → Option String}

/-- A message that starts its handler outside a birth keeps the order. -/
theorem receive_orderly {s : System F32 F64} (h : Orderly s) (hlocked : ¬ Locked s)
    {msg : PlcDataMessage F64} {nowMs : Nat} (hok : Announces marshal s (.receive msg nowMs)) :
    Orderly (receive s msg nowMs) := by
  rcases handleDataMessage_cases msg nowMs s.bridge with
    heq | ⟨hc, ⟨pv', hvars, hsame⟩, hmod, hsend⟩
  · simpa only [receive, heq] using h
  · have htracked : ∀ x ∈ trackedNames s.bridge,
        x ∈ trackedNames (handleDataMessage msg nowMs s.bridge).1 := by
      apply trackedNames_mono hmod
      intro key pv hpv
      rw [hvars]
      by_cases hk : key = msgKey msg
      · subst hk
        exact ⟨pv', AList.lookup_insert _, hsame pv hpv⟩
      · exact ⟨pv, by rw [AList.lookup_insert_ne hk, hpv], rfl, rfl⟩
    unfold receive
    split
    · rename_i br deviceID metric heq
      rw [heq] at htracked hsend
      obtain ⟨pv, hpv, hpass, rfl, hname⟩ := hsend _ _ rfl
      have hsafe := hok hc pv hpv hpass
      refine h.learn hlocked rfl rfl htracked (fun p hp => .inl hp) ?_
      intro x hx
      simp only [pending, List.map_append, List.map_cons, List.map_nil, List.mem_append,
        List.mem_singleton] at hx ⊢
      rcases hx with ((hx | rfl) | hx) | hx
      · exact .inl (.inl (.inl hx))
      · exact .inr (by rw [hname]; exact hsafe)
      · exact .inl (.inl (.inr hx))
      · exact .inl (.inr hx)
    · rename_i br _ _ heq
      rw [heq] at htracked
      exact h.learn hlocked rfl rfl htracked (fun p hp => .inl hp) (fun x hx => .inl hx)

/-- A build hands over exactly the tracked metrics, each with its device. -/
theorem byDevice_names {br : Bridge F32 F64} {order : List String}
    (horder : order.Perm br.plcVariables.keys) {nowMs : Nat} {g : String × List (Metric F32 F64)}
    (hg : g ∈ byDevice br (order.filterMap br.plcVariables.lookup) nowMs) (x : Name) :
    x ∈ names g.1 g.2 ↔ x.1 = g.1 ∧ x ∈ trackedNames br := by
  obtain ⟨deviceID, -, rfl⟩ := List.mem_map.mp hg
  rw [mem_names, mem_trackedNames]
  refine and_congr_right (fun hx => ?_)
  simp only [List.mem_map, List.mem_filter, decide_eq_true_eq, mem_ordered horder]
  constructor
  · rintro ⟨m, ⟨pv, ⟨⟨key, hpv⟩, hdev⟩, rfl⟩, hname⟩
    rw [valueToMetric_name] at hname
    exact ⟨key, pv, hpv, Prod.ext (hx.trans hdev.symm) hname.symm⟩
  · rintro ⟨key, pv, hpv, rfl⟩
    exact ⟨_, ⟨pv, ⟨⟨key, hpv⟩, hx⟩, rfl⟩, valueToMetric_name _ _ _ _⟩

/-- Every tracked metric is in the part of its device. -/
theorem byDevice_covers {br : Bridge F32 F64} {order : List String}
    (horder : order.Perm br.plcVariables.keys) {nowMs : Nat} {x : Name} (hx : x ∈ trackedNames br) :
    ∃ g ∈ (byDevice br (order.filterMap br.plcVariables.lookup) nowMs :
      List (String × List (Metric F32 F64))), x ∈ names g.1 g.2 := by
  obtain ⟨key, pv, hpv, hxpv⟩ := mem_trackedNames.mp hx
  have hdev : x.1 ∈ ((order.filterMap br.plcVariables.lookup).map
      (fun pv => reportedDevice br pv.deviceID)).dedup := by
    rw [List.mem_dedup, List.mem_map]
    exact ⟨pv, (mem_ordered horder).mpr ⟨key, hpv⟩, (congrArg Prod.fst hxpv).symm⟩
  have hg := List.mem_map_of_mem (f := fun deviceID =>
    (deviceID, ((order.filterMap br.plcVariables.lookup).filter
      (fun pv => reportedDevice br pv.deviceID = deviceID)).map
        (fun pv => (valueToMetric br.useTemplates pv pv.value nowMs : Metric F32 F64)))) hdev
  exact ⟨_, hg, (byDevice_names horder hg x).mpr ⟨rfl, hx⟩⟩

/-- The node takes over the metrics of one device. -/
theorem setDeviceMetrics_orderly {s t : System F32 F64} (h : Orderly s) {i : Nat}
    {deviceID : String} {metrics : List (Metric F32 F64)} {rest : List (BirthStep F32 F64)}
    {broker : Broker} {nowMs : Nat} {order : List String}
    (hi : s.births[i]? = some (.setDeviceMetrics deviceID metrics :: rest))
    (ht : birthStep marshal s broker nowMs order i rest (.setDeviceMetrics deviceID metrics) =
      some t) : Orderly t := by
  have hset := h.sets _ (List.mem_of_getElem? hi) deviceID metrics List.mem_cons_self
  cases ht
  have hnew : ∀ x : Name, x ∈ nodeNames (setDeviceMetrics deviceID metrics s.node).1 ↔
      x ∈ names deviceID metrics ∨ (x.1 ≠ deviceID ∧ x ∈ nodeNames s.node) := by
    intro x
    simp only [mem_nodeNames, setDeviceMetrics]
    by_cases hx : x.1 = deviceID
    · subst hx
      simp
    · have hnot : x ∉ names deviceID metrics := fun hmem => hx (mem_names.mp hmem).1
      simp [hx, hnot, AList.lookup_insert_ne hx]
  refine h.advance hi rfl h.law (fun x hsafe hborn => hsafe.1 hborn) ?_ ?_ rfl ?_ ?_ rfl
  · intro x hx
    apply (hnew x).mpr
    by_cases hd : x.1 = deviceID
    · exact .inl ((hset x).mpr ⟨hd, h.node x hx⟩)
    · exact .inr ⟨hd, hx⟩
  · intro x hx
    rcases (hnew x).mp hx with hx | ⟨-, hx⟩
    · exact ((hset x).mp hx).2
    · exact h.node x hx
  · intro x hx hcov
    simp only [covers, Bool.or_eq_true, decide_eq_true_eq] at hcov
    rcases hcov with hx | hcov
    · exact .inr ((hnew x).mpr (.inl hx))
    · left
      split <;> exact hcov
  · intro d ms hmem
    left
    split at hmem
    · exact List.mem_cons_of_mem _ ((List.mem_cons.mp hmem).resolve_left nofun)
    · exact List.mem_cons_of_mem _ hmem

/-- The birth itself: whatever is pending is in the node by now. -/
theorem birth_orderly {s t : System F32 F64} (h : Orderly s) {i : Nat}
    {rest : List (BirthStep F32 F64)} {broker : Broker} {nowMs : Nat} {order : List String}
    (hi : s.births[i]? = some (.birth :: rest))
    (hok : Announces marshal s (.birthStep broker nowMs order i))
    (ht : birthStep marshal s broker nowMs order i rest .birth = some t) : Orderly t := by
  simp only [birthStep] at ht
  split at ht
  · rename_i horder
    have hnext : birthIsNext s i = true := by simp [birthIsNext, hi]
    -- no goroutine at its birth covers a metric, so a safe metric is in the node
    have hnode : ∀ x, Safe s x → x ∈ nodeNames s.node := by
      rintro x ⟨-, hx | ⟨-, hcov⟩⟩
      · exact hx
      · exact absurd (hcov _ (List.mem_of_getElem? hi)) nofun
    rcases birth_cases marshal broker nowMs order s.node with
      ⟨-, heq⟩ | ⟨-, -, heq⟩ | ⟨hmay, hsend, heq⟩
    · rw [heq] at ht
      cases ht
      exact h.advance hi rfl (by simpa using h.law)
        (fun x hsafe hborn => by simpa using hsafe.1 hborn) (fun _ hx => hx) h.node rfl nofun
        (fun d ms hset => .inl (List.mem_cons_of_mem _ hset)) rfl
    · rw [heq] at ht
      cases ht
      exact h.advance hi rfl (by simpa using h.law)
        (fun x hsafe hborn => by simpa using hsafe.1 hborn) (fun _ hx => hx) h.node rfl nofun
        (fun d ms hset => .inl (List.mem_cons_of_mem _ hset)) rfl
    · have hmem := fun m => @birth_not_ddata _ _ _ marshal broker nowMs order s.node m
      obtain ⟨seq, hfst⟩ := @deviceBirths_fst _ _ _ marshal broker nowMs order (bornNode s.node)
      have hnames : nodeNames (deviceBirths marshal broker nowMs order (bornNode s.node)).1 =
          nodeNames s.node := by
        simp only [nodeNames, hfst, bornNode_deviceMetrics]
      rw [heq] at ht hmem
      cases ht
      refine h.advance hi rfl (birthsFirst_append h.law (fun m hm => hmem m hm)) ?_
        (by rw [hnames]; exact fun _ hx => hx) (by rw [hnames]; exact h.node) rfl nofun
        (fun d ms hset => .inl (List.mem_cons_of_mem _ hset)) rfl
      intro x hsafe _
      have hx := hnode x hsafe
      obtain ⟨metrics, hlook, -⟩ := mem_nodeNames.mp hx
      have hkey : x.1 ∈ order :=
        horder.mem_iff.mpr (AList.mem_keys.mp (AList.lookup_isSome.mp (by rw [hlook]; rfl)))
      have hdeliver := hok hnext hmay hsend
      rw [announced_append, List.foldl_cons]
      refine deviceBirths_announces ?_ _ (.inr ⟨hkey, ?_⟩)
      · intro deviceID hd ms hms
        exact hdeliver deviceID (horder.mem_iff.mp hd) ms (by simpa using hms)
      · simpa only [nodeNames, bornNode_deviceMetrics] using hx
  · cases ht

/-- A step of a birth either sets metrics that it goes on to announce or publishes them. -/
theorem birthStep_orderly {s t : System F32 F64} (h : Orderly s) {i : Nat}
    {c : BirthStep F32 F64} {rest : List (BirthStep F32 F64)} {broker : Broker} {nowMs : Nat}
    {order : List String} (hi : s.births[i]? = some (c :: rest))
    (hok : Announces marshal s (.birthStep broker nowMs order i))
    (ht : birthStep marshal s broker nowMs order i rest c = some t) : Orderly t := by
  cases c with
  | updateNodeMetrics =>
    cases ht
    exact h.pass hi (fun _ => rfl) rfl (List.append_nil _).symm (by simp) id rfl rfl rfl
  | markDead =>
    cases ht
    exact h.pass hi (fun _ => rfl) rfl (List.append_nil _).symm (by simp) (by simp [markDead])
      (by simp [markDead]) rfl rfl
  | buildDeviceMetrics =>
    simp only [birthStep] at ht
    split at ht
    · rename_i horder
      cases ht
      refine h.advance hi rfl h.law (fun x hsafe hborn => hsafe.1 hborn) (fun _ hx => hx) h.node rfl
        (fun x hx _ => .inl (covers_sets (byDevice_covers horder hx))) ?_ rfl
      intro deviceID metrics hset
      rcases List.mem_append.mp hset with hset | hset
      · obtain ⟨g, hg, heq⟩ := List.mem_map.mp hset
        cases heq
        exact .inr (byDevice_names horder hg)
      · exact .inl (List.mem_cons_of_mem _ hset)
    · cases ht
  | setDeviceMetrics deviceID metrics => exact setDeviceMetrics_orderly h hi ht
  | publishDeviceBirth deviceID =>
    rcases publishDeviceBirth_cases marshal broker nowMs deviceID s.node with
      heq | ⟨metrics, -, -, heq⟩
    · simp only [birthStep, heq] at ht
      cases ht
      exact h.pass hi (fun _ => rfl) rfl rfl (by simp) id rfl rfl rfl
    · simp only [birthStep, heq] at ht
      cases ht
      exact h.pass hi (fun _ => rfl) rfl rfl
        (fun m hm => ⟨deviceID, (publishDeviceBirthLocked_mem hm).1⟩) id rfl rfl rfl
  | resetRBEStates =>
    simp only [birthStep] at ht
    split at ht
    · cases ht
    · cases ht
      exact h.pass hi (fun _ => rfl) rfl (List.append_nil _).symm (by simp) id rfl
        (trackedNames_resetRBEStates s.bridge) rfl
  | birth => exact birth_orderly h hi hok ht

/-- Each step whose condition holds keeps the order of births and data. -/
theorem step_orderly {s t : System F32 F64} {a : BridgeAction F32 F64} (h : Orderly s)
    (hok : Announces marshal s a) (ht : step marshal s a = some t) : Orderly t := by
  cases a with
  | receive msg nowMs =>
    simp only [step] at ht
    split at ht
    · cases ht
    · rename_i hlocked
      cases ht
      exact receive_orderly h hlocked hok
  | checkSF i | checkNode i =>
    simp only [step] at ht
    split at ht <;> [split at ht; skip] <;> cases ht
    rename_i hd hi _
    exact h.frame h.law (fun _ hx => hx) id rfl rfl (fun p hp => .inl hp) (setPhase_pending hi _)
  | buffer i =>
    simp only [step] at ht
    split at ht <;> [split at ht; skip] <;> cases ht
    rename_i hd hi _
    exact h.frame h.law (fun _ hx => hx) id rfl rfl (fun p hp => .inl hp) (buffer_pending hi)
  | publish broker nowMs i =>
    simp only [step] at ht
    split at ht <;> [split at ht; skip]
    · rename_i hd hi _
      have hpending : ∀ t : System F32 F64, t.handlers = s.handlers.eraseIdx i → t.sf = s.sf →
          t.batch = s.batch → ∀ x ∈ pending t, x ∈ pending s := by
        intro t hhandlers hsf hbatch x hx
        rw [mem_pending, hhandlers, hsf, hbatch] at hx
        exact mem_pending.mpr (hx.imp_left (fun ⟨h', hh', hx⟩ =>
          ⟨h', List.mem_of_mem_eraseIdx hh', hx⟩))
      rcases publishDeviceData_cases marshal broker nowMs hd.deviceID [hd.metric] s.node with
        ⟨-, heq⟩ | ⟨hmay, heq⟩
      · rw [heq] at ht
        cases ht
        exact h.frame (by simpa [Except.toOption] using h.law)
          (fun x hx => by simpa [Except.toOption] using hx) id rfl rfl (fun p hp => .inl hp)
          (hpending _ rfl rfl rfl)
      · rw [heq] at ht
        cases ht
        refine ddata_orderly h (mayPublish_born hmay) ?_ rfl rfl rfl rfl (hpending _ rfl rfl rfl)
        intro x hx
        obtain ⟨hdev, m, hm, hname⟩ := mem_names.mp hx
        rw [List.mem_singleton] at hm
        exact mem_pending.mpr (.inl ⟨hd, List.mem_of_getElem? hi,
          Prod.ext hdev (hm ▸ hname.symm)⟩)
    · cases ht
    · cases ht
  | drain =>
    simp only [step] at ht
    split at ht <;> cases ht
    exact h.frame h.law (fun _ hx => hx) id rfl rfl (fun p hp => .inl hp) (drain_pending s)
  | drainPublish broker =>
    simp only [step] at ht
    split at ht
    · cases ht
    · rename_i r rest hbatch
      have hpending : ∀ t : System F32 F64, t.handlers = s.handlers → t.sf = s.sf →
          t.batch = rest → ∀ x ∈ pending t, x ∈ pending s := by
        intro t hhandlers hsf hrest x hx
        rw [mem_pending, hhandlers, hsf, hrest] at hx
        refine mem_pending.mpr (hx.imp_right (Or.imp_right ?_))
        rintro ⟨r', hr', hx⟩
        exact ⟨r', by rw [hbatch]; exact List.mem_cons_of_mem r hr', hx⟩
      rcases publishDeviceDataPayload_cases marshal broker r.deviceID r.payload s.node with
        ⟨-, heq⟩ | ⟨hmay, heq⟩
      · rw [heq] at ht
        cases ht
        exact h.frame (by simpa [Except.toOption] using h.law)
          (fun x hx => by simpa [Except.toOption] using hx) id rfl rfl (fun p hp => .inl hp)
          (hpending _ rfl rfl rfl)
      · rw [heq] at ht
        cases ht
        refine ddata_orderly h (mayPublish_born hmay) ?_ rfl rfl rfl rfl (hpending _ rfl rfl rfl)
        have hr : r ∈ s.batch := by
          rw [hbatch]
          exact List.mem_cons_self
        exact fun x hx => mem_pending.mpr (.inr (.inr ⟨r, hr, hx⟩))
  | fireTimer =>
    simp only [step] at ht
    split at ht <;> cases ht
    exact h.frame h.law (fun _ hx => hx) id rfl rfl (mem_append_unbuilt timerProgram_unbuilt)
      (fun _ hx => hx)
  | rebirthCommand =>
    cases ht
    exact h.frame h.law (fun _ hx => hx) id rfl rfl (mem_append_unbuilt rebirthProgram_unbuilt)
      (fun _ hx => hx)
  | birthStep broker nowMs order i =>
    simp only [step] at ht
    split at ht
    · rename_i hi
      exact birthStep_orderly h hi hok ht
    · cases ht
  | loadVariables vars =>
    simp only [step] at ht
    split at ht
    · cases ht
    · rename_i hlocked
      cases ht
      have hbuild : Unbuilt ([.buildDeviceMetrics] : List (BirthStep F32 F64)) :=
        ⟨fun _ => rfl, by simp⟩
      exact h.learn hlocked rfl rfl (foldl_loadVariable_tracked hok) (mem_append_unbuilt hbuild)
        (fun x hx => .inl hx)
  | connect nowMs dial =>
    simp only [step] at ht
    split at ht
    · cases ht
      exact h
    · rename_i n hn
      obtain ⟨-, rfl⟩ := connect_ok hn
      cases ht
      exact h.frame h.law (fun _ hx => hx) (by simp) (by simp) rfl (fun p hp => .inl hp)
        (fun _ hx => hx)
  | onConnect =>
    cases ht
    refine h.frame h.law (fun _ hx => hx) (by simp [onConnect]) (by simp [onConnect]) rfl ?_
      (fun _ hx => hx)
    dsimp only
    split
    · exact mem_append_unbuilt birthProgram_unbuilt
    · exact fun p hp => .inl hp
  | connectionLost =>
    cases ht
    exact h.frame h.law (fun _ hx => hx) (by simp [connectionLost]) (by simp [connectionLost]) rfl
      (fun p hp => .inl hp) (fun _ hx => hx)
  | disconnect broker nowMs =>
    cases ht
    obtain ⟨hmetrics, hborn⟩ := disconnect_node marshal broker nowMs s.node
    exact h.frame (birthsFirst_append h.law (fun m hm _ => by simp [disconnect_mem hm]))
      (fun x hx => announced_grows (fun m hm => by simp [disconnect_mem hm]) hx)
      hborn hmetrics rfl (fun p hp => .inl hp) (fun _ hx => hx)
  | processHostState hostID online timestamp =>
    cases ht
    exact h.frame h.law (fun _ hx => hx)
      (fun hborn => (processHostState_state hostID online timestamp s.node).symm.trans hborn)
      (processHostState_deviceMetrics hostID online timestamp s.node) rfl
      (fun p hp => .inl hp) (fun _ hx => hx)
  | stateChange i =>
    simp only [step] at ht
    split at ht <;> cases ht
    exact h.frame h.law (fun _ hx => hx) id rfl rfl (fun p hp => .inl hp) (fun _ hx => hx)
  | reconcile i =>
    simp only [step] at ht
    split at ht
    · exact reconcileStep_orderly h ht
    · cases ht
  | setEnabled enabled =>
    simp only [step] at ht
    split at ht <;> cases ht
    exact h.frame h.law (fun _ hx => hx) id rfl rfl (fun p hp => .inl hp) (fun _ hx => hx)

/-- In every run in which each message that is let through finds its metric
safe, and the DBIRTHs of births succeed, births come before data. -/
theorem announcing_runs_births_first (marshal : PbPayload F32 F64 → Option String)
    (cfg : Settings) (file : Option String) (as : List (BridgeAction F32 F64)) (t : System F32 F64)
    (hrun : Runs.run (step marshal) (initial cfg file) as = some t)
    (hok : Runs.Meets (step marshal) (Announces marshal) (initial cfg file) as) :
    BirthsFirst t.wire :=
  (Runs.run_invariant (fun _ _ _ hs ha ht => step_orderly hs ha ht)
    (initial_orderly cfg file) hok hrun).law

end Steps

section Schedules

/-- A second variable of the plant's device, that nothing has announced yet. -/
def pressure (x : ℚ) : PlcDataMessage ℚ := { temperature x with variableID := "pressure" }

/-- A message of a known variable goes out at once. -/
def sent (msg : PlcDataMessage ℚ) (nowMs : Nat) : List (BridgeAction ℚ ℚ) :=
  [.receive msg nowMs, .checkSF 0, .checkNode 0, .publish accepting nowMs 0]

/-- The device and the metric names of each DDATA. -/
def dataNames (wire : List (Message ℚ ℚ)) : List (List Name) :=
  wire.filterMap fun m =>
    match m.type with
    | .ddata deviceID => some (names deviceID m.payload.metrics)
    | _ => none

/-- The second variable's rebirth comes between its first two messages. -/
def announcingSchedule : List (BridgeAction ℚ ℚ) :=
  startup ++ sent (temperature 21) 4 ++
    [.receive (pressure 5) 6, .fireTimer, .birthStep accepting 7 [] 2, .birthStep accepting 7 [] 2,
      .birthStep accepting 7 ["gateway:oven:temperature", "gateway:oven:pressure"] 2,
      .birthStep accepting 7 [] 2, .birthStep accepting 7 [] 2,
      .birthStep accepting 7 ["oven"] 2] ++
    reconciled ++ reconciled ++ sent (pressure 6) 8

theorem announcing_schedule_births_first :
    ∃ t, Runs.run (step marshals) (initial settings none) announcingSchedule = some t ∧
      dataNames t.wire = [[("oven", "temperature")], [("oven", "pressure")]] ∧
      BirthsFirst t.wire := by
  have hok : Runs.Meets (step marshals) (Announces marshals) (initial settings none)
      announcingSchedule := by decide +kernel
  cases hrun : Runs.run (step marshals) (initial settings none) announcingSchedule with
  | none => exact absurd (congrArg Option.isSome hrun) (by decide +kernel)
  | some t =>
    have hdata : (Runs.run (step marshals) (initial settings none) announcingSchedule).map
        (fun s => dataNames s.wire) =
          some [[("oven", "temperature")], [("oven", "pressure")]] := by decide +kernel
    rw [hrun, Option.map_some, Option.some.injEq] at hdata
    exact ⟨t, rfl, hdata,
      announcing_runs_births_first marshals settings none announcingSchedule t hrun hok⟩

/-- The second message of a new variable comes before the rebirth that its
first message has scheduled. -/
def unannouncedSchedule : List (BridgeAction ℚ ℚ) :=
  startup ++ [.receive (pressure 5) 6] ++ sent (pressure 6) 7

/-- The last message with its metric names, and what is announced before it. -/
def lastMessage (s : System ℚ ℚ) : Option (MessageType × List String) × List Name :=
  (s.wire.getLast?.map (fun m => (m.type, m.payload.metrics.map (·.name))),
    announced s.wire.dropLast)

theorem unannounced_schedule_breaks :
    ¬ ∀ (marshal : PbPayload ℚ ℚ → Option String) (cfg : Settings) (file : Option String)
      (as : List (BridgeAction ℚ ℚ)) (t : System ℚ ℚ),
      Runs.run (step marshal) (initial cfg file) as = some t → BirthsFirst t.wire := by
  intro h
  cases hrun : Runs.run (step marshals) (initial settings none) unannouncedSchedule with
  | none => exact absurd (congrArg Option.isSome hrun) (by decide +kernel)
  | some t =>
    have hlast : (Runs.run (step marshals) (initial settings none) unannouncedSchedule).map
        lastMessage =
          some (some (.ddata "oven", ["pressure"]), [("oven", "temperature")]) := by
      decide +kernel
    simp only [hrun, Option.map_some, Option.some.injEq, lastMessage, Prod.mk.injEq,
      Option.map_eq_some_iff] at hlast
    obtain ⟨⟨m, hm, htype, hnames⟩, hbefore⟩ := hlast
    have hlaw := h marshals settings none unannouncedSchedule t hrun
    rw [← List.dropLast_append_getLast? m hm] at hlaw
    have hdata := ((each_snoc _ _ _).mp hlaw).2 "oven" htype ("oven", "pressure")
      (mem_names.mpr ⟨rfl, List.mem_map.mp (hnames ▸ List.mem_singleton_self _)⟩)
    rw [hbefore] at hdata
    exact absurd hdata (by decide)

end Schedules

end BirthBeforeData
