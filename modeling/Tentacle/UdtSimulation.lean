import Tentacle.BridgeSystem
import Tentacle.SparkplugRoundTrip
import Tentacle.UdtRbe

/-!
# The metric inside the bridge

The runs of one template metric perform each message, birth and load at once.
They are runs of the whole bridge, in which the sections of one handler or one
birth follow each other while the node is born and the buffer online: the two
agree on the bridge and on every DBIRTH and DDATA.
-/

namespace UdtSimulation

open GoValues SparkplugPayload SparkplugNode MqttBridge BridgeSystem StoreForward
open UdtRbe (Udt UdtMessage Serves Describes tracked checked numbers)
open SparkplugRoundTrip (ValidMetric ValidMetrics ValidPayload)

/-- The device and metrics of a DBIRTH or DDATA. -/
def transmission (m : Message ℚ ℚ) : Option (String × List (Metric ℚ ℚ)) :=
  match m.type with
  | .dbirth deviceID | .ddata deviceID => some (deviceID, m.payload.metrics)
  | .nbirth | .ndeath => none

/-- A system with nothing under way that would hold up a message or a birth. -/
structure Serving (u : Udt) (s : BridgeSystem.System ℚ ℚ) : Prop where
  handlers : s.handlers = []
  unlocked : ∀ p ∈ s.births, ∀ c ∈ p, c.locks = false
  online : s.sf.state = .online
  publishes : mayPublish s.node = true
  host : s.node.config.primaryHostID = ""
  nodeMetrics : s.node.nodeMetrics = []
  devices : ∀ deviceID ∈ s.node.deviceMetrics, deviceID = u.device

/-- The system shows the bridge and the transmissions of the metric's system. -/
structure Shows (u : Udt) (a : UdtRbe.System) (s : BridgeSystem.System ℚ ℚ) : Prop where
  bridge : s.bridge = a.bridge
  sent : s.wire.filterMap transmission = a.sent
  serving : Serving u s
  serves : Serves u a.bridge
  describes : ∀ pv ∈ tracked u a, Describes u pv
  untracked : tracked u a = none → s.node.deviceMetrics = ∅

section Encoding

theorem encodeError_of_valid {p : Payload ℚ ℚ} (h : ValidPayload p) :
    encodeError marshals p = none := by
  obtain ⟨pbp, hpb, -⟩ := SparkplugRoundTrip.payload_survives p h
  rw [encodeError, hpb]
  rfl

/-- The members of a template metric are numbers in range. -/
theorem templateMembers_valid (u : Udt) (members : GoMap String ℚ) (nowMs : Nat) :
    ValidMetrics (templateMembers u.template (numbers members) nowMs : List (Metric ℚ ℚ)) := by
  obtain ⟨ms, hms, hlookup⟩ := UdtRbe.members_numbers members
  have hnumeric := u.numeric
  simp only [templateMembers, hms, hlookup]
  generalize u.template.members = defs at hnumeric ⊢
  induction defs with
  | nil => simp [ValidMetrics]
  | cons mdef rest ih =>
    have hrest := ih (fun m hm => hnumeric m (List.mem_cons_of_mem _ hm))
    have htype : natsToSparkplugType mdef.datatype = .double := by
      rw [hnumeric mdef List.mem_cons_self]
      rfl
    cases hx : members.lookup mdef.name with
    | none => simpa [hx] using hrest
    | some x =>
      simp only [List.filterMap_cons, hx, Option.map_some, ValidMetrics, ValidMetric, htype,
        coerceValue, SparkplugRoundTrip.InRange, SparkplugRoundTrip.ValidValue]
      exact ⟨.inr ⟨trivial, trivial⟩, hrest⟩

/-- The metric of the variable can be sent. -/
theorem metric_accepted {u : Udt} {pv : PlcVariable ℚ} (hpv : Describes u pv)
    (members : GoMap String ℚ) (nowMs timestamp seq : Nat) (type : MessageType) :
    accepts marshals accepting type
      ({ timestamp := timestamp
         seq := seq
         metrics := [valueToMetric true pv (numbers members) nowMs] } : Payload ℚ ℚ) = true := by
  have hmetric : (valueToMetric true pv (numbers members) nowMs : Metric ℚ ℚ) =
      udtToTemplateMetric pv u.template (numbers members) nowMs := by
    simp [valueToMetric, hpv.datatype, hpv.udtTemplate]
  have hvalid : ValidPayload
      ({ timestamp := timestamp
         seq := seq
         metrics := [udtToTemplateMetric pv u.template (numbers members) nowMs] } :
        Payload ℚ ℚ) := by
    simp only [ValidPayload, ValidMetrics, udtToTemplateMetric, ValidMetric,
      SparkplugRoundTrip.InRange, SparkplugRoundTrip.ValidValue, SparkplugRoundTrip.ValidTemplate]
    exact ⟨.inr ⟨trivial, templateMembers_valid u members nowMs, by simp⟩, trivial⟩
  simp [accepts, hmetric, encodeError_of_valid hvalid, accepting]

/-- An NBIRTH without template definitions can be sent. -/
theorem nbirth_accepted {n : Node ℚ ℚ} (h : n.nodeMetrics = []) (now : Nat) :
    accepts marshals accepting .nbirth (nbirthPayload now n) = true := by
  have hencode : encodeError marshals (nbirthPayload now n) = none := by
    simp only [nbirthPayload, h]
    rfl
  simp [accepts, hencode, accepting]

end Encoding

section Messages

theorem not_locked {s : BridgeSystem.System ℚ ℚ}
    (h : ∀ p ∈ s.births, ∀ c ∈ p, c.locks = false) : ¬ Locked s := by
  rintro ⟨p, hp, c, hc, hlocks⟩
  rw [h p hp c hc] at hlocks
  cases hlocks

/-- A new thread whose sections do not lock. -/
theorem unlocked_append {bs : List (List (BirthStep ℚ ℚ))} {p : List (BirthStep ℚ ℚ)}
    (hbs : ∀ q ∈ bs, ∀ c ∈ q, c.locks = false) (hp : ∀ c ∈ p, c.locks = false) :
    ∀ q ∈ bs ++ [p], ∀ c ∈ q, c.locks = false := by
  intro q hq
  rcases List.mem_append.mp hq with hq | hq
  · exact hbs q hq
  · rw [List.mem_singleton.mp hq]
    exact hp

/-- A handler that runs alone publishes the metric it was left with. -/
theorem handler_publishes {s : BridgeSystem.System ℚ ℚ} {h : Handler ℚ ℚ} {now : Nat}
    (hhandlers : s.handlers = [h]) (hphase : h.phase = .checkSF) (honline : s.sf.state = .online)
    (hmay : mayPublish s.node = true)
    (haccepted : ∀ seq, accepts marshals accepting (.ddata h.deviceID)
      { timestamp := now, seq := seq, metrics := [h.metric] } = true) :
    Runs.Reaches (BridgeSystem.step marshals) s { s with
      handlers := []
      node := { s.node with seq := (s.node.seq + 1) % 256 }
      wire := s.wire ++ [⟨.ddata h.deviceID, (MessageType.ddata h.deviceID).topic s.node.config,
        { timestamp := now, seq := (s.node.seq + 1) % 256, metrics := [h.metric] }⟩] } := by
  have hborn := mayPublish_born hmay
  refine ⟨[.checkSF 0, .checkNode 0, .publish accepting now 0], ?_⟩
  simp [Runs.run, BridgeSystem.step, setPhase, hhandlers, hphase, honline, hborn,
    publishDeviceData, hmay, publish_of_accepts (haccepted _), Except.toOption]

/-- After a message the variable still is the metric's. -/
theorem message_describes {u : Udt} {a b : UdtRbe.System} (hserves : Serves u a.bridge)
    (h : ∀ pv ∈ tracked u a, Describes u pv) {msg : UdtMessage} {nowMs : Nat}
    (hb : UdtRbe.step u a (.message msg nowMs) = some b) : ∀ pv ∈ tracked u b, Describes u pv := by
  obtain ⟨-, htracked, -⟩ := UdtRbe.step_message hserves hb
  obtain ⟨states, hpv, -, -⟩ := UdtRbe.checkRBE_message u (checked u a msg) msg nowMs
  intro pv hmem
  rw [htracked, hpv, Option.mem_some_iff] at hmem
  rw [← hmem]
  exact (UdtRbe.checked_describes h msg).withStates states

/-- What a message sends is the metric of its variable. -/
theorem sent_metric {u : Udt} {a b : UdtRbe.System} (hserves : Serves u a.bridge)
    (h : ∀ pv ∈ tracked u a, Describes u pv) {msg : UdtMessage} {nowMs : Nat}
    (hb : UdtRbe.step u a (.message msg nowMs) = some b) {deviceID : String} {metric : Metric ℚ ℚ}
    (hsent : b.sent = a.sent ++ [(deviceID, [metric])]) :
    ∃ pv, Describes u pv ∧ metric = valueToMetric true pv (numbers msg.members) nowMs := by
  obtain ⟨-, -, hstep⟩ := UdtRbe.step_message hserves hb
  obtain ⟨states, hpv, -, -⟩ := UdtRbe.checkRBE_message u (checked u a msg) msg nowMs
  rw [hsent, List.append_cancel_left_eq] at hstep
  split at hstep
  · simp only [List.cons.injEq, Prod.mk.injEq, and_true] at hstep
    rw [hpv] at hstep
    exact ⟨_, (UdtRbe.checked_describes h msg).withStates states, hstep.2⟩
  · cases hstep

/-- A message of the small model is a run of the bridge. -/
theorem message_simulation {u : Udt} {a b : UdtRbe.System} {s : BridgeSystem.System ℚ ℚ}
    (h : Shows u a s) {msg : UdtMessage} {nowMs : Nat}
    (hb : UdtRbe.step u a (.message msg nowMs) = some b) :
    ∃ t, Runs.Reaches (BridgeSystem.step marshals) s t ∧ Shows u b t := by
  obtain ⟨hserves, htracked, -⟩ := UdtRbe.step_message h.serves hb
  have hdescribes := message_describes h.serves h.describes hb
  have huntracked : tracked u b ≠ none := by simp [htracked]
  have hmetric := @sent_metric u a b h.serves h.describes msg nowMs hb
  have hreceive : BridgeSystem.step marshals s (.receive (u.message msg) nowMs) =
      some (receive s (u.message msg) nowMs) := if_neg (not_locked h.serving.unlocked)
  obtain ⟨hhandlers, hunlocked, honline, hmay, hhost, hnode, hdevices⟩ := h.serving
  cases hh : handleDataMessage (u.message msg) nowMs a.bridge with
  | mk br handled =>
    simp only [UdtRbe.step, hh] at hb
    simp only [receive, h.bridge, hh, hhandlers] at hreceive
    cases handled with
    | send deviceID metric =>
      cases hb
      obtain ⟨pv, hpv, rfl⟩ := hmetric rfl
      refine ⟨_, (Runs.Reaches.step hreceive).trans (handler_publishes rfl rfl honline hmay
        (fun seq => metric_accepted hpv msg.members nowMs nowMs seq _)), rfl, ?_, ?_, hserves,
        hdescribes, fun hnone => absurd hnone huntracked⟩
      · simp [h.sent, transmission]
      · exact ⟨rfl, hunlocked, honline, hmay, hhost, hnode, hdevices⟩
    | ignored | suppressed | discovered =>
      cases hb
      exact ⟨_, .step hreceive, rfl, h.sent,
        ⟨rfl, hunlocked, honline, hmay, hhost, hnode, hdevices⟩, hserves, hdescribes,
        fun hnone => absurd hnone huntracked⟩

theorem load_simulation {u : Udt} {a b : UdtRbe.System} {s : BridgeSystem.System ℚ ℚ}
    (h : Shows u a s) {msg : UdtMessage} (hb : UdtRbe.step u a (.load msg) = some b) :
    ∃ t, Runs.Reaches (BridgeSystem.step marshals) s t ∧ Shows u b t := by
  obtain ⟨hserves, htracked, hsent⟩ := UdtRbe.step_load h.serves hb
  obtain ⟨hhandlers, hunlocked, honline, hmay, hhost, hnode, hdevices⟩ := h.serving
  have hload : BridgeSystem.step marshals s (.loadVariables [u.info msg]) = some { s with
      bridge := loadVariable s.bridge (u.info msg)
      births := s.births ++ [[.buildDeviceMetrics]] } :=
    if_neg (not_locked hunlocked)
  cases hb
  refine ⟨_, .step hload, congrArg (loadVariable · (u.info msg)) h.bridge, h.sent,
    ⟨hhandlers, unlocked_append hunlocked (by simp [BirthStep.locks]), honline, hmay, hhost,
      hnode, hdevices⟩, hserves, ?_, ?_⟩
  · intro pv hpv
    rw [htracked, Option.mem_some_iff] at hpv
    rw [← hpv]
    exact UdtRbe.loadedVariable_describes u msg
  · intro hnone
    rw [htracked] at hnone
    cases hnone

end Messages

section Births

/-- The birth that was started last performs its next section. -/
theorem reaches_section {s t : BridgeSystem.System ℚ ℚ} {bs : List (List (BirthStep ℚ ℚ))}
    {c : BirthStep ℚ ℚ} {rest : List (BirthStep ℚ ℚ)} (nowMs : Nat) (order : List String)
    (hbirths : s.births = bs ++ [c :: rest])
    (ht : BridgeSystem.birthStep marshals s accepting nowMs order bs.length rest c = some t) :
    Runs.Reaches (BridgeSystem.step marshals) s t := by
  refine .step (a := .birthStep accepting nowMs order bs.length) ?_
  simpa [BridgeSystem.step, hbirths] using ht

theorem set_last {α : Type} (l : List α) (x y : α) : (l ++ [x]).set l.length y = l ++ [y] := by
  simp

theorem erase_only {l : List String} {x : String} (hl : l.Nodup) (h : ∀ y ∈ l, y = x) :
    l.erase x = [] := by
  apply List.eq_nil_iff_forall_not_mem.mpr
  intro y hy
  have hyx := h y (List.mem_of_mem_erase hy)
  subst hyx
  exact hl.not_mem_erase hy

/-- The metrics of the node after `buildDeviceMetrics`. -/
def collected (u : Udt) (pv : Option (PlcVariable ℚ)) (nowMs : Nat)
    (devices : GoMap String (List (Metric ℚ ℚ))) : GoMap String (List (Metric ℚ ℚ)) :=
  match pv with
  | none => devices
  | some pv => devices.insert u.device [valueToMetric true pv pv.value nowMs]

/-- A birth that runs alone hands the metrics of the variable to the node. No
DBIRTH goes out on the way: the node is dead. -/
theorem reaches_collected {u : Udt} {s : BridgeSystem.System ℚ ℚ}
    {bs : List (List (BirthStep ℚ ℚ))} {rest : List (BirthStep ℚ ℚ)}
    (hbirths : s.births = bs ++ [.buildDeviceMetrics :: rest]) (hserves : Serves u s.bridge)
    (hdescribes : ∀ pv ∈ s.bridge.plcVariables.lookup u.key, Describes u pv)
    (hdead : s.node.state = .dead) (nowMs : Nat) :
    Runs.Reaches (BridgeSystem.step marshals) s { s with
      node := { s.node with
        deviceMetrics :=
          collected u (s.bridge.plcVariables.lookup u.key) nowMs s.node.deviceMetrics }
      births := bs ++ [rest] } := by
  have hmay : ∀ n : Node ℚ ℚ, n.state = .dead → mayPublish n = false := by
    intro n hn
    simp [mayPublish, hn]
  have hgroups : s.bridge.plcVariables.keys.filterMap s.bridge.plcVariables.lookup =
      (s.bridge.plcVariables.lookup u.key).toList := by
    rw [filterMap_lookup_keys, hserves.entries]
  have hbuild := reaches_section (t := { s with
      births := bs ++ [(byDevice s.bridge (s.bridge.plcVariables.lookup u.key).toList nowMs).map
        (fun g => .setDeviceMetrics g.1 g.2) ++ rest] }) nowMs s.bridge.plcVariables.keys hbirths
    (by simp only [BridgeSystem.birthStep, List.Perm.refl, if_true, hgroups, hbirths, set_last])
  cases hpv : s.bridge.plcVariables.lookup u.key with
  | none => simpa [hpv, byDevice, collected] using hbuild
  | some pv =>
    obtain ⟨members, hvalue⟩ := (hdescribes pv hpv).value
    simp only [hpv, Option.toList_some, hserves.byDevice (hdescribes pv hpv) hvalue,
      List.map_cons, List.map_nil, List.singleton_append] at hbuild
    apply hbuild.trans
    cases hnew : (s.node.deviceMetrics.lookup u.device).isNone with
    | false =>
      apply reaches_section nowMs [] rfl
      simp [BridgeSystem.birthStep, setDeviceMetrics, hnew, collected, hvalue]
    | true =>
      refine (reaches_section nowMs [] rfl (t := { s with
        node := { s.node with
          deviceMetrics := collected u (some pv) nowMs s.node.deviceMetrics }
        births := bs ++ [.publishDeviceBirth u.device :: rest] }) ?_).trans
        (reaches_section nowMs [] rfl ?_)
      · simp [BridgeSystem.birthStep, setDeviceMetrics, hnew, collected, hvalue]
      · simp [BridgeSystem.birthStep, publishDeviceBirth, hmay, hdead]

theorem collected_keys {u : Udt} {devices : GoMap String (List (Metric ℚ ℚ))}
    (h : ∀ deviceID ∈ devices, deviceID = u.device) (pv : PlcVariable ℚ) (nowMs : Nat) :
    (collected u (some pv) nowMs devices).keys = [u.device] := by
  rw [collected, AList.keys_insert, erase_only devices.keys_nodup h]

theorem collected_devices {u : Udt} {devices : GoMap String (List (Metric ℚ ℚ))}
    (h : ∀ deviceID ∈ devices, deviceID = u.device) (pv : Option (PlcVariable ℚ)) (nowMs : Nat) :
    ∀ deviceID ∈ collected u pv nowMs devices, deviceID = u.device := by
  cases pv with
  | none => exact h
  | some pv =>
    intro deviceID hmem
    rw [AList.mem_keys, collected_keys h] at hmem
    exact List.mem_singleton.mp hmem

/-- The DBIRTHs of a birth are those of the devices it goes through. -/
theorem deviceBirths_transmissions {now : Nat} {order : List String} {n : Node ℚ ℚ}
    (hok : ∀ deviceID ∈ order, ∀ metrics ∈ n.deviceMetrics.lookup deviceID,
      Deliverable marshals accepting (.dbirth deviceID) now metrics) :
    (deviceBirths marshals accepting now order n).2.filterMap transmission =
      order.filterMap (fun deviceID =>
        (n.deviceMetrics.lookup deviceID).map (fun metrics => (deviceID, metrics))) := by
  induction order generalizing n with
  | nil => rfl
  | cons d order ih =>
    have hrest := fun e he => hok e (List.mem_cons_of_mem d he)
    cases hd : n.deviceMetrics.lookup d with
    | none => simpa [deviceBirths, hd] using ih hrest
    | some metrics =>
      have haccepted := hok d List.mem_cons_self metrics hd ((n.seq + 1) % 256)
        (Nat.mod_lt _ (by decide))
      have hnext := ih (n := { n with seq := (n.seq + 1) % 256 }) hrest
      simp only [deviceBirths, hd, publishDeviceBirthLocked, publish_of_accepts haccepted,
        Except.toOption, Option.toList_some, List.singleton_append, List.filterMap_cons,
        transmission, Option.map_some]
      exact congrArg _ hnext

/-- The last section of a birth: the NBIRTH goes out and the devices follow. -/
theorem reaches_born {s : BridgeSystem.System ℚ ℚ} {bs : List (List (BirthStep ℚ ℚ))}
    (hbirths : s.births = bs ++ [[.birth]]) (hmay : mayBirth s.node = true)
    (hnode : s.node.nodeMetrics = []) (nowMs : Nat)
    (hok : ∀ deviceID ∈ s.node.deviceMetrics.keys,
      ∀ metrics ∈ s.node.deviceMetrics.lookup deviceID,
        Deliverable marshals accepting (.dbirth deviceID) nowMs metrics) :
    ∃ seq sent, Runs.Reaches (BridgeSystem.step marshals) s { s with
        node := { bornNode s.node with seq := seq }
        wire := s.wire ++ sent
        births := bs ++ [[]] } ∧
      sent.filterMap transmission = s.node.deviceMetrics.keys.filterMap (fun deviceID =>
        (s.node.deviceMetrics.lookup deviceID).map (fun metrics => (deviceID, metrics))) := by
  rcases birth_cases marshals accepting nowMs s.node.deviceMetrics.keys s.node with
    ⟨hno, -⟩ | ⟨-, hno, -⟩ | ⟨-, -, heq⟩
  · rw [hmay] at hno
    cases hno
  · exact absurd (nbirth_accepted hnode nowMs) hno
  · obtain ⟨seq, hseq⟩ := @deviceBirths_fst ℚ ℚ _ marshals accepting nowMs
      s.node.deviceMetrics.keys (bornNode s.node)
    have hsent := @deviceBirths_transmissions nowMs s.node.deviceMetrics.keys (bornNode s.node)
      (by simpa using hok)
    refine ⟨seq, (birth marshals accepting nowMs s.node.deviceMetrics.keys s.node).2,
      reaches_section nowMs s.node.deviceMetrics.keys hbirths ?_, ?_⟩
    · simp only [BridgeSystem.birthStep, List.Perm.refl, if_true, heq, hseq, hbirths, set_last]
    · rw [heq, List.filterMap_cons_none rfl, hsent, bornNode_deviceMetrics]

/-- What goes out in a birth is what the metric's system sends. -/
theorem collected_transmissions {u : Udt} {br : Bridge ℚ ℚ} (hserves : Serves u br)
    {devices : GoMap String (List (Metric ℚ ℚ))}
    (hdevices : ∀ deviceID ∈ devices, deviceID = u.device) {pv : Option (PlcVariable ℚ)}
    (hpv : ∀ v ∈ pv, Describes u v) (hnone : pv = none → devices = ∅) (nowMs : Nat) :
    (collected u pv nowMs devices).keys.filterMap (fun deviceID =>
      ((collected u pv nowMs devices).lookup deviceID).map (fun metrics => (deviceID, metrics))) =
        byDevice br pv.toList nowMs := by
  cases pv with
  | none =>
    rw [collected, hnone rfl]
    rfl
  | some v =>
    obtain ⟨members, hvalue⟩ := (hpv v rfl).value
    rw [collected_keys hdevices, Option.toList_some, hserves.byDevice (hpv v rfl) hvalue]
    simp [collected, hvalue]

theorem collected_deliverable {u : Udt} {devices : GoMap String (List (Metric ℚ ℚ))}
    (hdevices : ∀ deviceID ∈ devices, deviceID = u.device) {pv : Option (PlcVariable ℚ)}
    (hpv : ∀ v ∈ pv, Describes u v) (hnone : pv = none → devices = ∅) (nowMs now : Nat) :
    ∀ deviceID ∈ (collected u pv nowMs devices).keys,
      ∀ metrics ∈ (collected u pv nowMs devices).lookup deviceID,
        Deliverable marshals accepting (.dbirth deviceID) now metrics := by
  cases pv with
  | none => simp [collected, hnone rfl]
  | some v =>
    obtain ⟨members, hvalue⟩ := (hpv v rfl).value
    rw [collected_keys hdevices]
    intro deviceID hdevice metrics hmetrics seq _
    rw [List.mem_singleton] at hdevice
    rw [hdevice, collected, AList.lookup_insert, Option.mem_some_iff] at hmetrics
    rw [← hmetrics, hvalue]
    exact metric_accepted (hpv v rfl) members nowMs now seq _

/-- A birth is about to run in a dead node that may send it. -/
structure Birthing (u : Udt) (bs : List (List (BirthStep ℚ ℚ))) (s : BridgeSystem.System ℚ ℚ) :
    Prop where
  births : s.births = bs ++ [birthProgram]
  unlocked : ∀ p ∈ bs, ∀ c ∈ p, c.locks = false
  serves : Serves u s.bridge
  describes : ∀ pv ∈ s.bridge.plcVariables.lookup u.key, Describes u pv
  dead : s.node.state = .dead
  may : mayBirth s.node = true
  nodeMetrics : s.node.nodeMetrics = []
  devices : ∀ deviceID ∈ s.node.deviceMetrics, deviceID = u.device
  untracked : s.bridge.plcVariables.lookup u.key = none → s.node.deviceMetrics = ∅

/-- The birth runs alone from its callback to its last DBIRTH. -/
theorem Birthing.reaches {u : Udt} {bs : List (List (BirthStep ℚ ℚ))}
    {s : BridgeSystem.System ℚ ℚ} (h : Birthing u bs s) (nowMs : Nat) :
    ∃ seq sent, Runs.Reaches (BridgeSystem.step marshals) s { s with
        bridge := resetRBEStates s.bridge
        node := { bornNode { s.node with
            deviceMetrics :=
              collected u (s.bridge.plcVariables.lookup u.key) nowMs s.node.deviceMetrics } with
          seq := seq }
        wire := s.wire ++ sent
        births := bs ++ [[]] } ∧
      sent.filterMap transmission =
        byDevice s.bridge (s.bridge.plcVariables.lookup u.key).toList nowMs := by
  have hcollect := reaches_collected h.births h.serves h.describes h.dead nowMs
  have hreset := hcollect.trans (reaches_section (t := { s with
      bridge := resetRBEStates s.bridge
      node := { s.node with
        deviceMetrics :=
          collected u (s.bridge.plcVariables.lookup u.key) nowMs s.node.deviceMetrics }
      births := bs ++ [[.birth]] }) nowMs [] rfl (by
    rw [BridgeSystem.birthStep, if_neg (not_locked (unlocked_append h.unlocked
      (by simp [BirthStep.locks]))), set_last]))
  obtain ⟨seq, sent, hborn, hsent⟩ := reaches_born (s := { s with
      bridge := resetRBEStates s.bridge
      node := { s.node with
        deviceMetrics :=
          collected u (s.bridge.plcVariables.lookup u.key) nowMs s.node.deviceMetrics }
      births := bs ++ [[.birth]] }) rfl h.may h.nodeMetrics nowMs
    (collected_deliverable h.devices h.describes h.untracked nowMs nowMs)
  refine ⟨seq, sent, hreset.trans hborn, ?_⟩
  rw [hsent]
  exact collected_transmissions h.serves h.devices h.describes h.untracked nowMs

/-- A birth of the small model is a run of the bridge. -/
theorem birth_simulation {u : Udt} {a b : UdtRbe.System} {s : BridgeSystem.System ℚ ℚ}
    (h : Shows u a s) {nowMs : Nat} (hb : UdtRbe.step u a (.birth nowMs) = some b) :
    ∃ t, Runs.Reaches (BridgeSystem.step marshals) s t ∧ Shows u b t := by
  obtain ⟨hserves, htracked, hsent⟩ := UdtRbe.step_birth h.serves hb
  obtain ⟨hhandlers, hunlocked, honline, hmay, hhost, hnode, hdevices⟩ := h.serving
  have hlookup : s.bridge.plcVariables.lookup u.key = tracked u a := by
    rw [h.bridge]
    rfl
  have hclient : s.node.client.isSome = true := by
    simp only [mayPublish, Bool.and_eq_true] at hmay
    exact hmay.2
  have hstart : Runs.Reaches (BridgeSystem.step marshals) s { s with
      births := s.births ++ [rebirthProgram] } := .step (a := .rebirthCommand) rfl
  have hdead := hstart.trans (reaches_section (t := { s with
      node := markDead s.node
      births := s.births ++ [birthProgram] }) nowMs [] rfl
    (by simp only [BridgeSystem.birthStep, set_last]))
  have hbirthing : Birthing u s.births { s with
      node := markDead s.node
      births := s.births ++ [birthProgram] } :=
    ⟨rfl, hunlocked, h.bridge ▸ h.serves, hlookup ▸ h.describes, setStateLocked_state _ _,
      by simp [mayBirth, markDead, hhost, hclient], by simp [markDead, hnode],
      by simpa [markDead] using hdevices, by simpa [markDead, hlookup] using h.untracked⟩
  obtain ⟨seq, sent, hborn, hwire⟩ := hbirthing.reaches nowMs
  refine ⟨_, hdead.trans hborn, ?_, ?_, ?_, hserves, ?_, ?_⟩
  · cases hb
    exact congrArg resetRBEStates h.bridge
  · rw [List.filterMap_append, hwire, h.sent, hsent, hlookup, h.bridge]
  · refine ⟨hhandlers, unlocked_append hunlocked (by simp), honline, ?_, ?_, ?_, ?_⟩
    · simp [mayPublish, markDead, hclient]
    · simp [markDead, hhost]
    · simp [markDead, hnode]
    · simpa [markDead] using collected_devices hdevices _ nowMs
  · intro pv hpv
    rw [htracked, Option.mem_def, Option.map_eq_some_iff] at hpv
    obtain ⟨pv, hpv, rfl⟩ := hpv
    exact (h.describes pv hpv).forgotten
  · intro hnone
    rw [htracked, Option.map_eq_none_iff] at hnone
    simp [markDead, collected, hlookup, hnone, h.untracked hnone]

end Births

section Start

variable {u : Udt} {cfg : Settings} (file : Option String)

/-- A node that has become born turns the buffer online. -/
theorem reaches_online {s : BridgeSystem.System ℚ ℚ} (hborn : s.node.state = .born)
    (hcallbacks : s.node.callbacks ≠ []) (hhost : s.bridge.hostOnline = true)
    (hreconciles : s.reconciles = []) :
    Runs.Reaches (BridgeSystem.step marshals) s { s with
      node := { s.node with callbacks := s.node.callbacks.tail }
      sf := setOnline s.sf } := by
  refine ⟨[.stateChange 0, .reconcile 0, .reconcile 0, .reconcile 0], ?_⟩
  have hpos : 0 < s.node.callbacks.length := List.length_pos_iff.mpr hcallbacks
  simp [Runs.run, BridgeSystem.step, reconcileStep, hpos, hborn, hhost, hreconciles]

/-- The node after a first connect. -/
def connectedNode (cfg : Config) (file : Option String) : Node ℚ ℚ :=
  let n := newSparkplugNode cfg file
  onConnect (setStateLocked { n with client := some ⟨ndeathPayload 0 n.bdSeq, true⟩ } .dead)

/-- Without a primary host the bridge gets to a connected node. -/
theorem reaches_connected (hhost : cfg.node.primaryHostID = "") :
    Runs.Reaches (BridgeSystem.step marshals) (BridgeSystem.initial cfg file)
      { BridgeSystem.initial cfg file with
        node := connectedNode cfg.node file
        births := [birthProgram] } := by
  refine ⟨[.connect 0 none, .onConnect], ?_⟩
  have hconnect : connect marshals 0 none (newSparkplugNode cfg.node file : Node ℚ ℚ) =
      .ok (setStateLocked { newSparkplugNode cfg.node file with
        client := some ⟨ndeathPayload 0 (newSparkplugNode cfg.node file : Node ℚ ℚ).bdSeq, true⟩ }
        .dead) := rfl
  have hconfig : (newSparkplugNode cfg.node file : Node ℚ ℚ).config.primaryHostID = "" := hhost
  simp only [Runs.run, BridgeSystem.step, BridgeSystem.initial, hconnect, Option.bind_some,
    setStateLocked_config, hconfig, if_true, List.nil_append]
  rfl

/-- A bridge without a primary host starts up and is ready for the metric. -/
theorem start_shows (hmodule : cfg.moduleID = u.bridgeID) (htemplates : cfg.useTemplates = true)
    (hhost : cfg.node.primaryHostID = "") :
    ∃ t, Runs.Reaches (BridgeSystem.step marshals) (BridgeSystem.initial cfg file) t ∧
      Shows u (UdtRbe.initial u "") t := by
  have hbridge : (BridgeSystem.initial cfg file : BridgeSystem.System ℚ ℚ).bridge =
      (UdtRbe.initial u "").bridge := by
    simp only [BridgeSystem.initial, hmodule, htemplates, hhost]
    rfl
  have hserves := (UdtRbe.initial_consistent u "").serves
  have hinitial : Serves u (BridgeSystem.initial cfg file : BridgeSystem.System ℚ ℚ).bridge :=
    hbridge ▸ hserves
  have hbirthing : Birthing u [] { BridgeSystem.initial cfg file with
      node := connectedNode cfg.node file
      births := [birthProgram] } :=
    ⟨rfl, by simp, hinitial, fun pv hpv => absurd hpv (Option.not_mem_none pv), rfl,
      by simp [mayBirth, connectedNode, onConnect, newSparkplugNode, hhost], rfl,
      fun deviceID hdevice => absurd hdevice (AList.notMem_empty deviceID), fun _ => rfl⟩
  obtain ⟨seq, sent, hborn, hsent⟩ := hbirthing.reaches 0
  have honline := ((reaches_connected file hhost).trans hborn).trans
    (reaches_online (bornNode_state _) (List.cons_ne_nil _ _)
      (congrArg Bridge.hostOnline hbridge) rfl)
  refine ⟨_, honline, hbridge, hsent, ?_, hserves,
    fun pv hpv => absurd hpv (Option.not_mem_none pv), fun _ => rfl⟩
  exact ⟨rfl, by simp, rfl, rfl, hhost, rfl,
    fun deviceID hdevice => absurd hdevice (AList.notMem_empty deviceID)⟩

theorem step_simulation {a b : UdtRbe.System} {action : UdtRbe.Action}
    {s : BridgeSystem.System ℚ ℚ} (h : Shows u a s) (hb : UdtRbe.step u a action = some b) :
    ∃ t, Runs.Reaches (BridgeSystem.step marshals) s t ∧ Shows u b t := by
  cases action with
  | message msg nowMs => exact message_simulation h hb
  | birth nowMs => exact birth_simulation h hb
  | load msg => exact load_simulation h hb

/-- Every run of the metric's system is a run of the bridge, with the same
variables and the same DBIRTHs and DDATAs. -/
theorem metric_runs_realised (hmodule : cfg.moduleID = u.bridgeID)
    (htemplates : cfg.useTemplates = true) (hhost : cfg.node.primaryHostID = "")
    (as : List UdtRbe.Action) (t : UdtRbe.System)
    (hrun : Runs.run (UdtRbe.step u) (UdtRbe.initial u "") as = some t) :
    ∃ t', Runs.Reaches (BridgeSystem.step marshals) (BridgeSystem.initial cfg file) t' ∧
      t'.bridge = t.bridge ∧ t'.wire.filterMap transmission = t.sent := by
  obtain ⟨s, hstart, hs⟩ := start_shows file hmodule htemplates hhost
  obtain ⟨t', hreach, ht⟩ :=
    Runs.run_simulation (fun _ _ _ _ h hb => step_simulation h hb) hs hrun
  exact ⟨t', hstart.trans hreach, ht.bridge, ht.sent⟩

end Start

/-- The bridge of the motor, without a primary host. -/
def motorSettings : Settings := ⟨⟨"plant", "edge1", "", ""⟩, "mqtt", true, 0, 0⟩

theorem motor_run_realised :
    ∃ t t', Runs.run (UdtRbe.step UdtRbe.motor) (UdtRbe.initial UdtRbe.motor "") UdtRbe.start =
        some t ∧
      Runs.Reaches (BridgeSystem.step marshals) (BridgeSystem.initial motorSettings none) t' ∧
      t'.bridge = t.bridge ∧ t'.wire.filterMap transmission = t.sent := by
  have hstart : (Runs.run (UdtRbe.step UdtRbe.motor) (UdtRbe.initial UdtRbe.motor "")
      UdtRbe.start).isSome = true := by decide +kernel
  obtain ⟨t, hrun⟩ := Option.isSome_iff_exists.mp hstart
  have hmodule : motorSettings.moduleID = UdtRbe.motor.bridgeID := rfl
  obtain ⟨t', hreach⟩ := metric_runs_realised none hmodule rfl rfl UdtRbe.start t hrun
  exact ⟨t, t', hrun, hreach⟩

end UdtSimulation
