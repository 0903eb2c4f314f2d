import Tentacle.GatewayVariables

/-!
# Commands from Sparkplug to the scanners

A DCMD reaches the bridge with its device, which the bridge does not look at: it
looks for a variable with the metric's name, or with the last segment of it,
and publishes the value for the gateway under the variable's ID. The gateway
compares what it receives with the sanitised tags of its bidirectional
variables. So a command arrives where it should exactly when the name, taken
that way, is the sanitised tag of the right variable and of no other.
-/

namespace CommandRouting

open GoValues SparkplugPayload MqttBridge Subjects GatewayVariables

variable {F32 F64 : Type}

/-- A value handed to `json.Marshal`, for the bytes it returns; `none` are the
nil bytes that it returns with an error. -/
abbrev JsonData (F32 F64 : Type) :=
  Option (Option (Value F32 F64 (Template F32 F64 (Metric F32 F64))))

section Bridge

variable [GoFloats F32 F64]

/-- What `json.Marshal` cannot encode of a value without templates. -/
def scalarMarshals {T : Type} : Value F32 F64 T → Bool
  | .float32 x => GoFloats.finite64 F32 (GoFloats.widen x : F64)
  | .float64 x => GoFloats.finite64 F32 x
  | _ => true

mutual

def metricMarshals : Metric F32 F64 → Bool
  | ⟨_, _, _, _, _, _, _, value⟩ =>
    match value with
    | none => true
    | some v => valueMarshals v

def valueMarshals : Value F32 F64 (Template F32 F64 (Metric F32 F64)) → Bool
  | .template ⟨_, _, _, metrics, parameters⟩ =>
    metricsMarshal metrics && parameters.all (fun p => p.value.all scalarMarshals)
  | v => scalarMarshals v

def metricsMarshal : List (Metric F32 F64) → Bool
  | [] => true
  | m :: ms => metricMarshals m && metricsMarshal ms

end

def sparkplugValueToJSON {T : Type} : Option (Value F32 F64 T) → Option (Value F32 F64 T)
  | some (.int .uint32 n) => some (.int .int n)
  | some (.float32 x) => some (.float64 (GoFloats.widen x))
  | v => v

/-- The data that a command carries for a metric's value. -/
def commandData (value : Option (Value F32 F64 (Template F32 F64 (Metric F32 F64)))) :
    JsonData F32 F64 :=
  let v := sparkplugValueToJSON value
  if v.all valueMarshals then some v else none

/-- What follows the last slash; the whole name if there is none. -/
def lastSegment (name : String) : String :=
  String.ofList (name.toList.reverse.takeWhile (· ≠ '/')).reverse

/-- `routeCommand`, with the orders of its two loops. -/
def routeCommand (br : Bridge F32 F64) (orders : List String × List String) (m : Metric F32 F64) :
    List (BusMessage (JsonData F32 F64)) :=
  match (firstMatch br.plcVariables orders.1 (·.id = m.name)).or
      (firstMatch br.plcVariables orders.2 (·.id = lastSegment m.name)) with
  | none => []
  | some pv =>
    match m.value with
    | some (.template t) =>
      t.metrics.map (fun member =>
        ⟨command pv.moduleID (pv.id ++ "/" ++ member.name), commandData member.value⟩)
    | value => [⟨command pv.moduleID pv.id, commandData value⟩]

/-- The device is not used. -/
def handleDeviceCommand (br : Bridge F32 F64) (orders : Nat → List String × List String)
    (_deviceID : String) (metrics : List (Metric F32 F64)) : List (BusMessage (JsonData F32 F64)) :=
  metrics.zipIdx.flatMap (fun m => routeCommand br (orders m.2) m.1)

/-- The metric asks the node for a rebirth. -/
def asksRebirth (m : Metric F32 F64) : Bool :=
  m.name = "Node Control/Rebirth" &&
    match m.value with
    | some (.bool b) => b
    | _ => false

/-- The node's `handleCommand` for a DCMD, from the decoded payload on; a
command without a device is one for the node, which the bridge only logs. -/
def handleDcmd (br : Bridge F32 F64) (orders : Nat → List String × List String)
    (deviceID : String) (metrics : List (Metric F32 F64)) : List (BusMessage (JsonData F32 F64)) :=
  if metrics.any asksRebirth then []
  else if deviceID = "" then []
  else handleDeviceCommand br orders deviceID metrics

end Bridge

/-- What the gateway publishes for the messages, and for what it publishes
itself, within `n` rounds of deliveries. -/
def commands {D : Type} (gw : Gateway F64) (orders : Nat → List String) :
    Nat → List (BusMessage D) → List (BusMessage D)
  | 0, _ => []
  | n + 1, msgs =>
    let out := msgs.flatMap (fun msg => (GatewayVariables.handleCommand gw (orders n) msg).toList)
    out ++ commands gw orders n out

/-- The bridge as the gateway feeds it: it loads what the gateway answers, and
receives what the gateway publishes. -/
inductive Fed [GoFloats F32 F64] [GoFloat64 F64] : Bridge F32 F64 → Prop where
  | new (moduleID : String) (useTemplates : Bool) (primaryHostID : String) :
      Fed (newBridge moduleID useTemplates primaryHostID)
  | load {br : Bridge F32 F64} (gw : Gateway F64) (v : VariableInfo F64) :
      Fed br → v ∈ variablesResponse gw → Fed (loadVariable br v)
  | data {br : Bridge F32 F64} (msg : PlcDataMessage F64) (nowMs : Nat) :
      Fed br → msg.moduleID = gatewayModuleID → Fed (handleDataMessage msg nowMs br).1
  | reset {br : Bridge F32 F64} : Fed br → Fed (resetRBEStates br)

/-- The gateway's bidirectional variable of the device and ID. -/
def Target (gw : Gateway F64) (deviceID id : String) (tv : TrackedVariable F64) : Prop :=
  ∃ key, gw.tracked.lookup key = some tv ∧ tv.config.bidirectional = true ∧
    tv.config.deviceID = deviceID ∧ tv.config.id = id

section Routing

variable [GoFloats F32 F64]

/-- One command with the metric's value for the tag of the variable it names,
or none if it names no variable. -/
def Expected (gw : Gateway F64) (deviceID : String) (m : Metric F32 F64)
    (cmds : List (BusMessage (JsonData F32 F64))) : Prop :=
  (∃ tv subject, Target gw deviceID m.name tv ∧
    scannerSubject gw tv.config.deviceID tv.config.tag = some subject ∧
    cmds = [⟨subject, some (sparkplugValueToJSON m.value)⟩]) ∨
  ((∀ tv, ¬ Target gw deviceID m.name tv) ∧ cmds = [])

/-- A DCMD with the one metric leads to what is expected, in whatever orders the
loops over the maps take them and however long one waits. -/
def Routed (gw : Gateway F64) (br : Bridge F32 F64) (deviceID : String) (m : Metric F32 F64) :
    Prop :=
  ∀ (bridgeOrders : Nat → List String × List String) (gatewayOrders : Nat → List String),
    (∀ i, (bridgeOrders i).1.Perm br.plcVariables.keys ∧
      (bridgeOrders i).2.Perm br.plcVariables.keys) →
    (∀ n, (gatewayOrders n).Perm gw.tracked.keys) →
    ∀ n, 1 ≤ n →
      Expected gw deviceID m (commands gw gatewayOrders n (handleDcmd br bridgeOrders deviceID [m]))

/-- The bridge has a variable with the ID. -/
def known (br : Bridge F32 F64) (id : String) : Bool :=
  br.plcVariables.entries.any (fun e => e.2.id = id)

/-- The name under which the bridge passes on a metric: its own, or else its
last segment. -/
def resolve (br : Bridge F32 F64) (name : String) : Option String :=
  if known br name then some name
  else if known br (lastSegment name) then some (lastSegment name)
  else none

/-- The name under which a DCMD comes to the gateway, if it does. -/
def reached (br : Bridge F32 F64) (deviceID : String) (m : Metric F32 F64) : Option String :=
  if asksRebirth m || deviceID = "" then none else resolve br m.name

/-- The scanner subjects of the bidirectional variables of the device and ID. -/
def targets (gw : Gateway F64) (deviceID id : String) : List String :=
  (gw.tracked.entries.filter (fun e => e.2.config.bidirectional && e.2.config.deviceID = deviceID &&
    e.2.config.id = id)).filterMap
      (fun e => scannerSubject gw e.2.config.deviceID e.2.config.tag)

/-- A message under the subject does not come back to the gateway as a command
that it answers. -/
def quiet (gw : Gateway F64) (subject : String) : Bool :=
  match commandTag subject with
  | some cmdTag => (answers gw cmdTag).isEmpty
  | none => true

/-- The name under which the command comes to the gateway is answered for the
named variable only, once, and with the value; where no variable is named, it
is not answered. -/
def Matching (gw : Gateway F64) (br : Bridge F32 F64) (deviceID : String) (m : Metric F32 F64) :
    Prop :=
  match reached br deviceID m with
  | none => targets gw deviceID m.name = []
  | some name =>
    if targets gw deviceID m.name = [] then answers gw name = []
    else
      (sparkplugValueToJSON m.value).all valueMarshals = true ∧ answers gw name ≠ [] ∧
        ∀ subject ∈ answers gw name, subject ∈ targets gw deviceID m.name ∧ quiet gw subject = true

instance Matching.decidable (gw : Gateway F64) (br : Bridge F32 F64) (deviceID : String)
    (m : Metric F32 F64) : Decidable (Matching gw br deviceID m) := by
  unfold Matching
  split <;> infer_instance

/-- A value that is not a template. -/
def scalar (value : Option (Value F32 F64 (Template F32 F64 (Metric F32 F64)))) : Bool :=
  match value with
  | some (.bool _) | some (.int _ _) | some (.float32 _) | some (.float64 _)
  | some (.string _) => true
  | _ => false

end Routing

/-- A name is known when a variable of the bridge carries it. -/
theorem known_iff (br : Bridge F32 F64) (id : String) :
    known br id = true ↔ ∃ key pv, br.plcVariables.lookup key = some pv ∧ pv.id = id := by
  simp only [known, List.any_eq_true, decide_eq_true_eq]
  constructor
  · rintro ⟨⟨key, pv⟩, he, hid⟩
    exact ⟨key, pv, (mem_entries_iff _ _ _).mp he, hid⟩
  · rintro ⟨key, pv, hpv, hid⟩
    exact ⟨⟨key, pv⟩, (mem_entries_iff _ _ _).mpr hpv, hid⟩

/-- A loop for an ID ends at a variable with the ID, if the bridge has one. -/
theorem firstMatch_id {br : Bridge F32 F64} {order : List String}
    (horder : order.Perm br.plcVariables.keys) (id : String) :
    if known br id then
      ∃ key pv, firstMatch br.plcVariables order (·.id = id) = some pv ∧
        br.plcVariables.lookup key = some pv ∧ pv.id = id
    else firstMatch br.plcVariables order (·.id = id) = none := by
  split
  · rename_i hknown
    cases hfirst : firstMatch br.plcVariables order (·.id = id) with
    | none =>
      obtain ⟨key, pv, hpv, hid⟩ := (known_iff br id).mp hknown
      have hall := (firstMatch_eq_none_iff horder _).mp hfirst key pv hpv
      simp [hid] at hall
    | some pv =>
      obtain ⟨hid, key, hpv⟩ := firstMatch_eq_some hfirst
      exact ⟨key, pv, rfl, hpv, by simpa using hid⟩
  · rename_i hknown
    rw [firstMatch_eq_none_iff horder]
    intro key pv hpv
    have hid : pv.id ≠ id := fun hid => hknown ((known_iff br id).mpr ⟨key, pv, hpv, hid⟩)
    simpa using hid

section Gateways

variable {D : Type} {gw : Gateway F64}

@[simp] theorem commands_nil (gw : Gateway F64) (orders : Nat → List String) (n : Nat) :
    commands gw orders n ([] : List (BusMessage D)) = [] := by
  induction n with
  | zero => rfl
  | succ n ih => simpa [commands] using ih

theorem commands_none {orders : Nat → List String} {n : Nat} {msg : BusMessage D}
    (h : handleCommand gw (orders n) msg = none) : commands gw orders (n + 1) [msg] = [] := by
  simp [commands, h]

theorem commands_some {orders : Nat → List String} {n : Nat} {msg out : BusMessage D}
    (h : handleCommand gw (orders n) msg = some out) :
    commands gw orders (n + 1) [msg] = out :: commands gw orders n [out] := by
  simp [commands, h]

/-- A target is the scanner subject of a tracked variable that the command names. -/
theorem mem_targets {deviceID id subject : String} :
    subject ∈ targets gw deviceID id ↔
      ∃ tv, Target gw deviceID id tv ∧
        scannerSubject gw tv.config.deviceID tv.config.tag = some subject := by
  simp only [targets, List.mem_filterMap, List.mem_filter, Bool.and_eq_true, decide_eq_true_eq]
  constructor
  · rintro ⟨⟨key, tv⟩, ⟨he, ⟨hbi, hdevice⟩, hid⟩, hsubject⟩
    exact ⟨tv, ⟨key, (mem_entries_iff _ _ _).mp he, hbi, hdevice, hid⟩, hsubject⟩
  · rintro ⟨tv, ⟨key, htv, hbi, hdevice, hid⟩, hsubject⟩
    exact ⟨⟨key, tv⟩, ⟨(mem_entries_iff _ _ _).mpr htv, ⟨hbi, hdevice⟩, hid⟩, hsubject⟩

/-- On known devices no subject means no target. -/
theorem targets_eq_nil_iff (hgw : DevicesKnown gw) {deviceID id : String} :
    targets gw deviceID id = [] ↔ ∀ tv, ¬ Target gw deviceID id tv := by
  constructor
  · intro hnil tv htv
    have ⟨key, hlookup, _⟩ := htv
    obtain ⟨subject, hsubject⟩ :=
      Option.isSome_iff_exists.mp (hgw key tv hlookup tv.config.tag)
    have hmem := mem_targets.mpr ⟨tv, htv, hsubject⟩
    simp [hnil] at hmem
  · intro hnone
    rw [List.eq_nil_iff_forall_not_mem]
    intro subject hsubject
    obtain ⟨tv, htv, -⟩ := mem_targets.mp hsubject
    exact hnone tv htv

/-- Whether the gateway answers its own message does not depend on the order. -/
theorem quiet_iff (hgw : DevicesKnown gw) {order : List String}
    (horder : order.Perm gw.tracked.keys) (msg : BusMessage D) :
    quiet gw msg.subject = true ↔ handleCommand gw order msg = none := by
  unfold quiet
  cases htag : commandTag msg.subject with
  | none => simp [handleCommand, htag]
  | some cmdTag =>
    simp only [List.isEmpty_iff]
    constructor
    · intro hnil
      cases hout : handleCommand gw order msg with
      | none => rfl
      | some out =>
        obtain ⟨cmdTag', htag', hmem, -⟩ := handleCommand_mem horder hout
        rw [htag, Option.some.injEq] at htag'
        subst htag'
        simp [hnil] at hmem
    · intro hnone
      by_contra hne
      have hsome := handleCommand_isSome hgw horder msg htag hne
      simp [hnone] at hsome

end Gateways

section Expectations

variable [GoFloats F32 F64] {gw : Gateway F64} {deviceID : String} {m : Metric F32 F64}

theorem expected_nil_iff (hgw : DevicesKnown gw) :
    Expected gw deviceID m [] ↔ targets gw deviceID m.name = [] := by
  rw [targets_eq_nil_iff hgw]
  simp [Expected]

/-- One message answers a command: on a target's subject, with the value as JSON. -/
theorem expected_cons_iff {out : BusMessage (JsonData F32 F64)}
    {more : List (BusMessage (JsonData F32 F64))} :
    Expected gw deviceID m (out :: more) ↔
      out.subject ∈ targets gw deviceID m.name ∧ out.data = some (sparkplugValueToJSON m.value) ∧
        more = [] := by
  obtain ⟨subject, data⟩ := out
  rw [mem_targets]
  simp only [Expected, List.cons.injEq, BusMessage.mk.injEq, reduceCtorEq, and_false, or_false]
  constructor
  · rintro ⟨tv, subject', htv, hsubject, ⟨rfl, rfl⟩, rfl⟩
    exact ⟨⟨tv, htv, hsubject⟩, rfl, rfl⟩
  · rintro ⟨⟨tv, htv, hsubject⟩, rfl, rfl⟩
    exact ⟨tv, subject, htv, hsubject, ⟨rfl, rfl⟩, rfl⟩

theorem commandData_eq_some_iff (m : Metric F32 F64) :
    commandData m.value = some (sparkplugValueToJSON m.value) ↔
      (sparkplugValueToJSON m.value).all valueMarshals = true := by
  simp [commandData]

/-- The gateway is expected to answer, if at all, with one command for a target. -/
theorem expected_answers {name : String} {data : JsonData F32 F64} (hgw : DevicesKnown gw)
    (h : ∀ orders : Nat → List String, (∀ n, (orders n).Perm gw.tracked.keys) → ∀ n, 1 ≤ n →
      Expected gw deviceID m (commands gw orders n [⟨command gatewayModuleID name, data⟩])) :
    ∀ subject ∈ answers gw name, subject ∈ targets gw deviceID m.name ∧
      data = some (sparkplugValueToJSON m.value) ∧ quiet gw subject = true := by
  intro subject hsubject
  obtain ⟨order, horder, hout⟩ := exists_order_handleCommand
    ⟨command gatewayModuleID name, data⟩ (commandTag_command name) hsubject
  -- the second round, in any order, is where an echo would show
  have htwo := h (fun n => if n = 1 then order else gw.tracked.keys)
    (fun n => by split <;> [exact horder; exact .refl _]) 2 (by decide)
  rw [commands_some (n := 1) hout, expected_cons_iff] at htwo
  obtain ⟨hmem, hdata, hrest⟩ := htwo
  refine ⟨hmem, hdata, (quiet_iff hgw (.refl _) ⟨subject, data⟩).mpr ?_⟩
  cases hecho : handleCommand gw gw.tracked.keys ⟨subject, data⟩ with
  | none => rfl
  | some out =>
    rw [commands_some (n := 0) hecho] at hrest
    cases hrest

/-- A command that no variable of the gateway answers has no target either. -/
theorem expected_answers_ne_nil {name : String} {data : JsonData F32 F64} (hgw : DevicesKnown gw)
    (h : ∀ orders : Nat → List String, (∀ n, (orders n).Perm gw.tracked.keys) → ∀ n, 1 ≤ n →
      Expected gw deviceID m (commands gw orders n [⟨command gatewayModuleID name, data⟩]))
    (hnil : answers gw name = []) : targets gw deviceID m.name = [] := by
  have hone := h (fun _ => gw.tracked.keys) (fun _ => .refl _) 1 (le_refl 1)
  have hquiet : quiet gw (command gatewayModuleID name) = true := by
    rw [quiet, commandTag_command]
    simp [hnil]
  have hnone : handleCommand gw gw.tracked.keys
      (⟨command gatewayModuleID name, data⟩ : BusMessage (JsonData F32 F64)) = none :=
    (quiet_iff hgw (.refl _) _).mp hquiet
  rw [commands_none (n := 0) hnone, expected_nil_iff hgw] at hone
  exact hone

/-- What the gateway makes of a command is what is expected, for every order and
every number of rounds. -/
theorem answered_iff {name : String} {data : JsonData F32 F64} (hgw : DevicesKnown gw) :
    (∀ orders : Nat → List String, (∀ n, (orders n).Perm gw.tracked.keys) → ∀ n, 1 ≤ n →
      Expected gw deviceID m (commands gw orders n [⟨command gatewayModuleID name, data⟩])) ↔
    if targets gw deviceID m.name = [] then answers gw name = []
    else
      data = some (sparkplugValueToJSON m.value) ∧ answers gw name ≠ [] ∧
        ∀ subject ∈ answers gw name,
          subject ∈ targets gw deviceID m.name ∧ quiet gw subject = true := by
  constructor
  · intro h
    have hall := expected_answers hgw h
    split
    · rename_i hnone
      rw [List.eq_nil_iff_forall_not_mem]
      intro subject hsubject
      simpa [hnone] using (hall subject hsubject).1
    · rename_i htargets
      have hne : answers gw name ≠ [] := fun hnil => htargets (expected_answers_ne_nil hgw h hnil)
      obtain ⟨subject, hsubject⟩ := List.exists_mem_of_ne_nil _ hne
      exact ⟨(hall subject hsubject).2.1, hne,
        fun subject hsubject => ⟨(hall subject hsubject).1, (hall subject hsubject).2.2⟩⟩
  · intro h orders horders n hn
    obtain ⟨n, rfl⟩ := Nat.exists_eq_add_of_le' hn
    cases hout : handleCommand gw (orders n)
        (⟨command gatewayModuleID name, data⟩ : BusMessage (JsonData F32 F64)) with
    | none =>
      rw [commands_none hout, expected_nil_iff hgw]
      by_contra htargets
      rw [if_neg htargets] at h
      have hsome := handleCommand_isSome hgw (horders n)
        ⟨command gatewayModuleID name, data⟩ (commandTag_command name) h.2.1
      simp [hout] at hsome
    | some out =>
      obtain ⟨cmdTag, htag, hmem, hdata⟩ := handleCommand_mem (horders n) hout
      rw [commandTag_command, Option.some.injEq] at htag
      subst htag
      rw [commands_some hout, expected_cons_iff]
      split at h
      · simp [h] at hmem
      · obtain ⟨hvalue, -, hall⟩ := h
        obtain ⟨htarget, hquiet⟩ := hall _ hmem
        refine ⟨htarget, hdata.trans hvalue, ?_⟩
        cases n with
        | zero => rfl
        | succ n => exact commands_none ((quiet_iff hgw (horders n) out).mp hquiet)

end Expectations

section EndToEnd

variable [GoFloats F32 F64] [GoFloat64 F64]

/-- Whatever the bridge tracks is the gateway's. -/
theorem Fed.moduleID {br : Bridge F32 F64} (h : Fed br) :
    ∀ key pv, br.plcVariables.lookup key = some pv → pv.moduleID = gatewayModuleID := by
  induction h with
  | new moduleID useTemplates primaryHostID =>
    intro key pv hpv
    simp [newBridge] at hpv
  | load gw v _ hv ih =>
    rw [loadVariable_plcVariables]
    apply forall_lookup_insert ih
    simp only [variablesResponse, List.mem_append, List.mem_map] at hv
    rcases hv with ⟨e, -, rfl⟩ | ⟨e, -, rfl⟩ <;> rfl
  | data msg nowMs _ hmsg ih =>
    rename_i br _
    by_cases hc : considers br msg = true
    · rw [handleDataMessage_plcVariables msg nowMs br hc]
      apply forall_lookup_insert ih
      obtain ⟨rbeState, states, heq⟩ := checkRBE_eq (updateVariable
        ((br.plcVariables.lookup (msgKey msg)).getD (newVariable msg)) msg) msg nowMs
      rw [heq]
      cases hold : br.plcVariables.lookup (msgKey msg) with
      | none => exact hmsg
      | some old => exact ih _ old hold
    · rw [handleDataMessage, if_pos (by simpa using hc)]
      exact ih
  | reset _ ih =>
    intro key pv hpv
    rw [resetRBEStates, lookup_mapValues, Option.map_eq_some_iff] at hpv
    obtain ⟨old, hold, rfl⟩ := hpv
    exact ih key old hold

/-- The bridge passes a scalar on under the name that it resolves to. -/
theorem routeCommand_scalar {br : Bridge F32 F64} (hbr : Fed br)
    {orders : List String × List String} (h₁ : orders.1.Perm br.plcVariables.keys)
    (h₂ : orders.2.Perm br.plcVariables.keys) {m : Metric F32 F64} (hm : scalar m.value = true) :
    routeCommand br orders m = (resolve br m.name).toList.map (fun name =>
      ⟨command gatewayModuleID name, commandData m.value⟩) := by
  have hpublish : ∀ key pv, br.plcVariables.lookup key = some pv →
      (match m.value with
        | some (.template t) => t.metrics.map (fun member => (⟨command pv.moduleID
            (pv.id ++ "/" ++ member.name), commandData member.value⟩ :
              BusMessage (JsonData F32 F64)))
        | value => [⟨command pv.moduleID pv.id, commandData value⟩]) =
      [⟨command gatewayModuleID pv.id, commandData m.value⟩] := by
    intro key pv hpv
    rw [hbr.moduleID key pv hpv]
    split
    · rename_i t ht
      simp [ht, scalar] at hm
    · rfl
  have hfirst := firstMatch_id h₁ m.name
  have hsecond := firstMatch_id h₂ (lastSegment m.name)
  unfold resolve routeCommand
  by_cases hname : known br m.name = true
  · rw [if_pos hname] at hfirst
    obtain ⟨key, pv, hpv, hlookup, hid⟩ := hfirst
    rw [hpv, Option.some_or, if_pos hname]
    simp only
    rw [hpublish key pv hlookup, hid]
    rfl
  · rw [if_neg hname] at hfirst
    rw [hfirst, Option.none_or, if_neg hname]
    by_cases hlast : known br (lastSegment m.name) = true
    · rw [if_pos hlast] at hsecond
      obtain ⟨key, pv, hpv, hlookup, hid⟩ := hsecond
      rw [hpv, if_pos hlast]
      simp only
      rw [hpublish key pv hlookup, hid]
      rfl
    · rw [if_neg hlast] at hsecond
      rw [hsecond, if_neg hlast]
      rfl

/-- A scalar metric gives one command, to the variable that it reaches. -/
theorem handleDcmd_scalar {br : Bridge F32 F64} (hbr : Fed br)
    {orders : Nat → List String × List String}
    (horders : ∀ i, (orders i).1.Perm br.plcVariables.keys ∧ (orders i).2.Perm br.plcVariables.keys)
    (deviceID : String) {m : Metric F32 F64} (hm : scalar m.value = true) :
    handleDcmd br orders deviceID [m] = (reached br deviceID m).toList.map (fun name =>
      ⟨command gatewayModuleID name, commandData m.value⟩) := by
  unfold handleDcmd reached
  by_cases hrebirth : asksRebirth m = true
  · simp [hrebirth]
  · by_cases hdevice : deviceID = ""
    · simp [hrebirth, hdevice]
    · simp only [List.any_cons, hrebirth, List.any_nil, Bool.or_false, Bool.false_eq_true, if_false,
        hdevice, decide_false, handleDeviceCommand, List.zipIdx_cons, List.zipIdx_nil,
        List.flatMap_cons, List.flatMap_nil, List.append_nil]
      exact routeCommand_scalar hbr (horders 0).1 (horders 0).2 hm

/-- A command is routed right exactly if the variable that it reaches matches it. -/
theorem routed_iff {gw : Gateway F64} (hgw : DevicesKnown gw) {br : Bridge F32 F64} (hbr : Fed br)
    (deviceID : String) {m : Metric F32 F64} (hm : scalar m.value = true) :
    Routed gw br deviceID m ↔ Matching gw br deviceID m := by
  have hkeys : ∀ _ : Nat, br.plcVariables.keys.Perm br.plcVariables.keys ∧
      br.plcVariables.keys.Perm br.plcVariables.keys := fun _ => ⟨.refl _, .refl _⟩
  have hrouted : Routed gw br deviceID m ↔
      ∀ orders : Nat → List String, (∀ n, (orders n).Perm gw.tracked.keys) → ∀ n, 1 ≤ n →
        Expected gw deviceID m (commands gw orders n ((reached br deviceID m).toList.map
          (fun name => ⟨command gatewayModuleID name, commandData m.value⟩))) := by
    constructor
    · intro h orders horders n hn
      have hn' := h (fun _ => (br.plcVariables.keys, br.plcVariables.keys)) orders hkeys horders
        n hn
      rwa [handleDcmd_scalar hbr hkeys deviceID hm] at hn'
    · intro h bridgeOrders orders hbridge horders n hn
      rw [handleDcmd_scalar hbr hbridge deviceID hm]
      exact h orders horders n hn
  rw [hrouted, Matching]
  cases reached br deviceID m with
  | none =>
    simp only [Option.toList_none, List.map_nil, commands_nil, expected_nil_iff hgw]
    constructor
    · intro h
      exact h (fun _ => gw.tracked.keys) (fun _ => .refl _) 1 (le_refl 1)
    · intro h _ _ _ _
      exact h
  | some name =>
    simp only [Option.toList_some, List.map_cons, List.map_nil]
    rw [answered_iff hgw, commandData_eq_some_iff]

/-- For every gateway config and every bridge that the gateway feeds, a DCMD
with a scalar leads to exactly the command that it should, in every order of
the maps, exactly when the names match. -/
theorem routed_iff_matching (config : GatewayConfig F64) (br : Bridge F32 F64) (hbr : Fed br)
    (deviceID : String) (m : Metric F32 F64) (hm : scalar m.value = true) :
    Routed (applyConfig config) br deviceID m ↔ Matching (applyConfig config) br deviceID m :=
  routed_iff (applyConfig_devicesKnown config) hbr deviceID hm

/-- The variables of the gateway's answer leave the bridge fed. -/
theorem loaded_fed {br : Bridge F32 F64} (hbr : Fed br) (gw : Gateway F64)
    {vs : List (VariableInfo F64)} (hvs : ∀ v ∈ vs, v ∈ variablesResponse gw) :
    Fed (vs.foldl loadVariable br) := by
  induction vs generalizing br with
  | nil => exact hbr
  | cons v vs ih =>
    exact ih (.load gw v hbr (hvs v List.mem_cons_self))
      (fun w hw => hvs w (List.mem_cons_of_mem v hw))

end EndToEnd

section Plants

/-- Variables of two controllers with different protocols. -/
def plant (vars : List (GatewayVariableConfig ℚ)) : GatewayConfig ℚ :=
  { devices := [⟨"plc1", { protocol := "ethernetip" }⟩, ⟨"plc2", { protocol := "modbus" }⟩].toAList
    variableConfigs := (vars.map (fun v => ⟨v.deviceID ++ "/" ++ v.id, v⟩)).toAList
    udtTemplates := ∅
    udtVariables := ∅ }

def writable (deviceID id tag : String) : GatewayVariableConfig ℚ :=
  { id := id, deviceID := deviceID, tag := tag, datatype := "number", bidirectional := true }

/-- A bridge that has loaded the gateway's variables. -/
def loaded (config : GatewayConfig ℚ) : Bridge ℚ ℚ :=
  (variablesResponse (applyConfig config)).foldl loadVariable (newBridge "mqtt" false "")

def setpoint (id : String) : Metric ℚ ℚ :=
  { name := id, datatype := .double, value := some (.float64 5) }

/-- An ID that is the sanitised tag, on one controller only. -/
theorem sanitised_command_routed :
    targets (applyConfig (plant [writable "plc1" "Motor_Speed" "Motor.Speed"])) "plc1"
        "Motor_Speed" = ["ethernetip.command.Motor.Speed"] ∧
      Routed (applyConfig (plant [writable "plc1" "Motor_Speed" "Motor.Speed"]))
        (loaded (plant [writable "plc1" "Motor_Speed" "Motor.Speed"])) "plc1"
        (setpoint "Motor_Speed") := by
  refine ⟨by decide +kernel, (routed_iff_matching _ _ ?_ _ _ rfl).mpr (by decide +kernel)⟩
  exact loaded_fed (.new "mqtt" false "") _ (fun v hv => hv)

/-- Two controllers share the ID and the tag: a command for one of them may go
to the other. -/
theorem shared_command_misrouted :
    ¬ ∀ (config : GatewayConfig ℚ) (br : Bridge ℚ ℚ), Fed br →
      ∀ (deviceID : String) (m : Metric ℚ ℚ), scalar m.value = true →
        Routed (applyConfig config) br deviceID m := by
  intro h
  let config := plant [writable "plc1" "Speed" "Speed", writable "plc2" "Speed" "Speed"]
  have hfed : Fed (loaded config) := loaded_fed (.new "mqtt" false "") _ (fun v hv => hv)
  have hrouted := h config (loaded config) hfed "plc2" (setpoint "Speed") rfl
  rw [routed_iff (applyConfig_devicesKnown config) hfed "plc2" rfl] at hrouted
  exact absurd hrouted (by decide +kernel)

end Plants

end CommandRouting
