import Mathlib.Algebra.Order.Ring.Rat
import Mathlib.Data.List.Dedup
import Tentacle.MqttBridge
import Tentacle.Runs

/-!
# Member deadbands of a template metric

A UDT value goes out whole as soon as one of its members passes its exception
check, but only the members that pass are recorded. The other members are
transmitted without a record, so their next check compares with a value that is
no longer the last one the host has seen. The node is born and online
throughout, so what the bridge sends is transmitted; arithmetic is exact.
-/

namespace UdtRbe

open GoValues SparkplugPayload Rbe MqttBridge

section Members

variable {F64 : Type} [GoFloat64 F64]

/-- The exception check of one member against the given states. -/
def memberPasses (pv : PlcVariable F64) (nowMs : Nat) (states : GoMap String (State F64))
    (name : String) (value : Json F64) : Bool :=
  shouldPublish ((states.lookup name).getD {}) value nowMs (pv.memberDeadbands.lookup name)
    pv.disableRBE

/-- The state of a member after its turn of the loop. -/
def memberState (pv : PlcVariable F64) (nowMs : Nat) (states : GoMap String (State F64))
    (name : String) (value : Json F64) : State F64 :=
  if memberPasses pv nowMs states name value then recordPublish value nowMs
  else (states.lookup name).getD {}

theorem memberStep_eq (pv : PlcVariable F64) (nowMs : Nat)
    (acc : GoMap String (State F64) × Bool) (name : String) (value : Json F64) :
    memberStep pv nowMs acc name value = (acc.1.insert name (memberState pv nowMs acc.1 name value),
      memberPasses pv nowMs acc.1 name value || acc.2) := by
  unfold memberStep memberState
  cases h : memberPasses pv nowMs acc.1 name value <;> simp_all [memberPasses]

/-- A turn for one member does not touch what decides another. -/
theorem memberPasses_insert {pv : PlcVariable F64} {nowMs : Nat} {states : GoMap String (State F64)}
    {name other : String} (h : name ≠ other) (state : State F64) (value : Json F64) :
    memberPasses pv nowMs (states.insert other state) name value =
      memberPasses pv nowMs states name value := by
  simp [memberPasses, AList.lookup_insert_ne h]

theorem memberState_insert {pv : PlcVariable F64} {nowMs : Nat} {states : GoMap String (State F64)}
    {name other : String} (h : name ≠ other) (state : State F64) (value : Json F64) :
    memberState pv nowMs (states.insert other state) name value =
      memberState pv nowMs states name value := by
  simp [memberState, memberPasses_insert h, AList.lookup_insert_ne h]

/-- The loop over the members takes each of them against the states before it. -/
theorem foldl_memberStep (pv : PlcVariable F64) (nowMs : Nat)
    (ms : List (Sigma fun _ : String => Json F64)) (hms : ms.NodupKeys)
    (acc : GoMap String (State F64) × Bool) :
    (∀ name, (ms.foldl (fun acc m => memberStep pv nowMs acc m.1 m.2) acc).1.lookup name =
      match ms.dlookup name with
      | some value => some (memberState pv nowMs acc.1 name value)
      | none => acc.1.lookup name) ∧
    ((ms.foldl (fun acc m => memberStep pv nowMs acc m.1 m.2) acc).2 = true ↔
      (∃ m ∈ ms, memberPasses pv nowMs acc.1 m.1 m.2 = true) ∨ acc.2 = true) := by
  induction ms generalizing acc with
  | nil => simp
  | cons m ms ih =>
    obtain ⟨name, value⟩ := m
    obtain ⟨hnotin, hrest⟩ := List.nodupKeys_cons.mp hms
    obtain ⟨hstates, hflag⟩ := ih hrest (memberStep pv nowMs acc name value)
    rw [List.foldl_cons]
    constructor
    · intro other
      rw [hstates other, memberStep_eq]
      by_cases ho : other = name
      · subst ho
        have hnone : ms.dlookup other = none := List.dlookup_eq_none.mpr hnotin
        simp [hnone]
      · rw [List.dlookup_cons_ne _ _ ho]
        cases ms.dlookup other with
        | none => simp [AList.lookup_insert_ne ho]
        | some v => simp [memberState_insert ho]
    · rw [hflag, memberStep_eq]
      have hsame : ∀ m ∈ ms, memberPasses pv nowMs
          (acc.1.insert name (memberState pv nowMs acc.1 name value)) m.1 m.2 =
            memberPasses pv nowMs acc.1 m.1 m.2 := by
        intro m hm
        have hne : m.1 ≠ name := by
          intro he
          have hkey := List.mem_keys_of_mem hm
          exact hnotin (he ▸ hkey)
        exact memberPasses_insert hne _ _
      constructor
      · rintro (⟨m, hm, hp⟩ | hacc)
        · exact .inl ⟨m, List.mem_cons_of_mem _ hm, hsame m hm ▸ hp⟩
        · rcases Bool.or_eq_true_iff.mp hacc with hp | hp
          · exact .inl ⟨_, List.mem_cons_self, hp⟩
          · exact .inr hp
      · rintro (⟨m, hm, hp⟩ | hacc)
        · rcases List.mem_cons.mp hm with rfl | hm
          · exact .inr (by simp [hp])
          · exact .inl ⟨m, hm, (hsame m hm).symm ▸ hp⟩
        · exact .inr (by simp [hacc])

end Members

/-- A template metric: whose it is, and a template with numeric members. -/
structure Udt where
  bridgeID : String
  moduleID : String
  deviceID : String
  variableID : String
  template : UdtTemplateDefinition
  foreign : moduleID ≠ bridgeID
  numeric : ∀ m ∈ template.members, m.datatype = "number"

/-- What varies between the messages of one template metric. -/
structure UdtMessage where
  members : GoMap String ℚ
  memberDeadbands : Option (GoMap String ℚ) := none
  deadband : Option (DeadBandConfig ℚ) := none
  disableRBE : Bool := false

def numbers (members : GoMap String ℚ) : Json ℚ :=
  .object (members.entries.map (fun e => (e.1, .number e.2)))

/-- A deadband with no minimum and no maximum time. -/
def untimed (x : ℚ) : DeadBandConfig ℚ := ⟨x, 0, 0⟩

namespace Udt

variable (u : Udt)

def key : String := variableKey u.moduleID u.deviceID u.variableID

def device : String := if u.deviceID = "" then u.bridgeID else u.deviceID

def message (msg : UdtMessage) : PlcDataMessage ℚ :=
  { moduleID := u.moduleID
    deviceID := u.deviceID
    variableID := u.variableID
    value := numbers msg.members
    datatype := "udt"
    deadband := msg.deadband
    disableRBE := msg.disableRBE
    udtTemplate := some u.template
    memberDeadbands := msg.memberDeadbands.map (mapValues untimed) }

/-- The variable as the answer to the request for all variables has it. -/
def info (msg : UdtMessage) : VariableInfo ℚ :=
  { moduleID := u.moduleID
    deviceID := u.deviceID
    variableID := u.variableID
    value := numbers msg.members
    datatype := "udt"
    deadband := msg.deadband
    disableRBE := msg.disableRBE
    udtTemplate := some u.template }

end Udt

/-- The bridge, and the device and metrics of each DBIRTH and DDATA so far. -/
structure System where
  bridge : Bridge ℚ ℚ
  sent : List (String × List (Metric ℚ ℚ))

inductive Action where
  | message (msg : UdtMessage) (nowMs : Nat)
  | birth (nowMs : Nat)
  | load (msg : UdtMessage)

/-- A message that is let through is a DDATA; a birth sends the DBIRTHs of what
`buildDeviceMetrics` collects, after `resetRBEStates`. -/
def step (u : Udt) (s : System) : Action → Option System
  | .message msg nowMs =>
    match handleDataMessage (u.message msg) nowMs s.bridge with
    | (br, .send deviceID metric) => some ⟨br, s.sent ++ [(deviceID, [metric])]⟩
    | (br, _) => some ⟨br, s.sent⟩
  | .birth nowMs =>
    some ⟨resetRBEStates s.bridge,
      s.sent ++ byDevice s.bridge (s.bridge.plcVariables.entries.map (·.2)) nowMs⟩
  | .load msg => some { s with bridge := loadVariable s.bridge (u.info msg) }

def initial (u : Udt) (primaryHostID : String) : System :=
  ⟨newBridge u.bridgeID true primaryHostID, []⟩

def number : Json ℚ → Option ℚ
  | .number x => some x
  | _ => none

/-- The value of the member in a template metric. -/
def memberValue (member : String) (m : Metric ℚ ℚ) : Option ℚ :=
  match m.value with
  | some (.template t) =>
    (t.metrics.find? (·.name = member)).bind fun x =>
      match x.value with
      | some (.float64 y) => some y
      | _ => none
  | _ => none

/-- The value of the member in a DBIRTH or DDATA, if it carries the metric. -/
def carried (u : Udt) (member : String) (sent : String × List (Metric ℚ ℚ)) : Option ℚ :=
  if sent.1 = u.device then
    sent.2.findSome? (fun m => if m.name = u.variableID then memberValue member m else none)
  else none

/-- The member's value in the last transmission with the metric and the member. -/
def transmitted (u : Udt) (s : System) (member : String) : Option ℚ :=
  s.sent.foldl (fun last tr => (carried u member tr).or last) none

def tracked (u : Udt) (s : System) : Option (PlcVariable ℚ) := s.bridge.plcVariables.lookup u.key

def current (u : Udt) (s : System) (member : String) : Option ℚ :=
  (tracked u s).bind fun pv => pv.value.members.bind fun ms => (ms.lookup member).bind number

def deadband (u : Udt) (s : System) (member : String) : Option ℚ :=
  (tracked u s).bind fun pv => (pv.memberDeadbands.lookup member).map (·.value)

/-- Every member with a deadband is within it of what was last transmitted. -/
def WithinDeadbands (u : Udt) (s : System) : Prop :=
  ∀ member db x y, deadband u s member = some db → current u s member = some x →
    transmitted u s member = some y → |x - y| ≤ db

/-- The variable as a message finds it at its exception check. -/
def checked (u : Udt) (s : System) (msg : UdtMessage) : PlcVariable ℚ :=
  updateVariable ((tracked u s).getD (newVariable (u.message msg))) (u.message msg)

def passes (pv : PlcVariable ℚ) (nowMs : Nat) (member : String) (x : ℚ) : Bool :=
  memberPasses pv nowMs pv.memberRBEStates member (.number x)

def recorded (pv : PlcVariable ℚ) (member : String) : Option ℚ :=
  (pv.memberRBEStates.lookup member).bind (fun state => Rbe.toFloat64 state.lastValue)

/-- Deadbands are not negative, and a message that goes out has in each member
with a deadband a value that passes or one that is recorded already. -/
def Uniform (u : Udt) (s : System) : Action → Prop
  | .message msg nowMs =>
    (∀ m ∈ msg.members.entries, ∀ db ∈ (checked u s msg).memberDeadbands.lookup m.1,
      0 ≤ db.value) ∧
    ((tracked u s).isSome →
      (∃ m ∈ msg.members.entries, passes (checked u s msg) nowMs m.1 m.2) →
        ∀ m ∈ msg.members.entries, ((checked u s msg).memberDeadbands.lookup m.1).isSome →
          passes (checked u s msg) nowMs m.1 m.2 ∨ recorded (checked u s msg) m.1 = some m.2)
  | _ => True

instance Uniform.decidable (u : Udt) (s : System) : (a : Action) → Decidable (Uniform u s a)
  | .message _ _ => by unfold Uniform; infer_instance
  | .birth _ | .load _ => isTrue trivial

section Exceptions

/-- A suppressed value has a record to be compared with. -/
theorem suppressed_recorded {state : State ℚ} {v : Json ℚ} {nowMs : Int}
    {db : Option (DeadBandConfig ℚ)} {disableRBE : Bool}
    (h : shouldPublish state v nowMs db disableRBE = false) :
    disableRBE = false ∧ state.lastTime ≠ 0 := by
  unfold shouldPublish at h
  split at h
  · cases h
  · rename_i hdis
    split at h
    · cases h
    · rename_i htime
      exact ⟨by simpa using hdis, htime⟩

/-- Without times, a suppressed number is within the deadband of the record. -/
theorem suppressed_within {state : State ℚ} {old x : ℚ} {nowMs : Int} {db : DeadBandConfig ℚ}
    {disableRBE : Bool} (hold : state.lastValue = .number old) (hmin : db.minTime = 0)
    (hmax : db.maxTime = 0)
    (h : shouldPublish state (.number x) nowMs (some db) disableRBE = false) :
    |x - old| ≤ db.value := by
  obtain ⟨hdis, htime⟩ := suppressed_recorded h
  simpa [shouldPublish, hdis, htime, hmin, hmax, hold, Rbe.toFloat64, GoFloat64.gt, GoFloat64.abs,
    GoFloat64.sub] using h

/-- Without a deadband, a suppressed number is the record. -/
theorem suppressed_same {state : State ℚ} {old x : ℚ} {nowMs : Int} {disableRBE : Bool}
    (hold : state.lastValue = .number old)
    (h : shouldPublish state (.number x) nowMs none disableRBE = false) : x = old := by
  obtain ⟨hdis, htime⟩ := suppressed_recorded h
  have heq : old = x := by
    simpa [shouldPublish, hdis, htime, hold, valuesEqual, Rbe.toFloat64, GoFloat64.eq]
      using h
  exact heq.symm

end Exceptions

section Values

theorem members_numbers (members : GoMap String ℚ) :
    ∃ ms, (numbers members).members = some ms ∧
      ∀ name, ms.lookup name = (members.lookup name).map Json.number := by
  refine ⟨_, rfl, ?_⟩
  intro name
  rw [AList.lookup_to_alist, List.map_map]
  exact List.dlookup_map₂ (f := fun _ => Json.number) name

/-- The members of the message that the template lists are in its metric. -/
theorem memberValue_udtToTemplateMetric (u : Udt) (pv : PlcVariable ℚ) (members : GoMap String ℚ)
    (nowMs : Nat) (member : String) :
    memberValue member (udtToTemplateMetric pv u.template (numbers members) nowMs) =
      if member ∈ u.template.members.map (·.name) then members.lookup member else none := by
  obtain ⟨ms, hms, hlookup⟩ := members_numbers members
  have hnumeric := u.numeric
  simp only [memberValue, udtToTemplateMetric, templateMembers, hms, hlookup]
  generalize u.template.members = defs at hnumeric ⊢
  induction defs with
  | nil => simp
  | cons mdef rest ih =>
    have htype : natsToSparkplugType mdef.datatype = .double := by
      rw [hnumeric mdef List.mem_cons_self]
      rfl
    have hrest := ih (fun m hm => hnumeric m (List.mem_cons_of_mem _ hm))
    cases hx : members.lookup mdef.name with
    | none =>
      simp only [List.filterMap_cons, hx, Option.map_none, hrest, List.map_cons, List.mem_cons]
      by_cases hm : member = mdef.name
      · subst hm
        simp [hx]
      · simp [hm]
    | some x =>
      simp only [List.filterMap_cons, hx, Option.map_some, List.find?_cons, List.map_cons,
        List.mem_cons]
      by_cases hm : mdef.name = member
      · subst hm
        simp [hx, htype, coerceValue]
      · simp only [hm, decide_false, hrest, Ne.symm hm, false_or]

end Values

section Steps

theorem registerTemplate_eq (tmpl : UdtTemplateDefinition) (br : Bridge ℚ ℚ) :
    ∃ templates rebirthTimer, registerTemplate tmpl br =
      { br with templates := templates, rebirthTimer := rebirthTimer } := by
  unfold registerTemplate scheduleRebirth
  split <;> exact ⟨_, _, rfl⟩

/-- The exception check changes only the states of the message's members, each
by its own check, and lets the message through when one member passes. -/
theorem checkRBE_message (u : Udt) (pv : PlcVariable ℚ) (msg : UdtMessage) (nowMs : Nat) :
    ∃ states, (checkRBE pv (u.message msg) nowMs).1 = { pv with memberRBEStates := states } ∧
      (∀ member, states.lookup member =
        match msg.members.lookup member with
        | some x => some (memberState pv nowMs pv.memberRBEStates member (.number x))
        | none => pv.memberRBEStates.lookup member) ∧
      ((checkRBE pv (u.message msg) nowMs).2 = true ↔
        ∃ m ∈ msg.members.entries, passes pv nowMs m.1 m.2 = true) := by
  obtain ⟨ms, hms, hlookup⟩ := members_numbers msg.members
  have hfold := foldl_memberStep pv nowMs ms.entries ms.nodupKeys (pv.memberRBEStates, false)
  simp only [checkRBE, Udt.message, if_true, shouldPublishUDT, hms]
  refine ⟨_, rfl, ?_, ?_⟩
  · intro member
    rw [hfold.1 member, show ms.entries.dlookup member = _ from hlookup member]
    cases msg.members.lookup member <;> rfl
  · rw [hfold.2]
    simp only [Bool.false_eq_true, or_false]
    constructor
    · rintro ⟨⟨member, v⟩, hm, hp⟩
      rw [mem_entries_iff, hlookup, Option.map_eq_some_iff] at hm
      obtain ⟨x, hx, rfl⟩ := hm
      exact ⟨⟨member, x⟩, (mem_entries_iff _ _ _).mpr hx, hp⟩
    · rintro ⟨⟨member, x⟩, hm, hp⟩
      refine ⟨⟨member, .number x⟩, ?_, hp⟩
      rw [mem_entries_iff] at hm ⊢
      rw [hlookup, hm, Option.map_some]

/-- The bridge reports the metric, and tracks nothing else. -/
structure Serves (u : Udt) (br : Bridge ℚ ℚ) : Prop where
  moduleID : br.moduleID = u.bridgeID
  enabled : br.enabled = true
  useTemplates : br.useTemplates = true
  only : ∀ k ∈ br.plcVariables, k = u.key

theorem Serves.reportedDevice {u : Udt} {br : Bridge ℚ ℚ} (h : Serves u br) :
    reportedDevice br u.deviceID = u.device := by
  simp [MqttBridge.reportedDevice, Udt.device, h.moduleID]

/-- A tracked variable is the only one in the list. -/
theorem Serves.entries {u : Udt} {br : Bridge ℚ ℚ} (h : Serves u br) :
    br.plcVariables.entries.map (·.2) = (br.plcVariables.lookup u.key).toList := by
  have honly : ∀ k ∈ br.plcVariables.entries.keys, k = u.key := h.only
  have hnodup := br.plcVariables.nodupKeys
  unfold AList.lookup
  generalize br.plcVariables.entries = es at honly hnodup ⊢
  rcases es with - | ⟨⟨key, pv⟩, - | ⟨⟨key', pv'⟩, rest⟩⟩
  · rfl
  · have hkey : key = u.key := honly key (by simp)
    subst hkey
    simp
  · have hkey : key = u.key := honly key (by simp)
    have hkey' : key' = u.key := honly key' (by simp)
    rw [List.nodupKeys_cons] at hnodup
    exact absurd (by simp [hkey, hkey']) hnodup.1

/-- Storing the metric's variable, whatever is registered. -/
theorem Serves.store {u : Udt} {br : Bridge ℚ ℚ} (h : Serves u br) (pv : PlcVariable ℚ)
    (templates : GoMap String (Template ℚ ℚ (Metric ℚ ℚ))) (rebirthTimer : Bool) :
    Serves u { br with
      plcVariables := br.plcVariables.insert u.key pv
      templates := templates
      rebirthTimer := rebirthTimer } := by
  refine ⟨h.moduleID, h.enabled, h.useTemplates, ?_⟩
  intro k hk
  rcases (AList.mem_insert _).mp hk with rfl | hk
  · rfl
  · exact h.only k hk

/-- What a message does: its variable is stored as checked, and goes out when
it was tracked and passes. -/
theorem step_message {u : Udt} {s t : System} (hs : Serves u s.bridge) {msg : UdtMessage}
    {nowMs : Nat} (ht : step u s (.message msg nowMs) = some t) :
    Serves u t.bridge ∧
      tracked u t = some (checkRBE (checked u s msg) (u.message msg) nowMs).1 ∧
      t.sent = s.sent ++
        if (tracked u s).isSome ∧ (checkRBE (checked u s msg) (u.message msg) nowMs).2 = true then
          [(u.device, [valueToMetric true (checkRBE (checked u s msg) (u.message msg) nowMs).1
            (numbers msg.members) nowMs])]
        else [] := by
  have hc : considers s.bridge (u.message msg) = true := by
    simp [considers, hs.enabled, hs.moduleID, Udt.message, u.foreign]
  obtain ⟨templates, timer, hreg⟩ := registerTemplate_eq u.template s.bridge
  have hmessage : registerMessageTemplate (u.message msg) s.bridge =
      registerTemplate u.template s.bridge := rfl
  have hkey : msgKey (u.message msg) = u.key := rfl
  have hchecked : updateVariable ((s.bridge.plcVariables.lookup (msgKey (u.message msg))).getD
      (newVariable (u.message msg))) (u.message msg) = checked u s msg := rfl
  simp only [step, handleDataMessage, hc, hmessage, hreg, hkey, hchecked, Bool.not_true,
    Bool.false_eq_true, if_false] at ht
  generalize checkRBE (checked u s msg) (u.message msg) nowMs = r at ht ⊢
  obtain ⟨pv, pass⟩ := r
  cases pass with
  | false =>
    cases ht
    exact ⟨hs.store pv templates timer, AList.lookup_insert _, by simp⟩
  | true =>
    have htracked : s.bridge.plcVariables.lookup (msgKey (u.message msg)) = tracked u s := rfl
    rw [htracked] at ht
    cases hknown : tracked u s with
    | none =>
      rw [hknown] at ht
      cases ht
      exact ⟨hs.store pv templates true, AList.lookup_insert _, by simp⟩
    | some pv' =>
      rw [hknown] at ht
      cases ht
      refine ⟨hs.store pv templates timer, AList.lookup_insert _, ?_⟩
      have hdevice := (hs.store pv templates timer).reportedDevice
      simp only [Option.isSome_some, and_self, if_true, ← hdevice, hs.useTemplates]
      rfl

/-- The tracked variable is the metric's, with numbers for its members. -/
structure Describes (u : Udt) (pv : PlcVariable ℚ) : Prop where
  id : pv.id = u.variableID
  deviceID : pv.deviceID = u.deviceID
  datatype : pv.datatype = "udt"
  udtTemplate : pv.udtTemplate = some u.template
  value : ∃ members, pv.value = numbers members
  untimed : ∀ member db, pv.memberDeadbands.lookup member = some db →
    db.minTime = 0 ∧ db.maxTime = 0

theorem Describes.withStates {u : Udt} {pv : PlcVariable ℚ} (h : Describes u pv)
    (states : GoMap String (State ℚ)) : Describes u { pv with memberRBEStates := states } :=
  ⟨h.id, h.deviceID, h.datatype, h.udtTemplate, h.value, h.untimed⟩

/-- What is recorded of a member is what was last transmitted of it. -/
structure Consistent (u : Udt) (s : System) : Prop where
  serves : Serves u s.bridge
  untracked : tracked u s = none → s.sent = []
  describes : ∀ pv ∈ tracked u s, Describes u pv
  records : ∀ pv ∈ tracked u s, ∀ member state, pv.memberRBEStates.lookup member = some state →
    state.lastTime ≠ 0 →
      ∃ x, state.lastValue = .number x ∧ ∀ y, transmitted u s member = some y → y = x
  listed : ∀ member y, transmitted u s member = some y →
    member ∈ u.template.members.map (·.name)

theorem transmitted_nil {u : Udt} {s : System} (h : s.sent = []) (member : String) :
    transmitted u s member = none := by
  rw [transmitted, h]
  rfl

/-- After the metric has gone out, its listed members are what was sent. -/
theorem transmitted_sent {u : Udt} {s t : System} {pv : PlcVariable ℚ} (hpv : Describes u pv)
    {members : GoMap String ℚ} {nowMs : Nat}
    (hsent : t.sent = s.sent ++ [(u.device, [valueToMetric true pv (numbers members) nowMs])])
    (member : String) :
    transmitted u t member =
      (if member ∈ u.template.members.map (·.name) then members.lookup member else none).or
        (transmitted u s member) := by
  have hmetric : (valueToMetric true pv (numbers members) nowMs : Metric ℚ ℚ) =
      udtToTemplateMetric pv u.template (numbers members) nowMs := by
    simp [valueToMetric, hpv.datatype, hpv.udtTemplate]
  have hname : (udtToTemplateMetric pv u.template (numbers members) nowMs : Metric ℚ ℚ).name =
      u.variableID := hpv.id
  rw [← memberValue_udtToTemplateMetric u pv members nowMs member]
  simp only [transmitted, hsent, List.foldl_append, List.foldl_cons, List.foldl_nil, hmetric,
    carried, if_true, List.findSome?_cons, hname, List.findSome?_nil]
  cases memberValue member (udtToTemplateMetric pv u.template (numbers members) nowMs) <;> rfl

/-- A message is checked against a variable of its own type. -/
theorem checked_describes {u : Udt} {s : System} (h : ∀ pv ∈ tracked u s, Describes u pv)
    (msg : UdtMessage) : Describes u (checked u s msg) := by
  have huntimed : ∀ old : GoMap String (DeadBandConfig ℚ),
      (∀ member db, old.lookup member = some db → db.minTime = 0 ∧ db.maxTime = 0) →
      ∀ member db, ((u.message msg).memberDeadbands.getD old).lookup member = some db →
        db.minTime = 0 ∧ db.maxTime = 0 := by
    intro old hold member db hdb
    cases hnew : msg.memberDeadbands with
    | none => exact hold member db (by simpa [Udt.message, hnew] using hdb)
    | some dbs =>
      simp only [Udt.message, hnew, Option.map_some, Option.getD_some, lookup_mapValues,
        Option.map_eq_some_iff] at hdb
      obtain ⟨x, -, rfl⟩ := hdb
      exact ⟨rfl, rfl⟩
  cases hpv : tracked u s with
  | none =>
    simp only [checked, hpv, Option.getD_none]
    exact ⟨rfl, rfl, rfl, rfl, ⟨_, rfl⟩, huntimed _ (huntimed ∅ (by simp))⟩
  | some pv =>
    have hd := h pv hpv
    simp only [checked, hpv, Option.getD_some]
    exact ⟨hd.id, hd.deviceID, hd.datatype, hd.udtTemplate, ⟨_, rfl⟩, huntimed _ hd.untimed⟩

/-- The check of a message finds the records of the tracked variable. -/
theorem checked_records {u : Udt} {s : System} (h : Consistent u s) {msg : UdtMessage}
    {member : String} {state : State ℚ}
    (hstate : (checked u s msg).memberRBEStates.lookup member = some state)
    (htime : state.lastTime ≠ 0) :
    ∃ x, state.lastValue = .number x ∧ ∀ y, transmitted u s member = some y → y = x := by
  cases hpv : tracked u s with
  | none => simp [checked, hpv, updateVariable, newVariable] at hstate
  | some pv =>
    refine h.records pv hpv member state ?_ htime
    simpa [checked, hpv, updateVariable] using hstate

/-- A member that does not pass has a record, which is what was last
transmitted of it and is within the deadband. -/
theorem not_passes_record {u : Udt} {s : System} (h : Consistent u s) {msg : UdtMessage}
    {nowMs : Nat} {member : String} {x : ℚ}
    (hp : passes (checked u s msg) nowMs member x = false) :
    ∃ state old, (checked u s msg).memberRBEStates.lookup member = some state ∧
      state.lastTime ≠ 0 ∧ state.lastValue = .number old ∧
      (∀ y, transmitted u s member = some y → y = old) ∧
      match (checked u s msg).memberDeadbands.lookup member with
      | some db => |x - old| ≤ db.value
      | none => x = old := by
  obtain ⟨-, htime⟩ := suppressed_recorded hp
  cases hstate : (checked u s msg).memberRBEStates.lookup member with
  | none => simp [hstate] at htime
  | some state =>
    rw [hstate, Option.getD_some] at htime
    obtain ⟨old, hold, hlast⟩ := checked_records h hstate htime
    refine ⟨state, old, rfl, htime, hold, hlast, ?_⟩
    unfold passes memberPasses at hp
    rw [hstate, Option.getD_some] at hp
    cases hdb : (checked u s msg).memberDeadbands.lookup member with
    | none =>
      rw [hdb] at hp
      exact suppressed_same hold hp
    | some db =>
      rw [hdb] at hp
      obtain ⟨hmin, hmax⟩ := (checked_describes h.describes msg).untimed member db hdb
      exact suppressed_within hold hmin hmax hp

/-- What a message leaves behind: the variable as checked, with the states of
the message's members, and a transmission if it goes out. -/
structure Outcome (u : Udt) (s t : System) (msg : UdtMessage) (nowMs : Nat)
    (states : GoMap String (State ℚ)) : Prop where
  serves : Serves u t.bridge
  tracked : tracked u t = some { checked u s msg with memberRBEStates := states }
  states : ∀ member, states.lookup member =
    match msg.members.lookup member with
    | some x => some (memberState (checked u s msg) nowMs (checked u s msg).memberRBEStates member
        (.number x))
    | none => (checked u s msg).memberRBEStates.lookup member
  kept : UdtRbe.tracked u s = none ∨
    (∀ m ∈ msg.members.entries, passes (checked u s msg) nowMs m.1 m.2 = false) → t.sent = s.sent
  sent : (UdtRbe.tracked u s).isSome →
    (∃ m ∈ msg.members.entries, passes (checked u s msg) nowMs m.1 m.2) →
      ∀ member, transmitted u t member =
        (if member ∈ u.template.members.map (·.name) then msg.members.lookup member else none).or
          (transmitted u s member)

/-- A message updates the variable and publishes, or only updates it. -/
theorem message_handled {u : Udt} {s t : System} (h : Consistent u s) {msg : UdtMessage}
    {nowMs : Nat} (ht : step u s (.message msg nowMs) = some t) :
    ∃ states, Outcome u s t msg nowMs states := by
  obtain ⟨hserves, htracked, hsent⟩ := step_message h.serves ht
  obtain ⟨states, hpv, hstates, hflag⟩ := checkRBE_message u (checked u s msg) msg nowMs
  rw [hpv] at htracked hsent
  refine ⟨states, hserves, htracked, hstates, ?_, ?_⟩
  · intro hkeep
    rw [hsent, if_neg, List.append_nil]
    rintro ⟨hsome, hpass⟩
    obtain ⟨m, hm, hp⟩ := hflag.mp hpass
    rcases hkeep with hnone | hall
    · simp [hnone] at hsome
    · exact absurd hp (by simp [hall m hm])
  · intro hsome hpass member
    rw [if_pos ⟨hsome, hflag.mpr hpass⟩] at hsent
    exact transmitted_sent ((checked_describes h.describes msg).withStates states) hsent member

/-- Either the message goes out, or what was transmitted stays as it was. -/
theorem Outcome.transmitted_cases {u : Udt} {s t : System} {msg : UdtMessage} {nowMs : Nat}
    {states : GoMap String (State ℚ)} (h : Outcome u s t msg nowMs states) :
    ((UdtRbe.tracked u s).isSome ∧
      (∃ m ∈ msg.members.entries, passes (checked u s msg) nowMs m.1 m.2)) ∨
    ((UdtRbe.tracked u s = none ∨
      (∀ m ∈ msg.members.entries, passes (checked u s msg) nowMs m.1 m.2 = false)) ∧
      t.sent = s.sent) := by
  by_cases hnone : UdtRbe.tracked u s = none
  · exact .inr ⟨.inl hnone, h.kept (.inl hnone)⟩
  · by_cases hpass : ∃ m ∈ msg.members.entries, passes (checked u s msg) nowMs m.1 m.2
    · exact .inl ⟨Option.isSome_iff_ne_none.mpr hnone, hpass⟩
    · have hall : ∀ m ∈ msg.members.entries, passes (checked u s msg) nowMs m.1 m.2 = false :=
        fun m hm => Bool.eq_false_iff.mpr (fun hp => hpass ⟨m, hm, hp⟩)
      exact .inr ⟨.inr hall, h.kept (.inr hall)⟩

/-- What is transmitted of a member by a message that goes out is what the
message has, as far as the member is ever transmitted. -/
theorem Outcome.transmitted_message {u : Udt} {s t : System} {msg : UdtMessage} {nowMs : Nat}
    {states : GoMap String (State ℚ)} (h : Outcome u s t msg nowMs states) (hs : Consistent u s)
    (hsome : (UdtRbe.tracked u s).isSome)
    (hpass : ∃ m ∈ msg.members.entries, passes (checked u s msg) nowMs m.1 m.2)
    {member : String} {x y : ℚ} (hx : msg.members.lookup member = some x)
    (hy : transmitted u t member = some y) : y = x := by
  rw [h.sent hsome hpass member] at hy
  split at hy
  · rw [hx, Option.some_or] at hy
    exact (Option.some.inj hy).symm
  · rename_i hlisted
    rw [Option.none_or] at hy
    exact absurd (hs.listed member y hy) hlisted

/-- A message of a uniform run leaves every member within its deadband of what was published. -/
theorem message_within {u : Udt} {s t : System} (h : Consistent u s) {msg : UdtMessage}
    {nowMs : Nat} (hok : Uniform u s (.message msg nowMs))
    (ht : step u s (.message msg nowMs) = some t) : WithinDeadbands u t := by
  obtain ⟨states, hh⟩ := message_handled h ht
  intro member db x y hdb hx hy
  obtain ⟨ms, hms, hlookup⟩ := members_numbers msg.members
  have hvalue : (checked u s msg).value = numbers msg.members := rfl
  simp only [deadband, hh.tracked, Option.bind_some, Option.map_eq_some_iff] at hdb
  obtain ⟨db, hdb, rfl⟩ := hdb
  have hmem : msg.members.lookup member = some x := by
    simp only [current, hh.tracked, Option.bind_some, hvalue, hms, hlookup] at hx
    cases hl : msg.members.lookup member with
    | none => simp [hl] at hx
    | some z => simpa [hl, number] using hx
  have hentry := (mem_entries_iff _ _ _).mpr hmem
  rcases hh.transmitted_cases with ⟨hsome, hpass⟩ | ⟨hkept, hsent⟩
  · rw [hh.transmitted_message h hsome hpass hmem hy]
    simpa using hok.1 _ hentry db hdb
  · have hsame : transmitted u t member = transmitted u s member := by rw [transmitted, hsent]; rfl
    rw [hsame] at hy
    rcases hkept with hnone | hall
    · rw [transmitted_nil (h.untracked hnone)] at hy
      cases hy
    · obtain ⟨state, old, -, -, -, hlast, hwithin⟩ := not_passes_record h (hall _ hentry)
      rw [hdb] at hwithin
      rw [hlast y hy]
      exact hwithin

/-- A state that a message leaves behind has what is transmitted by then. -/
theorem message_records {u : Udt} {s t : System} (h : Consistent u s) {msg : UdtMessage}
    {nowMs : Nat} (hok : Uniform u s (.message msg nowMs)) {states : GoMap String (State ℚ)}
    (hh : Outcome u s t msg nowMs states) {member : String} {state : State ℚ}
    (hstate : states.lookup member = some state) (htime : state.lastTime ≠ 0) :
    ∃ x, state.lastValue = .number x ∧ ∀ y, transmitted u t member = some y → y = x := by
  rw [hh.states member] at hstate
  cases hx : msg.members.lookup member with
  | none =>
    rw [hx] at hstate
    obtain ⟨x, hvalue, hlast⟩ := checked_records h hstate htime
    refine ⟨x, hvalue, fun y hy => hlast y ?_⟩
    rcases hh.transmitted_cases with ⟨hsome, hpass⟩ | ⟨-, hsent⟩
    · rw [hh.sent hsome hpass member, hx, ite_self, Option.none_or] at hy
      exact hy
    · rw [transmitted, ← hsent]
      exact hy
  | some x =>
    rw [hx, Option.some.injEq] at hstate
    have hentry := (mem_entries_iff _ _ _).mpr hx
    cases hp : passes (checked u s msg) nowMs member x with
    | true =>
      -- a member that passes is recorded, and goes out if anything has ever gone out
      have hrecord : state = recordPublish (.number x) nowMs := by
        rw [← hstate]
        exact if_pos hp
      refine ⟨x, by rw [hrecord]; rfl, fun y hy => ?_⟩
      rcases hh.transmitted_cases with ⟨hsome, hpass⟩ | ⟨hkept, hsent⟩
      · exact hh.transmitted_message h hsome hpass hx hy
      · rcases hkept with hnone | hall
        · rw [transmitted_nil (hsent.trans (h.untracked hnone))] at hy
          cases hy
        · exact absurd hp (by simp [hall _ hentry])
    | false =>
      obtain ⟨state', old, hlookup, -, hold, hlast, hwithin⟩ := not_passes_record h hp
      have hkeep : state = state' := by
        rw [← hstate]
        apply (if_neg (ne_true_of_eq_false hp)).trans
        rw [hlookup, Option.getD_some]
      subst hkeep
      refine ⟨old, hold, fun y hy => ?_⟩
      rcases hh.transmitted_cases with ⟨hsome, hpass⟩ | ⟨-, hsent⟩
      · rw [hh.transmitted_message h hsome hpass hx hy]
        cases hdb : (checked u s msg).memberDeadbands.lookup member with
        | none =>
          rw [hdb] at hwithin
          exact hwithin
        | some db =>
          rcases hok.2 hsome hpass _ hentry (by simp [hdb]) with hp' | hrec
          · exact absurd hp' (by simp [hp])
          · simpa [recorded, hlookup, hold, Rbe.toFloat64, eq_comm] using hrec
      · apply hlast y
        rw [transmitted, ← hsent]
        exact hy

/-- A message keeps the bridge consistent. -/
theorem message_consistent {u : Udt} {s t : System} (h : Consistent u s) {msg : UdtMessage}
    {nowMs : Nat} (hok : Uniform u s (.message msg nowMs))
    (ht : step u s (.message msg nowMs) = some t) : Consistent u t := by
  obtain ⟨states, hh⟩ := message_handled h ht
  refine ⟨hh.serves, ?_, ?_, ?_, ?_⟩
  · intro hnone
    rw [hh.tracked] at hnone
    cases hnone
  · intro pv hpv
    rw [hh.tracked, Option.mem_some_iff] at hpv
    subst hpv
    exact (checked_describes h.describes msg).withStates states
  · intro pv hpv member state hstate htime
    rw [hh.tracked, Option.mem_some_iff] at hpv
    subst hpv
    exact message_records h hok hh hstate htime
  · intro member y hy
    rcases hh.transmitted_cases with ⟨hsome, hpass⟩ | ⟨-, hsent⟩
    · rw [hh.sent hsome hpass member] at hy
      split at hy
      · assumption
      · exact h.listed member y (by simpa using hy)
    · apply h.listed member y
      rw [transmitted, ← hsent]
      exact hy

/-- A variable whose records are forgotten. -/
theorem Describes.forgotten {u : Udt} {pv : PlcVariable ℚ} (h : Describes u pv) :
    Describes u { pv with
      rbeState := {}
      memberRBEStates := mapValues (fun _ => {}) pv.memberRBEStates } :=
  ⟨h.id, h.deviceID, h.datatype, h.udtTemplate, h.value, h.untimed⟩

theorem loadedVariable_describes (u : Udt) (msg : UdtMessage) :
    Describes u (loadedVariable (u.info msg)) :=
  ⟨rfl, rfl, rfl, rfl, ⟨_, rfl⟩, by simp [loadedVariable]⟩

/-- The only variable is the only metric of its device. -/
theorem Serves.byDevice {u : Udt} {br : Bridge ℚ ℚ} (h : Serves u br) {pv : PlcVariable ℚ}
    (hpv : Describes u pv) {members : GoMap String ℚ} (hvalue : pv.value = numbers members)
    (nowMs : Nat) : MqttBridge.byDevice br [pv] nowMs =
      [(u.device, [valueToMetric true pv (numbers members) nowMs])] := by
  have hdevice : MqttBridge.reportedDevice br pv.deviceID = u.device := by
    rw [hpv.deviceID, h.reportedDevice]
  simp [MqttBridge.byDevice, hdevice, h.useTemplates, hvalue,
    List.dedup_cons_of_notMem List.not_mem_nil]

/-- What a birth does: the variable goes out as it is and forgets its records. -/
theorem step_birth {u : Udt} {s t : System} (hs : Serves u s.bridge) {nowMs : Nat}
    (ht : step u s (.birth nowMs) = some t) :
    Serves u t.bridge ∧
      tracked u t = (tracked u s).map (fun pv =>
        { pv with
          rbeState := {}
          memberRBEStates := mapValues (fun _ => {}) pv.memberRBEStates }) ∧
      t.sent = s.sent ++ byDevice s.bridge (tracked u s).toList nowMs := by
  cases ht
  refine ⟨⟨hs.moduleID, hs.enabled, hs.useTemplates, ?_⟩, lookup_mapValues _ _ _, ?_⟩
  · intro k hk
    rw [AList.mem_keys, resetRBEStates, keys_mapValues] at hk
    exact hs.only k hk
  · rw [hs.entries]
    rfl

/-- What a load does: the variable is replaced by one without records. -/
theorem step_load {u : Udt} {s t : System} (hs : Serves u s.bridge) {msg : UdtMessage}
    (ht : step u s (.load msg) = some t) :
    Serves u t.bridge ∧ tracked u t = some (loadedVariable (u.info msg)) ∧ t.sent = s.sent := by
  obtain ⟨templates, timer, hreg⟩ := registerTemplate_eq u.template s.bridge
  have hbridge : t.bridge = { s.bridge with
      plcVariables := s.bridge.plcVariables.insert u.key (loadedVariable (u.info msg))
      templates := templates
      rebirthTimer := timer } := by
    cases ht
    simp only [loadVariable, Udt.info, hreg]
    rfl
  refine ⟨hbridge ▸ hs.store _ templates timer, ?_, ?_⟩
  · rw [tracked, hbridge]
    exact AList.lookup_insert _
  · cases ht
    rfl

theorem birth_consistent {u : Udt} {s t : System} (h : Consistent u s) {nowMs : Nat}
    (ht : step u s (.birth nowMs) = some t) : Consistent u t := by
  obtain ⟨hserves, htracked, hsent⟩ := step_birth h.serves ht
  refine ⟨hserves, ?_, ?_, ?_, ?_⟩
  · intro hnone
    rw [htracked, Option.map_eq_none_iff] at hnone
    rw [hsent, h.untracked hnone, hnone]
    rfl
  · intro pv hpv
    rw [htracked, Option.mem_def, Option.map_eq_some_iff] at hpv
    obtain ⟨pv, hpv, rfl⟩ := hpv
    exact (h.describes pv hpv).forgotten
  · intro pv hpv member state hstate htime
    rw [htracked, Option.mem_def, Option.map_eq_some_iff] at hpv
    obtain ⟨pv, -, rfl⟩ := hpv
    rw [lookup_mapValues, Option.map_eq_some_iff] at hstate
    obtain ⟨-, -, rfl⟩ := hstate
    exact absurd rfl htime
  · intro member y hy
    cases hpv : tracked u s with
    | none =>
      rw [hpv, h.untracked hpv] at hsent
      rw [transmitted_nil hsent] at hy
      cases hy
    | some pv =>
      have hd := h.describes pv hpv
      obtain ⟨members, hvalue⟩ := hd.value
      rw [hpv, Option.toList_some, h.serves.byDevice hd hvalue] at hsent
      rw [transmitted_sent hd hsent member] at hy
      split at hy
      · assumption
      · exact h.listed member y (by simpa using hy)

theorem load_consistent {u : Udt} {s t : System} (h : Consistent u s) {msg : UdtMessage}
    (ht : step u s (.load msg) = some t) : Consistent u t := by
  obtain ⟨hserves, htracked, hsent⟩ := step_load h.serves ht
  refine ⟨hserves, ?_, ?_, ?_, ?_⟩
  · intro hnone
    rw [htracked] at hnone
    cases hnone
  · intro pv hpv
    rw [htracked, Option.mem_some_iff] at hpv
    subst hpv
    exact loadedVariable_describes u msg
  · intro pv hpv member state hstate
    rw [htracked, Option.mem_some_iff] at hpv
    subst hpv
    simp [loadedVariable] at hstate
  · intro member y hy
    apply h.listed member y
    rw [transmitted, ← hsent]
    exact hy

/-- The bridge is consistent before the first message. -/
theorem initial_consistent (u : Udt) (primaryHostID : String) :
    Consistent u (initial u primaryHostID) := by
  have htracked : tracked u (initial u primaryHostID) = none := rfl
  refine ⟨⟨rfl, rfl, rfl, ?_⟩, fun _ => rfl, ?_, ?_, ?_⟩
  · intro k hk
    simp [initial, newBridge] at hk
  · simp [htracked]
  · simp [htracked]
  · intro member y hy
    rw [transmitted_nil rfl] at hy
    cases hy

theorem step_consistent {u : Udt} {s t : System} {a : Action} (h : Consistent u s)
    (hok : Uniform u s a) (ht : step u s a = some t) : Consistent u t := by
  cases a with
  | message msg nowMs => exact message_consistent h hok ht
  | birth nowMs => exact birth_consistent h ht
  | load msg => exact load_consistent h ht

/-- After every message of a run whose messages are all uniform, every member
with a deadband is within it of what was last transmitted. -/
theorem uniform_runs_within (u : Udt) (primaryHostID : String) (as : List Action)
    (msg : UdtMessage) (nowMs : Nat) (t : System)
    (hrun : Runs.run (step u) (initial u primaryHostID) (as ++ [.message msg nowMs]) = some t)
    (hok : Runs.Meets (step u) (Uniform u) (initial u primaryHostID)
      (as ++ [.message msg nowMs])) : WithinDeadbands u t := by
  have hstep : ∀ s a t, Consistent u s → Uniform u s a → step u s a = some t → Consistent u t :=
    fun _ _ _ hs ha ht => step_consistent hs ha ht
  exact Runs.run_last hstep (fun _ _ hs ha ht => message_within hs ha ht)
    (initial_consistent u primaryHostID) hok hrun

end Steps

section Schedules

/-- A motor with two members. -/
def motor : Udt :=
  { bridgeID := "mqtt"
    moduleID := "gateway"
    deviceID := "plc"
    variableID := "motor"
    template := ⟨"Motor", "1", [⟨"amps", "number"⟩, ⟨"volts", "number"⟩]⟩
    foreign := by decide
    numeric := by decide }

/-- Both members have a deadband of 1. -/
def reading (amps volts : ℚ) : UdtMessage :=
  { members := [⟨"amps", amps⟩, ⟨"volts", volts⟩].toAList
    memberDeadbands := some [⟨"amps", 1⟩, ⟨"volts", 1⟩].toAList }

/-- The motor is loaded and born, and its first reading goes out. -/
def start : List Action := [.load (reading 0 0), .birth 1, .message (reading 0 0) 2]

/-- What the deadband law compares for the volts. -/
def volts (s : System) : List (Option ℚ) :=
  [deadband motor s "volts", current motor s "volts", transmitted motor s "volts"]

/-- Both members pass together, then both stay within their deadbands. -/
theorem uniform_schedule_within :
    ∃ t, Runs.run (step motor) (initial motor "")
        ((start ++ [.message (reading 5 2) 3]) ++ [.message (reading 5 (5 / 2)) 4]) = some t ∧
      volts t = [some 1, some (5 / 2), some 2] ∧ WithinDeadbands motor t := by
  have hok : Runs.Meets (step motor) (Uniform motor) (initial motor "")
      ((start ++ [.message (reading 5 2) 3]) ++ [.message (reading 5 (5 / 2)) 4]) := by
    decide +kernel
  cases hrun : Runs.run (step motor) (initial motor "")
      ((start ++ [.message (reading 5 2) 3]) ++ [.message (reading 5 (5 / 2)) 4]) with
  | none => exact absurd (congrArg Option.isSome hrun) (by decide +kernel)
  | some t =>
    have hvolts : (Runs.run (step motor) (initial motor "")
        ((start ++ [.message (reading 5 2) 3]) ++ [.message (reading 5 (5 / 2)) 4])).map volts =
          some [some 1, some (5 / 2), some 2] := by decide +kernel
    rw [hrun, Option.map_some, Option.some.injEq] at hvolts
    exact ⟨t, rfl, hvolts, uniform_runs_within motor "" _ _ _ t hrun hok⟩

/-- The amps take volts of 9/10 along, which are not recorded; volts of -9/10
are within the deadband of the record, but not of what the host has seen. -/
theorem unrecorded_schedule_breaks :
    ¬ ∀ (u : Udt) (primaryHostID : String) (as : List Action) (msg : UdtMessage) (nowMs : Nat)
      (t : System),
      Runs.run (step u) (initial u primaryHostID) (as ++ [.message msg nowMs]) = some t →
        WithinDeadbands u t := by
  intro h
  cases hrun : Runs.run (step motor) (initial motor "")
      ((start ++ [.message (reading 5 (9 / 10)) 3]) ++ [.message (reading 5 (-9 / 10)) 4]) with
  | none => exact absurd (congrArg Option.isSome hrun) (by decide +kernel)
  | some t =>
    have hvolts : (Runs.run (step motor) (initial motor "")
        ((start ++ [.message (reading 5 (9 / 10)) 3]) ++
          [.message (reading 5 (-9 / 10)) 4])).map volts =
            some [some 1, some (-9 / 10), some (9 / 10)] := by decide +kernel
    rw [hrun, Option.map_some, Option.some.injEq] at hvolts
    simp only [volts, List.cons.injEq, and_true] at hvolts
    obtain ⟨hdb, hx, hy⟩ := hvolts
    have hwithin := h motor "" _ _ _ t hrun "volts" _ _ _ hdb hx hy
    exact absurd hwithin (by decide +kernel)

end Schedules

end UdtRbe
