import Tentacle.Rbe
import Tentacle.SparkplugPayload

/-!
# The bridge's variables and metrics

The part of `Bridge` that keeps the variables, decides by exception what is
worth reporting and turns values into Sparkplug metrics. `handleDataMessage` is
followed up to the point where it buffers or publishes; a message is given as
decoded. `fmt.Sprintf("%v", ..)` is `Json.sprint`.
-/

namespace MqttBridge

open GoValues SparkplugPayload Rbe

structure UdtMemberDefinition where
  name : String
  datatype : String
  deriving DecidableEq, Repr

structure UdtTemplateDefinition where
  name : String
  version : String
  members : List UdtMemberDefinition
  deriving DecidableEq, Repr

structure PlcDataMessage (F64 : Type) where
  moduleID : String
  deviceID : String
  variableID : String
  value : Json F64
  datatype : String
  deadband : Option (DeadBandConfig F64) := none
  disableRBE : Bool := false
  udtTemplate : Option UdtTemplateDefinition := none
  memberDeadbands : Option (GoMap String (DeadBandConfig F64)) := none
  description : String := ""
  timestamp : Int := 0
  historyEnabled : Bool := false

/-- One variable of the answer to the request for all variables. -/
structure VariableInfo (F64 : Type) where
  moduleID : String
  deviceID : String
  variableID : String
  value : Json F64
  datatype : String
  deadband : Option (DeadBandConfig F64) := none
  disableRBE : Bool := false
  udtTemplate : Option UdtTemplateDefinition := none

/-- A tracked variable; a nil map of member deadbands or states is empty here. -/
structure PlcVariable (F64 : Type) where
  id : String
  moduleID : String
  deviceID : String
  datatype : String
  value : Json F64
  deadband : Option (DeadBandConfig F64)
  memberDeadbands : GoMap String (DeadBandConfig F64)
  disableRBE : Bool
  udtTemplate : Option UdtTemplateDefinition
  sparkplugType : DataType
  rbeState : State F64
  memberRBEStates : GoMap String (State F64)

/-- The fields of the bridge that its own lock guards, and its rebirth timer. -/
structure Bridge (F32 F64 : Type) where
  moduleID : String
  useTemplates : Bool
  plcVariables : GoMap String (PlcVariable F64)
  templates : GoMap String (Template F32 F64 (Metric F32 F64))
  enabled : Bool
  hostOnline : Bool
  hostSeen : Bool
  rebirthTimer : Bool

variable {F32 F64 : Type}

def newBridge (moduleID : String) (useTemplates : Bool) (primaryHostID : String) :
    Bridge F32 F64 :=
  { moduleID := moduleID
    useTemplates := useTemplates
    plcVariables := ∅
    templates := ∅
    enabled := true
    hostOnline := primaryHostID = ""
    hostSeen := false
    rebirthTimer := false }

def variableKey (moduleID deviceID variableID : String) : String :=
  moduleID ++ ":" ++ deviceID ++ ":" ++ variableID

/-- `scheduleRebirth`: a new timer replaces one that has not fired. -/
def scheduleRebirth (br : Bridge F32 F64) : Bridge F32 F64 := { br with rebirthTimer := true }

/-- The template definition that goes into the NBIRTH. -/
def templateDefinition (tmpl : UdtTemplateDefinition) : Template F32 F64 (Metric F32 F64) :=
  { version := tmpl.version
    templateRef := ""
    isDefinition := true
    metrics := tmpl.members.map (fun m =>
      { name := m.name, datatype := natsToSparkplugType m.datatype, value := none })
    parameters := [] }

def registerTemplate (tmpl : UdtTemplateDefinition) (br : Bridge F32 F64) : Bridge F32 F64 :=
  if (br.templates.lookup tmpl.name).isSome then br
  else
    scheduleRebirth { br with
      templates := br.templates.insert tmpl.name (templateDefinition tmpl) }

@[simp] theorem registerTemplate_plcVariables (tmpl : UdtTemplateDefinition)
    (br : Bridge F32 F64) : (registerTemplate tmpl br).plcVariables = br.plcVariables := by
  unfold registerTemplate
  split <;> rfl
@[simp] theorem registerTemplate_moduleID (tmpl : UdtTemplateDefinition) (br : Bridge F32 F64) :
    (registerTemplate tmpl br).moduleID = br.moduleID := by
  unfold registerTemplate
  split <;> rfl

/-- The template of a UDT message is registered. -/
def registerMessageTemplate (msg : PlcDataMessage F64) (br : Bridge F32 F64) : Bridge F32 F64 :=
  match msg.udtTemplate with
  | some tmpl => if msg.datatype = "udt" then registerTemplate tmpl br else br
  | none => br

@[simp] theorem registerMessageTemplate_plcVariables (msg : PlcDataMessage F64)
    (br : Bridge F32 F64) : (registerMessageTemplate msg br).plcVariables = br.plcVariables := by
  unfold registerMessageTemplate
  split <;> [split; skip] <;> simp
@[simp] theorem registerMessageTemplate_moduleID (msg : PlcDataMessage F64) (br : Bridge F32 F64) :
    (registerMessageTemplate msg br).moduleID = br.moduleID := by
  unfold registerMessageTemplate
  split <;> [split; skip] <;> simp

section Values

variable [GoFloats F32 F64] [GoFloat64 F64]

/-- A decoded value as it is. -/
def plainValue {T : Type} : Json F64 → Option (Value F32 F64 T)
  | .null => none
  | .bool b => some (.bool b)
  | .number x => some (.float64 x)
  | .string s => some (.string s)
  | v => some (.other v.goType)

def coerceValue {T : Type} (value : Json F64) (spType : DataType) : Option (Value F32 F64 T) :=
  match value with
  | .null => none
  | value =>
    match spType with
    | .double =>
      match value with
      | .number x => some (.float64 x)
      | _ => some (.float64 GoFloat64.zero)
    | .float =>
      match value with
      | .number x => some (.float32 (GoFloats.narrow x))
      | _ => some (.float32 (GoFloats.narrow (GoFloat64.zero : F64)))
    | .boolean =>
      match value with
      | .bool b => some (.bool b)
      | .number x => some (.bool (!GoFloats.isZero64 F32 x))
      | .string s => some (.bool (s = "true" || s = "1" || s = "on" || s = "yes"))
      | _ => some (.bool false)
    | .string | .text =>
      match value with
      | .string s => some (.string s)
      | v => some (.string v.sprint)
    | .int32 =>
      match value with
      | .number x => some (.int .uint32 (wrap 32 (GoFloats.trunc64 F32 x)))
      | _ => some (.int .uint32 0)
    | .uint64 =>
      match value with
      | .number x => some (.int .uint64 (wrap 64 (GoFloats.trunc64 F32 x)))
      | _ => some (.int .uint64 0)
    | _ => plainValue value

/-- The members of the value that the template lists. -/
def templateMembers (tmpl : UdtTemplateDefinition) (value : Json F64) (nowMs : Nat) :
    List (Metric F32 F64) :=
  match value.members with
  | none => []
  | some members =>
    tmpl.members.filterMap (fun mdef =>
      (members.lookup mdef.name).map (fun mval =>
        { name := mdef.name
          datatype := natsToSparkplugType mdef.datatype
          timestamp := nowMs
          value := coerceValue mval (natsToSparkplugType mdef.datatype) }))

def udtToTemplateMetric (pv : PlcVariable F64) (tmpl : UdtTemplateDefinition) (value : Json F64)
    (nowMs : Nat) : Metric F32 F64 :=
  { name := pv.id
    datatype := .template
    timestamp := nowMs
    value := some (.template
      { version := ""
        templateRef := tmpl.name
        isDefinition := false
        metrics := templateMembers tmpl value nowMs
        parameters := [] }) }

def scalarMetric (pv : PlcVariable F64) (value : Json F64) (nowMs : Nat) : Metric F32 F64 :=
  { name := pv.id
    datatype := pv.sparkplugType
    timestamp := nowMs
    value := coerceValue value pv.sparkplugType }

def valueToMetric (useTemplates : Bool) (pv : PlcVariable F64) (value : Json F64) (nowMs : Nat) :
    Metric F32 F64 :=
  if pv.datatype = "udt" then
    if useTemplates then
      match pv.udtTemplate with
      | some tmpl => udtToTemplateMetric pv tmpl value nowMs
      | none => scalarMetric pv value nowMs
    else
      { name := pv.id
        datatype := .string
        timestamp := nowMs
        value := some (.string value.sprint) }
  else scalarMetric pv value nowMs

/-- One turn of the loop over the members, on the states and the flag. -/
def memberStep (pv : PlcVariable F64) (nowMs : Nat) (acc : GoMap String (State F64) × Bool)
    (name : String) (value : Json F64) : GoMap String (State F64) × Bool :=
  let state := (acc.1.lookup name).getD {}
  if shouldPublish state value nowMs (pv.memberDeadbands.lookup name) pv.disableRBE then
    (acc.1.insert name (recordPublish value nowMs), true)
  else (acc.1.insert name state, acc.2)

/-- The scalar check with its record; also the fallback of `shouldPublishUDT`. -/
def shouldPublishScalar (pv : PlcVariable F64) (value : Json F64) (nowMs : Nat) :
    PlcVariable F64 × Bool :=
  if shouldPublish pv.rbeState value nowMs pv.deadband pv.disableRBE then
    ({ pv with rbeState := recordPublish value nowMs }, true)
  else (pv, false)

def shouldPublishUDT (pv : PlcVariable F64) (value : Json F64) (nowMs : Nat) :
    PlcVariable F64 × Bool :=
  match value.members with
  | none => shouldPublishScalar pv value nowMs
  | some members =>
    let (states, anyChanged) := members.entries.foldl
      (fun acc m => memberStep pv nowMs acc m.1 m.2) (pv.memberRBEStates, false)
    ({ pv with memberRBEStates := states }, anyChanged)

/-- The variable as it is discovered from its first message. -/
def newVariable (msg : PlcDataMessage F64) : PlcVariable F64 :=
  { id := msg.variableID
    moduleID := msg.moduleID
    deviceID := msg.deviceID
    datatype := msg.datatype
    value := .null
    deadband := msg.deadband
    memberDeadbands := msg.memberDeadbands.getD ∅
    disableRBE := msg.disableRBE
    udtTemplate := msg.udtTemplate
    sparkplugType := natsToSparkplugType msg.datatype
    rbeState := {}
    memberRBEStates := ∅ }

/-- What a message changes in a variable before the exception check. -/
def updateVariable (pv : PlcVariable F64) (msg : PlcDataMessage F64) : PlcVariable F64 :=
  { pv with
    value := msg.value
    deadband := msg.deadband.or pv.deadband
    memberDeadbands := msg.memberDeadbands.getD pv.memberDeadbands }

/-- The exception check of `handleDataMessage`, with what it records. -/
def checkRBE (pv : PlcVariable F64) (msg : PlcDataMessage F64) (nowMs : Nat) :
    PlcVariable F64 × Bool :=
  if msg.datatype = "udt" then shouldPublishUDT pv msg.value nowMs
  else shouldPublishScalar pv msg.value nowMs

/-- How `handleDataMessage` goes on after the exception check. -/
inductive Handled (F32 F64 : Type) where
  | ignored
  | suppressed
  | discovered
  | send (deviceID : String) (metric : Metric F32 F64)

/-- The device a variable or message is reported under. -/
def reportedDevice (br : Bridge F32 F64) (deviceID : String) : String :=
  if deviceID = "" then br.moduleID else deviceID

def msgKey (msg : PlcDataMessage F64) : String :=
  variableKey msg.moduleID msg.deviceID msg.variableID

/-- The bridge is enabled and the message is not its own. -/
def considers (br : Bridge F32 F64) (msg : PlcDataMessage F64) : Bool :=
  br.enabled && msg.moduleID ≠ br.moduleID

/-- `handleDataMessage` up to its decision. -/
def handleDataMessage (msg : PlcDataMessage F64) (nowMs : Nat) (br : Bridge F32 F64) :
    Bridge F32 F64 × Handled F32 F64 :=
  if !considers br msg then (br, .ignored)
  else
    let known := br.plcVariables.lookup (msgKey msg)
    let pv := updateVariable (known.getD (newVariable msg)) msg
    let br := registerMessageTemplate msg br
    let (pv, publish) := checkRBE pv msg nowMs
    let br := { br with plcVariables := br.plcVariables.insert (msgKey msg) pv }
    if !publish then (br, .suppressed)
    else if known.isNone then (scheduleRebirth br, .discovered)
    else
      (br, .send (reportedDevice br msg.deviceID)
        (valueToMetric br.useTemplates pv msg.value nowMs))

/-- The metrics of the variables, taken in the given order, by device. -/
def byDevice (br : Bridge F32 F64) (vars : List (PlcVariable F64)) (nowMs : Nat) :
    List (String × List (Metric F32 F64)) :=
  (vars.map (fun pv => reportedDevice br pv.deviceID)).dedup.map (fun deviceID =>
    (deviceID, (vars.filter (fun pv => reportedDevice br pv.deviceID = deviceID)).map
      (fun pv => valueToMetric br.useTemplates pv pv.value nowMs)))

def resetRBEStates (br : Bridge F32 F64) : Bridge F32 F64 :=
  { br with
    plcVariables := mapValues (fun pv =>
      { pv with rbeState := {}, memberRBEStates := mapValues (fun _ => {}) pv.memberRBEStates })
      br.plcVariables }

/-- `updateNodeMetrics`, up to handing the list to the node. -/
def nodeMetrics (br : Bridge F32 F64) (nowMs : Nat) : List (Metric F32 F64) :=
  br.templates.entries.map (fun t =>
    { name := t.1, datatype := .template, timestamp := nowMs, value := some (.template t.2) })

def loadedVariable (v : VariableInfo F64) : PlcVariable F64 :=
  { id := v.variableID
    moduleID := v.moduleID
    deviceID := v.deviceID
    datatype := v.datatype
    value := v.value
    deadband := v.deadband
    memberDeadbands := ∅
    disableRBE := v.disableRBE
    udtTemplate := v.udtTemplate
    sparkplugType := natsToSparkplugType v.datatype
    rbeState := {}
    memberRBEStates := ∅ }

/-- One turn of the loop of `loadInitialVariables`. -/
def loadVariable (br : Bridge F32 F64) (v : VariableInfo F64) : Bridge F32 F64 :=
  let br :=
    match v.udtTemplate with
    | some tmpl => registerTemplate tmpl br
    | none => br
  { br with
    plcVariables := br.plcVariables.insert (variableKey v.moduleID v.deviceID v.variableID)
      (loadedVariable v) }

/-- Every metric is named after its variable. -/
@[simp] theorem valueToMetric_name (useTemplates : Bool) (pv : PlcVariable F64) (value : Json F64)
    (nowMs : Nat) : (valueToMetric useTemplates pv value nowMs : Metric F32 F64).name = pv.id := by
  unfold valueToMetric
  split
  · split
    · split <;> rfl
    · rfl
  · rfl

/-- The exception check touches only exception states. -/
theorem checkRBE_eq (pv : PlcVariable F64) (msg : PlcDataMessage F64) (nowMs : Nat) :
    ∃ rbeState states, (checkRBE pv msg nowMs).1 =
      { pv with rbeState := rbeState, memberRBEStates := states } := by
  have hscalar : ∀ value, ∃ rbeState states, (shouldPublishScalar pv value nowMs).1 =
      { pv with rbeState := rbeState, memberRBEStates := states } := by
    intro value
    unfold shouldPublishScalar
    split <;> exact ⟨_, _, rfl⟩
  unfold checkRBE
  split
  · unfold shouldPublishUDT
    split
    · exact hscalar _
    · exact ⟨_, _, rfl⟩
  · exact hscalar _

theorem checkRBE_same (pv : PlcVariable F64) (msg : PlcDataMessage F64) (nowMs : Nat) :
    (checkRBE pv msg nowMs).1.id = pv.id ∧ (checkRBE pv msg nowMs).1.deviceID = pv.deviceID := by
  obtain ⟨rbeState, states, h⟩ := checkRBE_eq pv msg nowMs
  rw [h]
  exact ⟨rfl, rfl⟩

/-- A message that is considered updates the variable of its key. -/
theorem handleDataMessage_plcVariables (msg : PlcDataMessage F64) (nowMs : Nat)
    (br : Bridge F32 F64) (hc : considers br msg = true) :
    (handleDataMessage msg nowMs br).1.plcVariables = br.plcVariables.insert (msgKey msg)
      (checkRBE (updateVariable ((br.plcVariables.lookup (msgKey msg)).getD (newVariable msg)) msg)
        msg nowMs).1 := by
  simp only [handleDataMessage, hc, Bool.not_true, Bool.false_eq_true, if_false,
    registerMessageTemplate_plcVariables]
  split
  · rfl
  · split <;> rfl

/-- A message that is considered stores its variable under its key, where a
known variable keeps its name and device; it is sent on only for a variable
that was known and passes the exception check. -/
theorem handleDataMessage_cases (msg : PlcDataMessage F64) (nowMs : Nat) (br : Bridge F32 F64) :
    handleDataMessage msg nowMs br = (br, .ignored) ∨
    (considers br msg = true ∧
      (∃ pv', (handleDataMessage msg nowMs br).1.plcVariables =
          br.plcVariables.insert (msgKey msg) pv' ∧
        ∀ pv ∈ br.plcVariables.lookup (msgKey msg), pv'.id = pv.id ∧ pv'.deviceID = pv.deviceID) ∧
      (handleDataMessage msg nowMs br).1.moduleID = br.moduleID ∧
      ∀ deviceID metric, (handleDataMessage msg nowMs br).2 = .send deviceID metric →
        ∃ pv, br.plcVariables.lookup (msgKey msg) = some pv ∧
          (checkRBE (updateVariable pv msg) msg nowMs).2 = true ∧
          deviceID = reportedDevice br msg.deviceID ∧ metric.name = pv.id) := by
  by_cases hc : considers br msg = true
  · right
    refine ⟨hc, ⟨(checkRBE (updateVariable ((br.plcVariables.lookup (msgKey msg)).getD
      (newVariable msg)) msg) msg nowMs).1, ?_, ?_⟩, ?_, ?_⟩
    · exact handleDataMessage_plcVariables msg nowMs br hc
    · intro pv hpv
      have hsame := checkRBE_same (updateVariable pv msg) msg nowMs
      rw [Option.mem_def.mp hpv]
      exact hsame
    · simp only [handleDataMessage, hc, Bool.not_true, Bool.false_eq_true, if_false]
      split
      · exact registerMessageTemplate_moduleID msg br
      · split <;> exact registerMessageTemplate_moduleID msg br
    · intro deviceID metric hsend
      simp only [handleDataMessage, hc, Bool.not_true, Bool.false_eq_true, if_false] at hsend
      split at hsend
      · cases hsend
      · rename_i hpass
        split at hsend
        · cases hsend
        · rename_i hknown
          rw [Option.isNone_iff_eq_none] at hknown
          obtain ⟨pv, hpv⟩ := Option.ne_none_iff_exists'.mp hknown
          rw [hpv, Option.getD_some] at hsend hpass
          have hsame := checkRBE_same (updateVariable pv msg) msg nowMs
          cases hsend
          refine ⟨pv, hpv, by simpa using hpass, ?_, ?_⟩
          · simp [reportedDevice]
          · rw [valueToMetric_name]
            exact hsame.1
  · left
    simp [handleDataMessage, hc]

end Values

theorem loadVariable_moduleID (br : Bridge F32 F64) (v : VariableInfo F64) :
    (loadVariable br v).moduleID = br.moduleID := by
  unfold loadVariable
  split <;> simp

theorem loadVariable_plcVariables (br : Bridge F32 F64) (v : VariableInfo F64) :
    (loadVariable br v).plcVariables = br.plcVariables.insert
      (variableKey v.moduleID v.deviceID v.variableID) (loadedVariable v) := by
  unfold loadVariable
  split <;> simp

end MqttBridge
