import Tentacle.MqttBridge
import Tentacle.Subjects

/-!
# The gateway's variables and commands

`ApplyConfig` as far as it builds the tracked variables and the UDT assemblers,
the answer to the request for all variables, and the handler of the commands
that arrive for the gateway. The gateway has the ID under which the bridge asks
for its variables. What the scanners deliver, and when assemblers publish, is
left out here.
-/

namespace GatewayVariables

open GoValues Rbe MqttBridge Subjects

structure GatewayDeviceConfig (F64 : Type) where
  protocol : String
  deadband : Option (DeadBandConfig F64) := none
  disableRBE : Option Bool := none
  autoManaged : Bool := false
  host : String := ""
  port : Option Int := none
  unitID : Option Int := none
  byteOrder : String := ""
  scanRate : Option Int := none

structure GatewayVariableConfig (F64 : Type) where
  id : String
  deviceID : String
  tag : String
  datatype : String
  default : Json F64 := .null
  bidirectional : Bool := false
  deadband : Option (DeadBandConfig F64) := none
  disableRBE : Bool := false
  description : String := ""
  historyEnabled : Bool := false
  cipType : String := ""
  functionCode : Option Int := none
  modbusDatatype : String := ""
  byteOrder : String := ""
  address : Option Int := none

structure GatewayUdtTemplateMemberConfig extends UdtMemberDefinition where
  functionCode : String := ""
  modbusDatatype : String := ""

structure GatewayUdtTemplateConfig where
  name : String
  version : String
  members : List GatewayUdtTemplateMemberConfig

structure GatewayUdtVariableConfig where
  id : String
  deviceID : String
  templateName : String
  memberTags : GoMap String String
  memberCipTypes : GoMap String String
  historyEnabled : Bool := false
  memberAddresses : GoMap String Int := ∅
  memberByteOrders : GoMap String String := ∅

/-- The config of a gateway, over the records of its entries. -/
structure GatewayConfigOf (Device Variable UdtTemplate UdtVariable : Type) where
  devices : GoMap String Device := ∅
  variableConfigs : GoMap String Variable := ∅
  udtTemplates : GoMap String UdtTemplate := ∅
  udtVariables : GoMap String UdtVariable := ∅

abbrev GatewayConfig (F64 : Type) :=
  GatewayConfigOf (GatewayDeviceConfig F64) (GatewayVariableConfig F64) GatewayUdtTemplateConfig
    GatewayUdtVariableConfig

structure TrackedVariable (F64 : Type) where
  config : GatewayVariableConfig F64
  deadband : Option (DeadBandConfig F64)
  disableRBE : Bool
  value : Json F64
  rbeState : State F64 := {}

structure UdtAssembler (F64 : Type) where
  config : GatewayUdtVariableConfig
  template : GatewayUdtTemplateConfig
  values : GoMap String (Json F64)

structure Gateway (F64 : Type) where
  config : GatewayConfig F64
  tracked : GoMap String (TrackedVariable F64)
  udtAssemblers : GoMap String (UdtAssembler F64)

/-- A message on the bus, with the bytes it carries. -/
structure BusMessage (D : Type) where
  subject : String
  data : D
  deriving DecidableEq, Repr

def gatewayModuleID : String := "gateway"

variable {F64 D : Type}

def trackVariable (varCfg : GatewayVariableConfig F64) (device : GatewayDeviceConfig F64) :
    TrackedVariable F64 :=
  { config := varCfg
    deadband := varCfg.deadband.or device.deadband
    disableRBE := varCfg.disableRBE || device.disableRBE = some true
    value := varCfg.default }

def newUdtAssembler (udtVar : GatewayUdtVariableConfig) (tmpl : GatewayUdtTemplateConfig) :
    UdtAssembler F64 :=
  { config := udtVar, template := tmpl, values := ∅ }

/-- A variable without its device, or a UDT without its device or template, is
not tracked. -/
def applyConfig (config : GatewayConfig F64) : Gateway F64 :=
  { config := config
    tracked := filterMapValues (fun varCfg =>
      (config.devices.lookup varCfg.deviceID).map (trackVariable varCfg)) config.variableConfigs
    udtAssemblers := filterMapValues (fun udtVar =>
      (config.devices.lookup udtVar.deviceID).bind fun _ =>
        (config.udtTemplates.lookup udtVar.templateName).map (newUdtAssembler udtVar))
      config.udtVariables }

def cipToNatsDatatype (cipType : String) : String :=
  if cipType = "BOOL" then "boolean"
  else if cipType = "STRING" then "string"
  else "number"

def variableInfo (tv : TrackedVariable F64) : VariableInfo F64 :=
  { moduleID := gatewayModuleID
    deviceID := tv.config.deviceID
    variableID := tv.config.id
    value := tv.value
    datatype := tv.config.datatype
    deadband := tv.deadband
    disableRBE := tv.disableRBE }

/-- The members of the template that have a value. -/
def UdtAssembler.value (a : UdtAssembler F64) : Json F64 :=
  .object (a.template.members.filterMap fun m =>
    (a.values.lookup m.name).map (fun v => (m.name, v)))

def udtMemberDefinition (a : UdtAssembler F64) (m : GatewayUdtTemplateMemberConfig) :
    UdtMemberDefinition :=
  { m.toUdtMemberDefinition with
    datatype :=
      match a.config.memberCipTypes.lookup m.name with
      | some cipType => cipToNatsDatatype cipType
      | none => m.datatype }

def udtVariableInfo (a : UdtAssembler F64) : VariableInfo F64 :=
  { moduleID := gatewayModuleID
    deviceID := a.config.deviceID
    variableID := a.config.id
    value := a.value
    datatype := "udt"
    udtTemplate := some
      { name := a.template.name
        version := a.template.version
        members := a.template.members.map (udtMemberDefinition a) } }

/-- The answer to the request for all variables, up to the order of the maps. -/
def variablesResponse (gw : Gateway F64) : List (VariableInfo F64) :=
  gw.tracked.entries.map (fun e => variableInfo e.2) ++
    gw.udtAssemblers.entries.map (fun e => udtVariableInfo e.2)

/-- The two sides of the first slash. -/
def cutSlash (s : String) : Option (String × String) :=
  match s.toList.dropWhile (· ≠ '/') with
  | [] => none
  | _ :: rest => some (String.ofList (s.toList.takeWhile (· ≠ '/')), String.ofList rest)

/-- The tag of a command that the bus delivers to the gateway. -/
def commandTag (subject : String) : Option String :=
  if matchSubject (commandWildcard gatewayModuleID) subject then thirdPart subject else none

/-- The test of the loop over the tracked variables. -/
def takesCommand (cmdTag : String) (tv : TrackedVariable F64) : Bool :=
  sanitizeForSubject tv.config.tag = cmdTag && tv.config.bidirectional

/-- The subject under which a device's scanner takes a command for a tag. -/
def scannerSubject (gw : Gateway F64) (deviceID tag : String) : Option String :=
  (gw.config.devices.lookup deviceID).map (fun device => command device.protocol tag)

def udtCommand (gw : Gateway F64) (cmdTag : String) : Option String :=
  (cutSlash cmdTag).bind fun (udtID, memberName) =>
    (gw.config.udtVariables.lookup udtID).bind fun udtVar =>
      (udtVar.memberTags.lookup memberName).bind fun memberTag =>
        scannerSubject gw udtVar.deviceID memberTag

/-- The handler of `setupCommandRoutingLocked`; the tracked variables are tried
in the given order. -/
def handleCommand (gw : Gateway F64) (order : List String) (msg : BusMessage D) :
    Option (BusMessage D) :=
  (commandTag msg.subject).bind fun cmdTag =>
    (match firstMatch gw.tracked order (takesCommand cmdTag) with
      | some tv => scannerSubject gw tv.config.deviceID tv.config.tag
      | none => udtCommand gw cmdTag).map fun subject => { msg with subject := subject }

/-- The scanner subjects under which a command may go out: those of all the
variables that take it, or else that of the UDT member it names. -/
def answers (gw : Gateway F64) (cmdTag : String) : List String :=
  let takers := gw.tracked.entries.filter (fun e => takesCommand cmdTag e.2)
  if takers.isEmpty then (udtCommand gw cmdTag).toList
  else takers.filterMap (fun e => scannerSubject gw e.2.config.deviceID e.2.config.tag)

/-- Every tracked variable has its device. -/
def DevicesKnown (gw : Gateway F64) : Prop :=
  ∀ key tv, gw.tracked.lookup key = some tv → ∀ tag,
    (scannerSubject gw tv.config.deviceID tag).isSome

theorem applyConfig_devicesKnown (config : GatewayConfig F64) :
    DevicesKnown (applyConfig config) := by
  intro key tv htv tag
  simp only [applyConfig, lookup_filterMapValues, Option.bind_eq_some_iff,
    Option.map_eq_some_iff] at htv
  obtain ⟨varCfg, -, device, hdevice, rfl⟩ := htv
  simp [scannerSubject, applyConfig, trackVariable, hdevice]

/-- No variable is found for a command exactly if none takes it. -/
theorem takers_isEmpty_iff (gw : Gateway F64) (cmdTag : String) :
    (gw.tracked.entries.filter (fun e => takesCommand cmdTag e.2)).isEmpty ↔
      ∀ key tv, gw.tracked.lookup key = some tv → takesCommand cmdTag tv = false := by
  simp only [List.isEmpty_iff, List.filter_eq_nil_iff, Bool.not_eq_true]
  constructor
  · intro h key tv htv
    exact h ⟨key, tv⟩ ((mem_entries_iff _ _ _).mpr htv)
  · rintro h ⟨key, tv⟩ he
    exact h key tv ((mem_entries_iff _ _ _).mp he)

/-- The handler publishes nothing that is not an answer. -/
theorem handleCommand_mem {gw : Gateway F64} {order : List String}
    (horder : order.Perm gw.tracked.keys) {msg out : BusMessage D}
    (h : handleCommand gw order msg = some out) :
    ∃ cmdTag, commandTag msg.subject = some cmdTag ∧ out.subject ∈ answers gw cmdTag ∧
      out.data = msg.data := by
  simp only [handleCommand, Option.bind_eq_some_iff, Option.map_eq_some_iff] at h
  obtain ⟨cmdTag, htag, subject, hsubject, rfl⟩ := h
  refine ⟨cmdTag, htag, ?_, rfl⟩
  cases hfirst : firstMatch gw.tracked order (takesCommand cmdTag) with
  | none =>
    have hempty := (takers_isEmpty_iff gw cmdTag).mpr ((firstMatch_eq_none_iff horder _).mp hfirst)
    simp only [hfirst] at hsubject
    simp [answers, hempty, hsubject]
  | some tv =>
    simp only [hfirst] at hsubject
    obtain ⟨htakes, key, htv⟩ := firstMatch_eq_some hfirst
    have hnotempty : ¬ (gw.tracked.entries.filter (fun e => takesCommand cmdTag e.2)).isEmpty := by
      rw [takers_isEmpty_iff]
      intro hall
      simp [hall key tv htv] at htakes
    rw [answers, if_neg hnotempty, List.mem_filterMap]
    exact ⟨⟨key, tv⟩, List.mem_filter.mpr ⟨(mem_entries_iff _ _ _).mpr htv, htakes⟩, hsubject⟩

/-- Where there is an answer, the handler publishes one. -/
theorem handleCommand_isSome {gw : Gateway F64} (hgw : DevicesKnown gw) {order : List String}
    (horder : order.Perm gw.tracked.keys) (msg : BusMessage D) {cmdTag : String}
    (htag : commandTag msg.subject = some cmdTag) (hanswers : answers gw cmdTag ≠ []) :
    (handleCommand gw order msg).isSome := by
  simp only [handleCommand, htag, Option.bind_some, Option.isSome_map]
  cases hfirst : firstMatch gw.tracked order (takesCommand cmdTag) with
  | none =>
    have hempty := (takers_isEmpty_iff gw cmdTag).mpr ((firstMatch_eq_none_iff horder _).mp hfirst)
    simpa [answers, hempty, Option.isSome_iff_ne_none] using hanswers
  | some tv =>
    obtain ⟨-, key, htv⟩ := firstMatch_eq_some hfirst
    exact hgw key tv htv tv.config.tag

/-- Every answer is published in some order of the variables. -/
theorem exists_order_handleCommand {gw : Gateway F64} (msg : BusMessage D) {cmdTag subject : String}
    (htag : commandTag msg.subject = some cmdTag) (hsubject : subject ∈ answers gw cmdTag) :
    ∃ order : List String, order.Perm gw.tracked.keys ∧
      handleCommand gw order msg = some { msg with subject := subject } := by
  by_cases hempty : (gw.tracked.entries.filter (fun e => takesCommand cmdTag e.2)).isEmpty
  · refine ⟨gw.tracked.keys, List.Perm.refl _, ?_⟩
    have hnone := (firstMatch_eq_none_iff (List.Perm.refl gw.tracked.keys) _).mpr
      ((takers_isEmpty_iff gw cmdTag).mp hempty)
    rw [answers, if_pos hempty, Option.mem_toList] at hsubject
    simp [handleCommand, htag, hnone, hsubject]
  · rw [answers, if_neg hempty, List.mem_filterMap] at hsubject
    obtain ⟨⟨key, tv⟩, he, hscanner⟩ := hsubject
    obtain ⟨he, htakes⟩ := List.mem_filter.mp he
    obtain ⟨order, horder, hfirst⟩ :=
      exists_order_firstMatch ((mem_entries_iff _ _ _).mp he) htakes
    exact ⟨order, horder, by simp [handleCommand, htag, hfirst, hscanner]⟩

/-- A command from the bridge reaches the gateway under its own name. -/
theorem commandTag_command (variableID : String) :
    commandTag (command gatewayModuleID variableID) = some variableID := by
  have hdot : '.' ∉ gatewayModuleID.toList := by decide
  rw [commandTag, if_pos (match_command hdot (by decide) variableID), thirdPart_command hdot]

end GatewayVariables
