import Tentacle.JsonCodec

/-!
# Configuration records and manifest resources

The records inside the configuration buckets and the resources of a manifest, each with
the JSON that its struct tags give. A map or slice without `omitempty` may be nil, which is
written as `null`; with `omitempty` nil and empty are written alike, by leaving the key out.
-/

namespace Manifest

open GoValues JsonCodec Std

/-! ## Deadbands -/

structure DeadBandConfig where
  value : ℚ := 0
  minTime : Int := 0
  maxTime : Int := 0
  deriving DecidableEq

def DeadBandConfig.codec : Codec DeadBandConfig := .record {} [
    .always "value" .float value fun v s => { s with value := v },
    .omitEmpty "minTime" .int minTime fun v s => { s with minTime := v },
    .omitEmpty "maxTime" .int maxTime fun v s => { s with maxTime := v }]
  (by decide) fun s => by cases s; rfl

/-- Nil stands for the value of the template. -/
structure DeadBandOverride where
  value : Option ℚ := none
  minTime : Option Int := none
  maxTime : Option Int := none
  deriving DecidableEq

def DeadBandOverride.codec : Codec DeadBandOverride := .record {} [
    .omitNil "value" .float nofun value fun v s => { s with value := v },
    .omitNil "minTime" .int nofun minTime fun v s => { s with minTime := v },
    .omitNil "maxTime" .int nofun maxTime fun v s => { s with maxTime := v }]
  (by decide) fun s => by cases s; rfl

/-! ## Gateways -/

/-- The credentials of SNMP v3. -/
structure V3Auth where
  username : String := ""
  securityLevel : String := ""
  authProtocol : String := ""
  authPassword : String := ""
  privProtocol : String := ""
  privPassword : String := ""
  deriving DecidableEq

def V3Auth.codec : Codec V3Auth := .record {} [
    .always "username" .string username fun v s => { s with username := v },
    .always "securityLevel" .string securityLevel fun v s => { s with securityLevel := v },
    .omitEmpty "authProtocol" .string authProtocol fun v s => { s with authProtocol := v },
    .omitEmpty "authPassword" .string authPassword fun v s => { s with authPassword := v },
    .omitEmpty "privProtocol" .string privProtocol fun v s => { s with privProtocol := v },
    .omitEmpty "privPassword" .string privPassword fun v s => { s with privPassword := v }]
  (by decide) fun s => by cases s; rfl

structure GatewayDeviceConfig where
  protocol : String := ""
  autoManaged : Bool := false
  host : String := ""
  port : Option Int := none
  slot : Option Int := none
  endpointURL : String := ""
  version : String := ""
  community : String := ""
  v3Auth : Option V3Auth := none
  unitID : Option Int := none
  byteOrder : String := ""
  scanRate : Option Int := none
  deadband : Option DeadBandConfig := none
  disableRBE : Option Bool := none
  templateNameOverrides : StrMap String := ∅
  deriving DecidableEq

def GatewayDeviceConfig.codec : Codec GatewayDeviceConfig := .record {} [
    .always "protocol" .string protocol fun v s => { s with protocol := v },
    .omitEmpty "autoManaged" .bool autoManaged fun v s => { s with autoManaged := v },
    .omitEmpty "host" .string host fun v s => { s with host := v },
    .omitNil "port" .int nofun port fun v s => { s with port := v },
    .omitNil "slot" .int nofun slot fun v s => { s with slot := v },
    .omitEmpty "endpointUrl" .string endpointURL fun v s => { s with endpointURL := v },
    .omitEmpty "version" .string version fun v s => { s with version := v },
    .omitEmpty "community" .string community fun v s => { s with community := v },
    .omitNil "v3Auth" V3Auth.codec nofun v3Auth fun v s => { s with v3Auth := v },
    .omitNil "unitId" .int nofun unitID fun v s => { s with unitID := v },
    .omitEmpty "byteOrder" .string byteOrder fun v s => { s with byteOrder := v },
    .omitNil "scanRate" .int nofun scanRate fun v s => { s with scanRate := v },
    .omitNil "deadband" DeadBandConfig.codec nofun deadband fun v s => { s with deadband := v },
    .omitNil "disableRBE" .bool nofun disableRBE fun v s => { s with disableRBE := v },
    .omitEmptyMap "templateNameOverrides" .string templateNameOverrides
      fun v s => { s with templateNameOverrides := v }]
  (by decide) fun s => by cases s; rfl

structure GatewayVariableConfig where
  id : String := ""
  description : String := ""
  datatype : String := ""
  default : GoAny := .null
  deviceID : String := ""
  tag : String := ""
  cipType : String := ""
  bidirectional : Bool := false
  deadband : Option DeadBandConfig := none
  disableRBE : Bool := false
  historyEnabled : Bool := false
  functionCode : Option Int := none
  modbusDatatype : String := ""
  byteOrder : String := ""
  address : Option Int := none
  deriving DecidableEq

def GatewayVariableConfig.codec : Codec GatewayVariableConfig := .record {} [
    .always "id" .string id fun v s => { s with id := v },
    .omitEmpty "description" .string description fun v s => { s with description := v },
    .always "datatype" .string datatype fun v s => { s with datatype := v },
    .always "default" .any default fun v s => { s with default := v },
    .always "deviceId" .string deviceID fun v s => { s with deviceID := v },
    .always "tag" .string tag fun v s => { s with tag := v },
    .omitEmpty "cipType" .string cipType fun v s => { s with cipType := v },
    .omitEmpty "bidirectional" .bool bidirectional fun v s => { s with bidirectional := v },
    .omitNil "deadband" DeadBandConfig.codec nofun deadband fun v s => { s with deadband := v },
    .omitEmpty "disableRBE" .bool disableRBE fun v s => { s with disableRBE := v },
    .omitEmpty "historyEnabled" .bool historyEnabled fun v s => { s with historyEnabled := v },
    .omitNil "functionCode" .int nofun functionCode fun v s => { s with functionCode := v },
    .omitEmpty "modbusDatatype" .string modbusDatatype fun v s => { s with modbusDatatype := v },
    .omitEmpty "byteOrder" .string byteOrder fun v s => { s with byteOrder := v },
    .omitNil "address" .int nofun address fun v s => { s with address := v }]
  (by decide) fun s => by cases s; rfl

structure GatewayUdtTemplateMemberConfig where
  name : String := ""
  datatype : String := ""
  templateRef : String := ""
  defaultDeadband : Option DeadBandConfig := none
  functionCode : String := ""
  modbusDatatype : String := ""
  deriving DecidableEq

def GatewayUdtTemplateMemberConfig.codec : Codec GatewayUdtTemplateMemberConfig := .record {} [
    .always "name" .string name fun v s => { s with name := v },
    .always "datatype" .string datatype fun v s => { s with datatype := v },
    .omitEmpty "templateRef" .string templateRef fun v s => { s with templateRef := v },
    .omitNil "defaultDeadband" DeadBandConfig.codec nofun defaultDeadband
      fun v s => { s with defaultDeadband := v },
    .omitEmpty "functionCode" .string functionCode fun v s => { s with functionCode := v },
    .omitEmpty "modbusDatatype" .string modbusDatatype fun v s => { s with modbusDatatype := v }]
  (by decide) fun s => by cases s; rfl

structure GatewayUdtTemplateConfig where
  name : String := ""
  version : String := ""
  members : Option (List GatewayUdtTemplateMemberConfig) := none
  deriving DecidableEq

def GatewayUdtTemplateConfig.codec : Codec GatewayUdtTemplateConfig := .record {} [
    .always "name" .string name fun v s => { s with name := v },
    .omitEmpty "version" .string version fun v s => { s with version := v },
    .always "members" (.nilable (.slice GatewayUdtTemplateMemberConfig.codec) nofun) members
      fun v s => { s with members := v }]
  (by decide) fun s => by cases s; rfl

structure GatewayUdtVariableConfig where
  id : String := ""
  deviceID : String := ""
  tag : String := ""
  templateName : String := ""
  memberTags : Option (StrMap String) := none
  memberCipTypes : StrMap String := ∅
  memberDeadbands : StrMap DeadBandOverride := ∅
  deadband : Option DeadBandConfig := none
  disableRBE : Bool := false
  historyEnabled : Bool := false
  memberAddresses : StrMap Int := ∅
  memberByteOrders : StrMap String := ∅
  deriving DecidableEq

def GatewayUdtVariableConfig.codec : Codec GatewayUdtVariableConfig := .record {} [
    .always "id" .string id fun v s => { s with id := v },
    .always "deviceId" .string deviceID fun v s => { s with deviceID := v },
    .always "tag" .string tag fun v s => { s with tag := v },
    .always "templateName" .string templateName fun v s => { s with templateName := v },
    .always "memberTags" (.nilable (.map .string) nofun) memberTags
      fun v s => { s with memberTags := v },
    .omitEmptyMap "memberCipTypes" .string memberCipTypes
      fun v s => { s with memberCipTypes := v },
    .omitEmptyMap "memberDeadbands" DeadBandOverride.codec memberDeadbands
      fun v s => { s with memberDeadbands := v },
    .omitNil "deadband" DeadBandConfig.codec nofun deadband fun v s => { s with deadband := v },
    .omitEmpty "disableRBE" .bool disableRBE fun v s => { s with disableRBE := v },
    .omitEmpty "historyEnabled" .bool historyEnabled fun v s => { s with historyEnabled := v },
    .omitEmptyMap "memberAddresses" .int memberAddresses
      fun v s => { s with memberAddresses := v },
    .omitEmptyMap "memberByteOrders" .string memberByteOrders
      fun v s => { s with memberByteOrders := v }]
  (by decide) fun s => by cases s; rfl

/-! ## PLCs -/

structure PlcDeviceConfigKV where
  protocol : String := ""
  host : String := ""
  port : Option Int := none
  slot : Option Int := none
  endpointURL : String := ""
  version : String := ""
  community : String := ""
  unitID : Option Int := none
  scanRate : Option Int := none
  deriving DecidableEq

def PlcDeviceConfigKV.codec : Codec PlcDeviceConfigKV := .record {} [
    .always "protocol" .string protocol fun v s => { s with protocol := v },
    .omitEmpty "host" .string host fun v s => { s with host := v },
    .omitNil "port" .int nofun port fun v s => { s with port := v },
    .omitNil "slot" .int nofun slot fun v s => { s with slot := v },
    .omitEmpty "endpointUrl" .string endpointURL fun v s => { s with endpointURL := v },
    .omitEmpty "version" .string version fun v s => { s with version := v },
    .omitEmpty "community" .string community fun v s => { s with community := v },
    .omitNil "unitId" .int nofun unitID fun v s => { s with unitID := v },
    .omitNil "scanRate" .int nofun scanRate fun v s => { s with scanRate := v }]
  (by decide) fun s => by cases s; rfl

structure PlcVariableSourceKV where
  protocol : String := ""
  deviceID : String := ""
  tag : String := ""
  cipType : String := ""
  functionCode : Option Int := none
  modbusDatatype : String := ""
  byteOrder : String := ""
  address : Option Int := none
  deriving DecidableEq

def PlcVariableSourceKV.codec : Codec PlcVariableSourceKV := .record {} [
    .always "protocol" .string protocol fun v s => { s with protocol := v },
    .always "deviceId" .string deviceID fun v s => { s with deviceID := v },
    .always "tag" .string tag fun v s => { s with tag := v },
    .omitEmpty "cipType" .string cipType fun v s => { s with cipType := v },
    .omitNil "functionCode" .int nofun functionCode fun v s => { s with functionCode := v },
    .omitEmpty "modbusDatatype" .string modbusDatatype fun v s => { s with modbusDatatype := v },
    .omitEmpty "byteOrder" .string byteOrder fun v s => { s with byteOrder := v },
    .omitNil "address" .int nofun address fun v s => { s with address := v }]
  (by decide) fun s => by cases s; rfl

structure PlcVariableConfigKV where
  id : String := ""
  description : String := ""
  datatype : String := ""
  default : GoAny := .null
  direction : String := ""
  source : Option PlcVariableSourceKV := none
  deadband : Option DeadBandConfig := none
  disableRBE : Bool := false
  deriving DecidableEq

def PlcVariableConfigKV.codec : Codec PlcVariableConfigKV := .record {} [
    .always "id" .string id fun v s => { s with id := v },
    .omitEmpty "description" .string description fun v s => { s with description := v },
    .always "datatype" .string datatype fun v s => { s with datatype := v },
    .always "default" .any default fun v s => { s with default := v },
    .always "direction" .string direction fun v s => { s with direction := v },
    .omitNil "source" PlcVariableSourceKV.codec nofun source fun v s => { s with source := v },
    .omitNil "deadband" DeadBandConfig.codec nofun deadband fun v s => { s with deadband := v },
    .omitEmpty "disableRBE" .bool disableRBE fun v s => { s with disableRBE := v }]
  (by decide) fun s => by cases s; rfl

structure PlcUdtTemplateMemberConfig where
  name : String := ""
  datatype : String := ""
  deriving DecidableEq

def PlcUdtTemplateMemberConfig.codec : Codec PlcUdtTemplateMemberConfig := .record {} [
    .always "name" .string name fun v s => { s with name := v },
    .always "datatype" .string datatype fun v s => { s with datatype := v }]
  (by decide) fun s => by cases s; rfl

structure PlcUdtTemplateConfigKV where
  name : String := ""
  version : String := ""
  members : Option (List PlcUdtTemplateMemberConfig) := none
  deriving DecidableEq

def PlcUdtTemplateConfigKV.codec : Codec PlcUdtTemplateConfigKV := .record {} [
    .always "name" .string name fun v s => { s with name := v },
    .omitEmpty "version" .string version fun v s => { s with version := v },
    .always "members" (.nilable (.slice PlcUdtTemplateMemberConfig.codec) nofun) members
      fun v s => { s with members := v }]
  (by decide) fun s => by cases s; rfl

structure PlcTaskConfigKV where
  name : String := ""
  description : String := ""
  scanRateMs : Int := 0
  programRef : String := ""
  enabled : Bool := false
  deriving DecidableEq

def PlcTaskConfigKV.codec : Codec PlcTaskConfigKV := .record {} [
    .always "name" .string name fun v s => { s with name := v },
    .omitEmpty "description" .string description fun v s => { s with description := v },
    .always "scanRateMs" .int scanRateMs fun v s => { s with scanRateMs := v },
    .always "programRef" .string programRef fun v s => { s with programRef := v },
    .always "enabled" .bool enabled fun v s => { s with enabled := v }]
  (by decide) fun s => by cases s; rfl

structure PlcProgramSpec where
  language : String := ""
  source : String := ""
  stSource : String := ""
  deriving DecidableEq

def PlcProgramSpec.codec : Codec PlcProgramSpec := .record {} [
    .always "language" .string language fun v s => { s with language := v },
    .always "source" .string source fun v s => { s with source := v },
    .omitEmpty "stSource" .string stSource fun v s => { s with stSource := v }]
  (by decide) fun s => by cases s; rfl

/-! ## Infrastructure -/

structure NatRule where
  id : String := ""
  enabled : Bool := false
  protocol : String := ""
  connectingDevices : String := ""
  incomingInterface : String := ""
  outgoingInterface : String := ""
  natAddr : String := ""
  originalPort : String := ""
  translatedPort : String := ""
  deviceAddr : String := ""
  deviceName : String := ""
  doubleNat : Bool := false
  doubleNatAddr : String := ""
  comment : String := ""
  deriving DecidableEq

def NatRule.codec : Codec NatRule := .record {} [
    .always "id" .string id fun v s => { s with id := v },
    .always "enabled" .bool enabled fun v s => { s with enabled := v },
    .always "protocol" .string protocol fun v s => { s with protocol := v },
    .always "connectingDevices" .string connectingDevices
      fun v s => { s with connectingDevices := v },
    .always "incomingInterface" .string incomingInterface
      fun v s => { s with incomingInterface := v },
    .always "outgoingInterface" .string outgoingInterface
      fun v s => { s with outgoingInterface := v },
    .always "natAddr" .string natAddr fun v s => { s with natAddr := v },
    .always "originalPort" .string originalPort fun v s => { s with originalPort := v },
    .always "translatedPort" .string translatedPort fun v s => { s with translatedPort := v },
    .always "deviceAddr" .string deviceAddr fun v s => { s with deviceAddr := v },
    .always "deviceName" .string deviceName fun v s => { s with deviceName := v },
    .always "doubleNat" .bool doubleNat fun v s => { s with doubleNat := v },
    .omitEmpty "doubleNatAddr" .string doubleNatAddr fun v s => { s with doubleNatAddr := v },
    .omitEmpty "comment" .string comment fun v s => { s with comment := v }]
  (by decide) fun s => by cases s; rfl

structure NetworkInterfaceConfig where
  interfaceName : String := ""
  dhcp4 : Bool := false
  addresses : List String := []
  gateway4 : String := ""
  nameservers : List String := []
  mtu : Int := 0
  deriving DecidableEq

def NetworkInterfaceConfig.codec : Codec NetworkInterfaceConfig := .record {} [
    .always "interfaceName" .string interfaceName fun v s => { s with interfaceName := v },
    .always "dhcp4" .bool dhcp4 fun v s => { s with dhcp4 := v },
    .omitEmpty "addresses" (.slice .string) addresses fun v s => { s with addresses := v },
    .omitEmpty "gateway4" .string gateway4 fun v s => { s with gateway4 := v },
    .omitEmpty "nameservers" (.slice .string) nameservers fun v s => { s with nameservers := v },
    .omitEmpty "mtu" .int mtu fun v s => { s with mtu := v }]
  (by decide) fun s => by cases s; rfl

/-! ## The specs of the resources -/

structure GatewaySpec where
  devices : Option (StrMap GatewayDeviceConfig) := none
  variableConfigs : Option (StrMap GatewayVariableConfig) := none
  udtTemplates : StrMap GatewayUdtTemplateConfig := ∅
  udtVariables : StrMap GatewayUdtVariableConfig := ∅
  deriving DecidableEq

def GatewaySpec.codec : Codec GatewaySpec := .record {} [
    .always "devices" (.nilable (.map GatewayDeviceConfig.codec) nofun) devices
      fun v s => { s with devices := v },
    .always "variables" (.nilable (.map GatewayVariableConfig.codec) nofun) variableConfigs
      fun v s => { s with variableConfigs := v },
    .omitEmptyMap "udtTemplates" GatewayUdtTemplateConfig.codec udtTemplates
      fun v s => { s with udtTemplates := v },
    .omitEmptyMap "udtVariables" GatewayUdtVariableConfig.codec udtVariables
      fun v s => { s with udtVariables := v }]
  (by decide) fun s => by cases s; rfl

structure ServiceSpec where
  version : String := ""
  running : Bool := false
  enabled : Option Bool := none
  deriving DecidableEq

def ServiceSpec.codec : Codec ServiceSpec := .record {} [
    .always "version" .string version fun v s => { s with version := v },
    .always "running" .bool running fun v s => { s with running := v },
    .omitNil "enabled" .bool nofun enabled fun v s => { s with enabled := v }]
  (by decide) fun s => by cases s; rfl

structure ModuleConfigSpec where
  values : Option (StrMap String) := none
  deriving DecidableEq

def ModuleConfigSpec.codec : Codec ModuleConfigSpec := .record {} [
    .always "values" (.nilable (.map .string) nofun) values fun v s => { s with values := v }]
  (by decide) fun s => by cases s; rfl

structure NftablesSpec where
  natRules : Option (List NatRule) := none
  deriving DecidableEq

def NftablesSpec.codec : Codec NftablesSpec := .record {} [
    .always "natRules" (.nilable (.slice NatRule.codec) nofun) natRules
      fun v s => { s with natRules := v }]
  (by decide) fun s => by cases s; rfl

structure NetworkSpec where
  interfaces : Option (List NetworkInterfaceConfig) := none
  deriving DecidableEq

def NetworkSpec.codec : Codec NetworkSpec := .record {} [
    .always "interfaces" (.nilable (.slice NetworkInterfaceConfig.codec) nofun) interfaces
      fun v s => { s with interfaces := v }]
  (by decide) fun s => by cases s; rfl

structure PlcSpec where
  devices : Option (StrMap PlcDeviceConfigKV) := none
  variableConfigs : Option (StrMap PlcVariableConfigKV) := none
  udtTemplates : StrMap PlcUdtTemplateConfigKV := ∅
  tasks : Option (StrMap PlcTaskConfigKV) := none
  programs : Option (StrMap PlcProgramSpec) := none
  deriving DecidableEq

/-- A map with `omitempty` of which the code asks whether it is nil. -/
def nilIfEmpty {V : Type} (m : StrMap V) : Option (StrMap V) := if m.isEmpty then none else some m

def PlcSpec.fields : List (RecordField PlcSpec) := [
    .always "devices" (.nilable (.map PlcDeviceConfigKV.codec) nofun) devices
      fun v s => { s with devices := v },
    .always "variables" (.nilable (.map PlcVariableConfigKV.codec) nofun) variableConfigs
      fun v s => { s with variableConfigs := v },
    .omitEmptyMap "udtTemplates" PlcUdtTemplateConfigKV.codec udtTemplates
      fun v s => { s with udtTemplates := v },
    .always "tasks" (.nilable (.map PlcTaskConfigKV.codec) nofun) tasks
      fun v s => { s with tasks := v },
    .omitEmptyMap "programs" PlcProgramSpec.codec (fun s => s.programs.getD ∅)
      fun v s => { s with programs := nilIfEmpty v }]

/-- The spec as it comes back from a document, where an empty map of programs is nil. -/
def PlcSpec.wire (spec : PlcSpec) : PlcSpec :=
  { spec with programs := nilIfEmpty (spec.programs.getD ∅) }

theorem PlcSpec.rebuild_fields (spec : PlcSpec) : rebuild {} fields spec = spec.wire := by
  cases spec
  rfl

/-! ## Resources -/

inductive Kind where
  | gateway
  | service
  | moduleConfig
  | nftables
  | network
  | plc
  deriving DecidableEq, Repr

def Kind.text : Kind → String
  | .gateway => "Gateway"
  | .service => "Service"
  | .moduleConfig => "ModuleConfig"
  | .nftables => "Nftables"
  | .network => "Network"
  | .plc => "Plc"

def apiVersion : String := "tentacle.joyautomation.com/v1"

def Kind.all : List Kind := [.gateway, .service, .moduleConfig, .nftables, .network, .plc]

def knownKind (text : String) : Option Kind := Kind.all.find? fun kind => kind.text = text

theorem knownKind_text (kind : Kind) : knownKind kind.text = some kind := by
  cases kind <;> decide

/-- The spec of a resource, by its kind. -/
inductive Spec where
  | gateway (spec : GatewaySpec)
  | service (spec : ServiceSpec)
  | moduleConfig (spec : ModuleConfigSpec)
  | nftables (spec : NftablesSpec)
  | network (spec : NetworkSpec)
  | plc (spec : PlcSpec)
  deriving DecidableEq

def Spec.kind : Spec → Kind
  | .gateway _ => .gateway
  | .service _ => .service
  | .moduleConfig _ => .moduleConfig
  | .nftables _ => .nftables
  | .network _ => .network
  | .plc _ => .plc

/-- A resource with the header that `NewHeader` gives it: the API version is the known one
and the kind is that of its type. -/
structure Resource where
  name : String
  spec : Spec
  deriving DecidableEq

def Resource.kind (r : Resource) : Kind := r.spec.kind

/-- `json.Marshal` of the spec. -/
def Spec.encode : Spec → Doc
  | .gateway spec => GatewaySpec.codec.encode spec
  | .service spec => ServiceSpec.codec.encode spec
  | .moduleConfig spec => ModuleConfigSpec.codec.encode spec
  | .nftables spec => NftablesSpec.codec.encode spec
  | .network spec => NetworkSpec.codec.encode spec
  | .plc spec => encodeRecord PlcSpec.fields spec

def decodeSpec : Kind → Doc → Option Spec
  | .gateway, j => (GatewaySpec.codec.decode j).map .gateway
  | .service, j => (ServiceSpec.codec.decode j).map .service
  | .moduleConfig, j => (ModuleConfigSpec.codec.decode j).map .moduleConfig
  | .nftables, j => (NftablesSpec.codec.decode j).map .nftables
  | .network, j => (NetworkSpec.codec.decode j).map .network
  | .plc, j => (decodeRecord {} PlcSpec.fields j).map .plc

def Spec.wire : Spec → Spec
  | .plc spec => .plc spec.wire
  | spec => spec

def Resource.wire (r : Resource) : Resource := { r with spec := r.spec.wire }

theorem PlcSpec.distinct_fields : Distinct PlcSpec.fields := by decide

/-- A spec is read back from its JSON as `wire` says. -/
theorem decodeSpec_encode (spec : Spec) : decodeSpec spec.kind spec.encode = some spec.wire := by
  cases spec with
  | gateway spec => exact congrArg (Option.map _) (GatewaySpec.codec.decode_encode spec)
  | service spec => exact congrArg (Option.map _) (ServiceSpec.codec.decode_encode spec)
  | moduleConfig spec => exact congrArg (Option.map _) (ModuleConfigSpec.codec.decode_encode spec)
  | nftables spec => exact congrArg (Option.map _) (NftablesSpec.codec.decode_encode spec)
  | network spec => exact congrArg (Option.map _) (NetworkSpec.codec.decode_encode spec)
  | plc spec =>
    rw [Spec.encode, Spec.kind, decodeSpec, decodeRecord_encodeRecord PlcSpec.distinct_fields,
      PlcSpec.rebuild_fields]
    rfl

theorem canonical_encode (spec : Spec) : Canonical spec.encode := by
  cases spec with
  | gateway spec => exact GatewaySpec.codec.canonical spec
  | service spec => exact ServiceSpec.codec.canonical spec
  | moduleConfig spec => exact ModuleConfigSpec.codec.canonical spec
  | nftables spec => exact NftablesSpec.codec.canonical spec
  | network spec => exact NetworkSpec.codec.canonical spec
  | plc spec => exact canonical_encodeRecord PlcSpec.distinct_fields spec

/-! ## Documents -/

structure Metadata where
  name : String := ""
  deriving DecidableEq

def Metadata.codec : Codec Metadata := .record {} [
    .always "name" .string name fun v s => { s with name := v }]
  (by decide) fun s => by cases s; rfl

/-- A resource of any kind, before its spec is read. -/
structure Document where
  apiVersion : String := ""
  kind : String := ""
  metadata : Metadata := {}
  spec : GoAny := .null
  deriving DecidableEq

def Document.fields : List (RecordField Document) := [
    .always "apiVersion" .string apiVersion fun v s => { s with apiVersion := v },
    .always "kind" .string kind fun v s => { s with kind := v },
    .always "metadata" Metadata.codec metadata fun v s => { s with metadata := v },
    .always "spec" .any spec fun v s => { s with spec := v }]

theorem Document.distinct_fields : Distinct Document.fields := by decide

theorem Document.rebuild_fields (doc : Document) : rebuild {} fields doc = doc := by
  cases doc
  rfl

def Resource.document (r : Resource) : Document where
  apiVersion := apiVersion
  kind := r.kind.text
  metadata := ⟨r.name⟩
  spec := ⟨r.spec.encode, canonical_encode r.spec⟩

/-- The errors of `Parse`: `decode YAML document: %w`, `unsupported apiVersion: %q (expected
%q)`, `unknown resource kind: %q`, and `decode Gateway: %w` with its siblings. -/
inductive ParseError where
  | document
  | apiVersion (text : String)
  | kind (text : String)
  | decode (kind : Kind)
  deriving DecidableEq, Repr

/-- The type assertion `raw[key].(string)`. -/
def stringOf (raw : StrMap Doc) (key : String) : String :=
  match raw[key]? with
  | some (.string s) => s
  | _ => ""

def decodeResource (raw : StrMap Doc) : Except ParseError Resource :=
  if stringOf raw "apiVersion" ≠ apiVersion then
    .error (.apiVersion (stringOf raw "apiVersion"))
  else
    match knownKind (stringOf raw "kind") with
    | none => .error (.kind (stringOf raw "kind"))
    | some kind =>
      match decodeRecord {} Document.fields (.object raw.toList) with
      | none => .error (.decode kind)
      | some doc =>
        match decodeSpec kind doc.spec.val with
        | none => .error (.decode kind)
        | some spec => .ok ⟨doc.metadata.name, spec⟩

/-- The YAML library: the documents that are encoded with `---` between them, and the loop
that decodes one document after another. A document is a tree whose mappings have no order
of their own; what is encoded is decoded again. -/
structure Yaml where
  Text : Type
  encode : List Doc → Text
  decode : Text → Option (List Doc)
  decode_encode : ∀ docs, (∀ doc ∈ docs, Canonical doc) → decode (encode docs) = some docs

/-- The documents themselves in the place of their text. -/
def Yaml.tree : Yaml where
  Text := List Doc
  encode docs := docs
  decode := some
  decode_encode _ _ := rfl

/-- An empty document is passed over. -/
def parseDocument : Doc → Except ParseError (List Resource)
  | .null => .ok []
  | .object fields => (decodeResource (.ofList fields)).map fun r => [r]
  | _ => .error .document

variable (yaml : Yaml)

def serialize (resources : List Resource) : yaml.Text :=
  yaml.encode (resources.map fun r => encodeRecord Document.fields r.document)

def parse (text : yaml.Text) : Except ParseError (List Resource) :=
  match yaml.decode text with
  | none => .error .document
  | some docs => do return (← docs.mapM parseDocument).flatten

theorem stringOf_document (r : Resource) {key text : String}
    (h : (key, .string text) ∈ Document.fields.filterMap (RecordField.entry r.document)) :
    stringOf (recordEntries Document.fields r.document) key = text := by
  rw [← mem_recordEntries Document.distinct_fields,
    ExtTreeMap.mem_toList_iff_getElem?_eq_some] at h
  rw [stringOf, h]

/-- A document is read back as its resource. -/
theorem parseDocument_document (r : Resource) :
    parseDocument (encodeRecord Document.fields r.document) = .ok [r.wire] := by
  have hversion : stringOf (recordEntries Document.fields r.document) "apiVersion" = apiVersion :=
    stringOf_document r (.head _)
  have hkind : stringOf (recordEntries Document.fields r.document) "kind" = r.kind.text :=
    stringOf_document r (.tail _ (.head _))
  have hdoc : decodeRecord {} Document.fields
      (.object (recordEntries Document.fields r.document).toList) = some r.document := by
    rw [← encodeRecord, decodeRecord_encodeRecord Document.distinct_fields,
      Document.rebuild_fields]
  rw [encodeRecord, parseDocument, ofList_toList, decodeResource, if_neg (not_not.mpr hversion),
    hkind, knownKind_text]
  dsimp only
  rw [hdoc]
  dsimp only [Resource.document]
  rw [Resource.kind, decodeSpec_encode]
  rfl

/-- A list of documents is read back one by one. -/
theorem mapM_parseDocument (resources : List Resource) :
    (resources.map fun r => encodeRecord Document.fields r.document).mapM parseDocument =
      .ok (resources.map fun r => [r.wire]) := by
  induction resources with
  | nil => rfl
  | cons r resources ih =>
    rw [List.map_cons, List.mapM_cons, parseDocument_document, ih]
    rfl

theorem flatten_map_wire (resources : List Resource) :
    (resources.map fun r => [r.wire]).flatten = resources.map Resource.wire := by
  rw [← List.flatMap_def, List.map_eq_flatMap]

/-- What is serialised is parsed again, but for an empty map of programs. -/
theorem parse_serialize (resources : List Resource) :
    parse yaml (serialize yaml resources) = .ok (resources.map Resource.wire) := by
  have hdecode : yaml.decode (serialize yaml resources) =
      some (resources.map fun r => encodeRecord Document.fields r.document) := by
    apply yaml.decode_encode _
    intro doc hdoc
    obtain ⟨r, -, rfl⟩ := List.mem_map.mp hdoc
    exact canonical_encodeRecord Document.distinct_fields r.document
  rw [parse, hdecode]
  dsimp only
  rw [mapM_parseDocument, ← flatten_map_wire]
  rfl

end Manifest
