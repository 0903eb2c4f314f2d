import Tentacle.GoValues

/-!
# The Sparkplug payload codec

The user-facing payload types, the protobuf message types they are converted
to, and the two conversions, switch by switch. A Go `interface{}` is one of the
dynamic types the codec accepts. `proto.Marshal` and `proto.Unmarshal` are a
parameter.
-/

namespace SparkplugPayload

open GoValues

/-- The `DataType` codes with a case in the codec; `other` is any further code. -/
inductive DataType where
  | unknown
  | int8 | int16 | int32 | int64
  | uint8 | uint16 | uint32 | uint64
  | float | double
  | boolean
  | string
  | dateTime
  | text
  | bytes
  | template
  | other (code : Nat)
  deriving DecidableEq, Repr

inductive IntKind where
  | int | int8 | int16 | int32 | int64
  | uint | uint8 | uint16 | uint32 | uint64
  deriving DecidableEq, Repr

/-- The dynamic type and content of a `Value interface{}`; `T` is the type of
the templates it may point to. No switch of the codec has a case for `other`. -/
inductive Value (F32 F64 T : Type) where
  | bool (b : Bool)
  | int (kind : IntKind) (n : Int)
  | float32 (x : F32)
  | float64 (x : F64)
  | string (s : String)
  | bytes (b : Bytes)
  | template (t : T)
  | other (goType : String)
  deriving DecidableEq, Repr

structure Parameter (F32 F64 : Type) where
  name : String
  datatype : DataType
  value : Option (Value F32 F64 Empty)
  deriving DecidableEq, Repr

structure Template (F32 F64 M : Type) where
  version : String
  templateRef : String
  isDefinition : Bool
  metrics : List M
  parameters : List (Parameter F32 F64)

structure Metric (F32 F64 : Type) where
  name : String
  aliasId : Nat := 0
  timestamp : Nat := 0
  datatype : DataType
  isHistorical : Bool := false
  isTransient : Bool := false
  isNull : Bool := false
  value : Option (Value F32 F64 (Template F32 F64 (Metric F32 F64)))

structure Payload (F32 F64 : Type) where
  timestamp : Nat
  seq : Nat
  omitSeq : Bool := false
  metrics : List (Metric F32 F64)

/-- The `value` oneof of a protobuf metric; the decoder ignores data sets and
extensions. -/
inductive PbValue (F32 F64 T : Type) where
  | intValue (n : Nat)
  | longValue (n : Nat)
  | floatValue (x : F32)
  | doubleValue (x : F64)
  | booleanValue (b : Bool)
  | stringValue (s : String)
  | bytesValue (b : Bytes)
  | templateValue (t : T)
  | otherValue

/-- The `value` oneof of a protobuf template parameter. -/
inductive PbParameterValue (F32 F64 : Type) where
  | intValue (n : Nat)
  | longValue (n : Nat)
  | floatValue (x : F32)
  | doubleValue (x : F64)
  | booleanValue (b : Bool)
  | stringValue (s : String)
  | extensionValue

structure PbParameter (F32 F64 : Type) where
  name : Option String
  type : Option DataType
  value : Option (PbParameterValue F32 F64)

structure PbTemplate (F32 F64 M : Type) where
  version : Option String
  metrics : List M
  parameters : List (PbParameter F32 F64)
  templateRef : Option String
  isDefinition : Option Bool

structure PbMetric (F32 F64 : Type) where
  name : Option String
  aliasId : Option Nat
  timestamp : Option Nat
  datatype : Option DataType
  isHistorical : Option Bool
  isTransient : Option Bool
  isNull : Option Bool
  value : Option (PbValue F32 F64 (PbTemplate F32 F64 (PbMetric F32 F64)))

structure PbPayload (F32 F64 : Type) where
  timestamp : Option Nat
  metrics : List (PbMetric F32 F64)
  seq : Option Nat

section Conversions

variable {F32 F64 T : Type}

/-- What `%T` prints for the value. -/
def Value.goType : Value F32 F64 T → String
  | .bool _ => "bool"
  | .int .int _ => "int"
  | .int .int8 _ => "int8"
  | .int .int16 _ => "int16"
  | .int .int32 _ => "int32"
  | .int .int64 _ => "int64"
  | .int .uint _ => "uint"
  | .int .uint8 _ => "uint8"
  | .int .uint16 _ => "uint16"
  | .int .uint32 _ => "uint32"
  | .int .uint64 _ => "uint64"
  | .float32 _ => "float32"
  | .float64 _ => "float64"
  | .string _ => "string"
  | .bytes _ => "[]uint8"
  | .template _ => "*sparkplug.Template"
  | .other goType => goType

/-- `uint32(n)` and `uint64(n)`: the low bits in two's complement. -/
def wrap (bits : Nat) (n : Int) : Nat := (n % 2 ^ bits).toNat

variable [GoFloats F32 F64]

def toUint32 : Value F32 F64 T → Except String Nat
  | .int _ n => .ok (wrap 32 n)
  | .float32 x => .ok (wrap 32 (GoFloats.trunc32 F64 x))
  | .float64 x => .ok (wrap 32 (GoFloats.trunc64 F32 x))
  | v => .error ("cannot convert " ++ v.goType ++ " to uint32")

def toUint64 : Value F32 F64 T → Except String Nat
  | .int _ n => .ok (wrap 64 n)
  | .float32 x => .ok (wrap 64 (GoFloats.trunc32 F64 x))
  | .float64 x => .ok (wrap 64 (GoFloats.trunc64 F32 x))
  | v => .error ("cannot convert " ++ v.goType ++ " to uint64")

/-- Only `int`, `int64` and `uint64` among the integers have a case here. -/
def toFloat32 : Value F32 F64 T → Except String F32
  | .float32 x => .ok x
  | .float64 x => .ok (GoFloats.narrow x)
  | .int .int n => .ok (GoFloats.ofInt32 F64 n)
  | .int .int64 n => .ok (GoFloats.ofInt32 F64 n)
  | .int .uint64 n => .ok (GoFloats.ofInt32 F64 n)
  | v => .error ("cannot convert " ++ v.goType ++ " to float32")

def toFloat64 : Value F32 F64 T → Except String F64
  | .float64 x => .ok x
  | .float32 x => .ok (GoFloats.widen x)
  | .int _ n => .ok (GoFloats.ofInt64 F32 n)
  | v => .error ("cannot convert " ++ v.goType ++ " to float64")

end Conversions

section Encode

variable {F32 F64 : Type} [GoFloats F32 F64]

/-- `proto.String`, `proto.Uint64` and `proto.Bool` behind the zero checks. -/
def present [BEq α] (zero x : α) : Option α := if x == zero then none else some x

def encodeParameter (p : Parameter F32 F64) : Except String (PbParameter F32 F64) :=
  match p.value with
  | none => .ok ⟨some p.name, some p.datatype, none⟩
  | some v =>
    match p.datatype with
    | .int8 | .int16 | .int32 | .uint8 | .uint16 | .uint32 => do
      let n ← toUint32 v
      return ⟨some p.name, some p.datatype, some (.intValue n)⟩
    | .int64 | .uint64 | .dateTime => do
      let n ← toUint64 v
      return ⟨some p.name, some p.datatype, some (.longValue n)⟩
    | .float => do
      let x ← toFloat32 v
      return ⟨some p.name, some p.datatype, some (.floatValue x)⟩
    | .double => do
      let x ← toFloat64 v
      return ⟨some p.name, some p.datatype, some (.doubleValue x)⟩
    | .boolean =>
      match v with
      | .bool b => .ok ⟨some p.name, some p.datatype, some (.booleanValue b)⟩
      | v => .error ("expected bool, got " ++ v.goType)
    | .string | .text =>
      match v with
      | .string s => .ok ⟨some p.name, some p.datatype, some (.stringValue s)⟩
      | v => .error ("expected string, got " ++ v.goType)
    | _ => .ok ⟨some p.name, some p.datatype, none⟩

/-- The default case of the switch: a string goes out as a string. -/
def setOtherValue {T U : Type} (code : Nat) :
    Value F32 F64 T → Except String (PbValue F32 F64 U)
  | .string s => .ok (.stringValue s)
  | v => .error ("unsupported datatype " ++ toString code ++ " for value " ++ v.goType)

/-- The cases of `setMetricValue` on the datatype that build no template. -/
def setScalarValue {T U : Type} (dt : DataType) (v : Value F32 F64 T) :
    Except String (PbValue F32 F64 U) :=
  match dt with
  | .int8 | .int16 | .int32 => do
    let n ← toUint32 v
    return .intValue n
  | .uint8 | .uint16 | .uint32 => do
    let n ← toUint32 v
    return .intValue n
  | .int64 | .dateTime => do
    let n ← toUint64 v
    return .longValue n
  | .uint64 => do
    let n ← toUint64 v
    return .longValue n
  | .float => do
    let x ← toFloat32 v
    return .floatValue x
  | .double => do
    let x ← toFloat64 v
    return .doubleValue x
  | .boolean =>
    match v with
    | .bool b => .ok (.booleanValue b)
    | v => .error ("expected bool, got " ++ v.goType)
  | .string | .text =>
    match v with
    | .string s => .ok (.stringValue s)
    | v => .error ("expected string, got " ++ v.goType)
  | .bytes =>
    match v with
    | .bytes b => .ok (.bytesValue b)
    | v => .error ("expected []byte, got " ++ v.goType)
  | .template => .error ("expected *Template, got " ++ v.goType)
  | .unknown => setOtherValue 0 v
  | .other code => setOtherValue code v

mutual

def encodeMetric : Metric F32 F64 → Except String (PbMetric F32 F64)
  | ⟨name, aliasId, timestamp, datatype, isHistorical, isTransient, isNull, value⟩ =>
    let pbm : PbMetric F32 F64 :=
      { name := present "" name
        aliasId := present 0 aliasId
        timestamp := present 0 timestamp
        datatype := some datatype
        isHistorical := present false isHistorical
        isTransient := present false isTransient
        isNull := present false isNull
        value := none }
    if isNull then .ok pbm
    else
      match value with
      | none => .ok { pbm with isNull := some true }
      | some v => do
        let pbv ← setMetricValue datatype v
        return { pbm with value := some pbv }

def setMetricValue (dt : DataType) : Value F32 F64 (Template F32 F64 (Metric F32 F64)) →
    Except String (PbValue F32 F64 (PbTemplate F32 F64 (PbMetric F32 F64)))
  | .template t =>
    if dt = .template then do
      let pbt ← encodeTemplate t
      return .templateValue pbt
    else setScalarValue dt (.template t)
  | v => setScalarValue dt v

def encodeTemplate : Template F32 F64 (Metric F32 F64) →
    Except String (PbTemplate F32 F64 (PbMetric F32 F64))
  | ⟨version, templateRef, isDefinition, metrics, parameters⟩ => do
    let pbms ← encodeMetrics metrics
    let pbps ← parameters.mapM encodeParameter
    return ⟨present "" version, pbms, pbps, present "" templateRef, some isDefinition⟩

/-- The loop over the metrics of a template: the first error ends it. -/
def encodeMetrics : List (Metric F32 F64) → Except String (List (PbMetric F32 F64))
  | [] => .ok []
  | m :: ms => do
    let pbm ← encodeMetric m
    let pbms ← encodeMetrics ms
    return pbm :: pbms

end

/-- `EncodePayload` up to `proto.Marshal`; its errors name the metric. -/
def toPb (p : Payload F32 F64) : Except String (PbPayload F32 F64) := do
  let pbms ← p.metrics.mapM (fun m =>
    (encodeMetric m).mapError (fun e => "metric " ++ m.name.quote ++ ": " ++ e))
  return ⟨some p.timestamp, pbms, if p.omitSeq then none else some p.seq⟩

end Encode

section Decode

variable {F32 F64 : Type} [GoFloats F32 F64]

/-- The getters of the oneof answer zero for a member that is not set, and the
switch takes the first member that is not zero. -/
def decodeParameterValue : PbParameterValue F32 F64 → Option (Value F32 F64 Empty)
  | .intValue n => if n ≠ 0 then some (.int .uint32 n) else none
  | .longValue n => if n ≠ 0 then some (.int .uint64 n) else none
  | .floatValue x => if GoFloats.isZero32 F64 x then none else some (.float32 x)
  | .doubleValue x => if GoFloats.isZero64 F32 x then none else some (.float64 x)
  | .booleanValue b => if b then some (.bool b) else none
  | .stringValue s => if s ≠ "" then some (.string s) else none
  | .extensionValue => none

def decodeParameter (pbp : PbParameter F32 F64) : Parameter F32 F64 :=
  { name := pbp.name.getD ""
    datatype := pbp.type.getD .unknown
    value := pbp.value.bind decodeParameterValue }

mutual

def decodeMetric : PbMetric F32 F64 → Metric F32 F64
  | ⟨name, aliasId, timestamp, datatype, isHistorical, isTransient, isNull, value⟩ =>
    { name := name.getD ""
      aliasId := aliasId.getD 0
      timestamp := timestamp.getD 0
      datatype := datatype.getD .unknown
      isHistorical := isHistorical.getD false
      isTransient := isTransient.getD false
      isNull := isNull.getD false
      value :=
        if isNull.getD false then none
        else
          match value with
          | none => none
          | some pbv => decodeValue (datatype.getD .unknown) pbv }

/-- The switch of `decodeMetric`: the oneof member the datatype calls for. -/
def decodeValue (dt : DataType) : PbValue F32 F64 (PbTemplate F32 F64 (PbMetric F32 F64)) →
    Option (Value F32 F64 (Template F32 F64 (Metric F32 F64)))
  | .intValue n =>
    match dt with
    | .int8 | .int16 | .int32 | .uint8 | .uint16 | .uint32 => some (.int .uint32 n)
    | _ => none
  | .longValue n =>
    match dt with
    | .int64 | .uint64 | .dateTime => some (.int .uint64 n)
    | _ => none
  | .floatValue x => if dt = .float then some (.float32 x) else none
  | .doubleValue x => if dt = .double then some (.float64 x) else none
  | .booleanValue b => if dt = .boolean then some (.bool b) else none
  | .stringValue s => if dt = .string ∨ dt = .text then some (.string s) else none
  | .bytesValue b => if dt = .bytes then some (.bytes b) else none
  | .templateValue t => if dt = .template then some (.template (decodeTemplate t)) else none
  | .otherValue => none

def decodeTemplate : PbTemplate F32 F64 (PbMetric F32 F64) → Template F32 F64 (Metric F32 F64)
  | ⟨version, metrics, parameters, templateRef, isDefinition⟩ =>
    { version := version.getD ""
      templateRef := templateRef.getD ""
      isDefinition := isDefinition.getD false
      metrics := decodeMetrics metrics
      parameters := parameters.map decodeParameter }

def decodeMetrics : List (PbMetric F32 F64) → List (Metric F32 F64)
  | [] => []
  | pbm :: pbms => decodeMetric pbm :: decodeMetrics pbms

end

/-- `DecodePayload` after `proto.Unmarshal`. -/
def ofPb (p : PbPayload F32 F64) : Payload F32 F64 :=
  { timestamp := p.timestamp.getD 0
    seq := p.seq.getD 0
    metrics := p.metrics.map decodeMetric }

/-- The protobuf library: `proto.Marshal` and `proto.Unmarshal` at `pb.Payload`. -/
structure Proto (F32 F64 : Type) where
  marshal : PbPayload F32 F64 → Except String Bytes
  unmarshal : Bytes → Except String (PbPayload F32 F64)

def encodePayload (proto : Proto F32 F64) (p : Payload F32 F64) : Except String Bytes := do
  let pbp ← toPb p
  proto.marshal pbp

def decodePayload (proto : Proto F32 F64) (data : Bytes) : Except String (Payload F32 F64) := do
  let pbp ← proto.unmarshal data
  return ofPb pbp

end Decode

section Metrics

variable {F32 F64 : Type}

def newMetric (name : String) (datatype : DataType) (now : Nat)
    (value : Value F32 F64 (Template F32 F64 (Metric F32 F64))) : Metric F32 F64 :=
  { name := name, datatype := datatype, timestamp := now, value := some value }

def newBoolMetric (name : String) (now : Nat) (b : Bool) : Metric F32 F64 :=
  newMetric name .boolean now (.bool b)

def newUInt64Metric (name : String) (now : Nat) (n : Nat) : Metric F32 F64 :=
  newMetric name .uint64 now (.int .uint64 n)

/-- `NatsToSparkplugType`. -/
def natsToSparkplugType (natsType : String) : DataType :=
  if natsType = "number" then .double
  else if natsType = "boolean" then .boolean
  else if natsType = "string" then .string
  else if natsType = "udt" then .template
  else .string

end Metrics

end SparkplugPayload
