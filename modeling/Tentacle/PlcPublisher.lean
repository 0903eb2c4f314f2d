import Tentacle.PlcInputs
import Tentacle.Runs

/-!
# What the soft PLC publishes

Programs and the scanner bridge set variables and mark them as changed. Every ten
milliseconds the publisher takes the marked ones, clears the marks and publishes them one
after another, each with the value it has by then, while they are set again. A new
configuration waits for the publisher to end its round.
-/

namespace PlcPublisher

open GoValues Subjects PlcScannerBridge PlcVariables PlcInputs Runs
open MqttBridge (PlcDataMessage)
open GatewayVariables (BusMessage)

variable {F64 : Type}

/-! ## Values that can be encoded -/

mutual

/-- Whether `json.Marshal` takes the value: it has no number that is not finite. -/
def encodable (finite : F64 → Bool) : Json F64 → Bool
  | .number x => finite x
  | .array elems => encodableElems finite elems
  | .object fields => encodableFields finite fields
  | .null | .bool _ | .string _ => true

def encodableElems (finite : F64 → Bool) : List (Json F64) → Bool
  | [] => true
  | elem :: elems => encodable finite elem && encodableElems finite elems

def encodableFields (finite : F64 → Bool) : List (String × Json F64) → Bool
  | [] => true
  | field :: fields => encodable finite field.2 && encodableFields finite fields

end

/-! ## The publisher -/

def setQuality (vs : VariableStore F64) (id quality : String) : VariableStore F64 :=
  match vs.lookup id with
  | none => vs
  | some v => vs.insert id { v with quality := quality }

/-- The changed variables, in the order in which the map is read, and the store without marks. -/
def drainChanged (vs : VariableStore F64) (order : List String) :
    VariableStore F64 × List String :=
  (mapValues (fun v => { v with changed := false }) vs,
    order.filter fun id => (vs.lookup id).any (·.changed))

structure Plc (F64 : Type) where
  vars : VariableStore F64 := ∅
  /-- The variables of the round that are still to be published. -/
  pending : List String := []
  /-- The time of the round. -/
  now : Int := 0
  /-- What was published under the present configuration. -/
  published : List (BusMessage (PlcDataMessage F64)) := []
  /-- The variables that were set under it. -/
  sets : List String := []

inductive Action (F64 : Type) where
  | set (id : String) (value : Json F64) (nowMs : Int)
  | setQuality (id quality : String)
  /-- A round of the publisher begins. -/
  | drain (order : List String) (now : Int)
  /-- It goes on to the next variable. -/
  | publish
  | applyConfig (config : Option PlcConfigKV) (now : Int)

section Publisher

variable (finite : F64 → Bool) (decode : JsonCodec.GoAny → Json F64) (plcID : String)

def message (now : Int) (v : RuntimeVariable F64) : BusMessage (PlcDataMessage F64) where
  subject := data plcID plcID (sanitizeForSubject v.id)
  data :=
    { moduleID := plcID
      deviceID := plcID
      variableID := v.id
      value := v.value
      timestamp := now
      datatype := v.datatype }

/-- The body of the loop of `publishChanged`. -/
def publishOne (now : Int) (v : RuntimeVariable F64) : List (BusMessage (PlcDataMessage F64)) :=
  if v.direction = "input" then []
  else if encodable finite v.value then [message plcID now v]
  else []

def step (s : Plc F64) : Action F64 → Option (Plc F64)
  | .set id value nowMs =>
    let (vars, ok) := s.vars.set id value nowMs
    some { s with vars, sets := if ok then s.sets ++ [id] else s.sets }
  | .setQuality id quality => some { s with vars := setQuality s.vars id quality }
  | .drain order now =>
    if s.pending = [] ∧ order.Perm s.vars.keys then
      let (vars, changed) := drainChanged s.vars order
      some { s with vars, now, pending := changed }
    else none
  | .publish =>
    match s.pending with
    | [] => none
    | id :: pending => some { s with
        pending := pending
        published := s.published ++
          ((s.vars.lookup id).toList.flatMap (publishOne finite plcID s.now)) }
  | .applyConfig config now =>
    -- the old publisher ends its round before the variables are cleared
    if s.pending = [] then
      some {
        vars := match config with
          | none => ∅
          | some config => registerVariables decode config now }
    else none

end Publisher

/-! ## What the last message says -/

def ofVariable (id : String) (published : List (BusMessage (PlcDataMessage F64))) :
    List (BusMessage (PlcDataMessage F64)) :=
  published.filter (·.data.variableID = id)

/-- The value of the last message of a variable. -/
def lastValue (id : String) (published : List (BusMessage (PlcDataMessage F64))) :
    Option (Json F64) :=
  (ofVariable id published).getLast?.map (·.data.value)

section Steps

variable {finite : F64 → Bool} {decode : JsonCodec.GoAny → Json F64} {plcID : String}
  {s : Plc F64}

end Steps

end PlcPublisher
