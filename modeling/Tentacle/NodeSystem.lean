import Tentacle.Runs
import Tentacle.SparkplugNode

/-!
# Runs of the edge node

The critical sections of the node in any order, with the broker and the file
system around them: every message handed to the MQTT client, the will of every
CONNECT the broker accepted, and the content of the bdSeq file. A new process
starts on the file that the old one left.
-/

namespace NodeSystem

open GoValues SparkplugPayload SparkplugNode

variable {F32 F64 : Type}

structure System (F32 F64 : Type) where
  node : Node F32 F64
  file : Option String
  connects : List (Payload F32 F64)
  wire : List (Message F32 F64)

inductive NodeAction (F32 F64 : Type) where
  | connect (now : Nat) (dial : Option String)
  | loseConnection
  | connectionLost
  | autoReconnect
  | onConnect
  | processHostState (hostID : String) (online : Bool) (timestamp : Int)
  | markDead
  | birth (broker : Broker) (now : Nat) (order : List String)
  | setNodeMetrics (metrics : List (Metric F32 F64))
  | setDeviceMetrics (deviceID : String) (metrics : List (Metric F32 F64))
  | publishDeviceBirth (broker : Broker) (now : Nat) (deviceID : String)
  | publishDeviceData (broker : Broker) (now : Nat) (deviceID : String)
      (metrics : List (Metric F32 F64))
  | publishDeviceDataPayload (broker : Broker) (deviceID : String) (timestamp : Nat)
      (metrics : List (Metric F32 F64))
  | disconnect (broker : Broker) (now : Nat)
  | restart

/-- The session of the client with the broker opens or closes. -/
def setConnected (n : Node F32 F64) (c : Client F32 F64) (connected : Bool) : Node F32 F64 :=
  { n with client := some { c with connected := connected } }

variable [GoFloats F32 F64] (marshal : PbPayload F32 F64 → Option String)

def step (s : System F32 F64) : NodeAction F32 F64 → Option (System F32 F64)
  | .connect now dial =>
    match connect marshal now dial s.node with
    | .error _ => some s
    | .ok n =>
      some { s with
        node := n
        file := writeBdSeq n s.file
        connects := s.connects ++ n.client.toList.map (·.will) }
  | .loseConnection =>
    match s.node.client with
    | some c => if c.connected then some { s with node := setConnected s.node c false } else none
    | none => none
  | .connectionLost => some { s with node := connectionLost s.node }
  | .autoReconnect =>
    match s.node.client with
    | some c =>
      if c.connected then none
      else some { s with node := setConnected s.node c true, connects := s.connects ++ [c.will] }
    | none => none
  | .onConnect => some { s with node := onConnect s.node }
  | .processHostState hostID online timestamp =>
    some { s with node := (processHostState hostID online timestamp s.node).1 }
  | .markDead => some { s with node := markDead s.node }
  | .birth broker now order =>
    if order.Perm s.node.deviceMetrics.keys then
      let (n, sent) := birth marshal broker now order s.node
      some { s with node := n, wire := s.wire ++ sent }
    else none
  | .setNodeMetrics metrics => some { s with node := setNodeMetrics metrics s.node }
  | .setDeviceMetrics deviceID metrics =>
    some { s with node := (setDeviceMetrics deviceID metrics s.node).1 }
  | .publishDeviceBirth broker now deviceID =>
    let (n, sent) := publishDeviceBirth marshal broker now deviceID s.node
    some { s with node := n, wire := s.wire ++ sent }
  | .publishDeviceData broker now deviceID metrics =>
    let (n, result) := publishDeviceData marshal broker now deviceID metrics s.node
    some { s with node := n, wire := s.wire ++ result.toOption.toList }
  | .publishDeviceDataPayload broker deviceID timestamp metrics =>
    -- a payload as `handleDataMessage` builds it for the buffer
    let payload := { timestamp := timestamp, seq := 0, metrics := metrics }
    let (n, result) := publishDeviceDataPayload marshal broker deviceID payload s.node
    some { s with node := n, wire := s.wire ++ result.toOption.toList }
  | .disconnect broker now =>
    let (n, sent) := disconnect marshal broker now s.node
    some { s with node := n, wire := s.wire ++ sent }
  | .restart => some { s with node := newSparkplugNode s.node.config s.file }

/-- A first process, on whatever is in the bdSeq file. -/
def initial (cfg : Config) (file : Option String) : System F32 F64 :=
  ⟨newSparkplugNode cfg file, file, [], []⟩

end NodeSystem
