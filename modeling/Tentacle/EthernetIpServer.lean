import Tentacle.GoValues
import Tentacle.Runs
import Tentacle.Subjects

/-!
# The EtherNet/IP server

The server offers tags to CIP clients. A subscribe request registers tags, scalars and instances of
UDTs, each with the bus subject that its values come from; the messages on these subjects and the
writes of the clients change the values. The tables are searched by the name in upper case. The
subscription to a subject runs a closure that was made when the subject was first named; the closure
is given here by what it captures.
-/

namespace EthernetIpServer

open GoValues Subjects

/-- `unicode.ToUpper`, which `strings.ToUpper` applies to every character. -/
class LetterCase where
  upper : Char → Char

/-- Only the ASCII letters have an upper case. -/
instance : LetterCase := ⟨Char.toUpper⟩

def toUpper [LetterCase] (s : String) : String := String.ofList (s.toList.map LetterCase.upper)

/-- `strings.SplitN(s, ".", 2)`: the first part, and the second if there is one. -/
def splitDot (s : String) : String × Option String :=
  (String.ofList (s.toList.takeWhile (· ≠ '.')), (afterDot s.toList).map String.ofList)

def trimPrefix (s start : String) : String :=
  if start.toList <+: s.toList then String.ofList (s.toList.drop start.toList.length) else s

/-! ## Values -/

inductive IntType where
  | int | int8 | int16 | int32 | int64 | uint8 | uint16 | uint32 | uint64
  deriving DecidableEq, Repr

/-- The values of an `interface{}`. Of two fields with one name the first is the one in the map. -/
inductive Value (F32 F64 : Type) where
  | null
  | bool (b : Bool)
  | int (type : IntType) (n : Int)
  | float32 (x : F32)
  | float64 (x : F64)
  | string (s : String)
  | array (elems : List (Value F32 F64))
  | map (fields : List (String × Value F32 F64))

variable {F32 F64 : Type}

mutual

def Value.ofJson : Json F64 → Value F32 F64
  | .null => .null
  | .bool b => .bool b
  | .number x => .float64 x
  | .string s => .string s
  | .array elems => .array (ofJsonElems elems)
  | .object fields => .map (ofJsonFields fields)

def ofJsonElems : List (Json F64) → List (Value F32 F64)
  | [] => []
  | v :: vs => .ofJson v :: ofJsonElems vs

def ofJsonFields : List (String × Json F64) → List (String × Value F32 F64)
  | [] => []
  | (name, v) :: fields => (name, .ofJson v) :: ofJsonFields fields

end

/-- The types that the conversions know; all others are treated alike. -/
inductive CipType where
  | bool | sint | int | dint | lint | usint | uint | udint | ulint | real | lreal | string
  deriving DecidableEq, Repr

def cipTypes : List (String × CipType) :=
  [("BOOL", .bool), ("SINT", .sint), ("INT", .int), ("DINT", .dint), ("LINT", .lint),
    ("USINT", .usint), ("UINT", .uint), ("UDINT", .udint), ("ULINT", .ulint), ("REAL", .real),
    ("LREAL", .lreal), ("STRING", .string)]

def knownType (cipType : String) : Option CipType := cipTypes.lookup cipType

def cipToNatsDatatype (cipType : String) : String :=
  match knownType cipType with
  | some .bool => "boolean"
  | some .string => "string"
  | _ => "number"

section Conversions

variable [GoFloats F32 F64]

/-- `cipDefaultValue`, which `defaultForCipType` repeats. -/
def cipDefaultValue (cipType : String) : Value F32 F64 :=
  match knownType cipType with
  | some .bool => .bool false
  | some .sint => .int .int8 0
  | some .int => .int .int16 0
  | some .dint => .int .int32 0
  | some .lint => .int .int64 0
  | some .usint => .int .uint8 0
  | some .uint => .int .uint16 0
  | some .udint => .int .uint32 0
  | some .ulint => .int .uint64 0
  | some .real => .float32 (GoFloats.ofInt32 F64 0)
  | some .lreal => .float64 (GoFloats.ofInt64 F32 0)
  | some .string => .string ""
  | none => .int .int32 0

def toFloat64 : Value F32 F64 → F64
  | .float64 x => x
  | .float32 x => GoFloats.widen x
  | .int _ n => GoFloats.ofInt64 F32 n
  | .bool b => GoFloats.ofInt64 F32 (if b then 1 else 0)
  | _ => GoFloats.ofInt64 F32 0

/-- The low bits as a signed number. -/
def signed (bits : Nat) (n : Int) : Int := (n + 2 ^ (bits - 1)) % 2 ^ bits - 2 ^ (bits - 1)

def unsigned (bits : Nat) (n : Int) : Int := n % 2 ^ bits

def coerceBool : Value F32 F64 → Bool
  | .bool b => b
  | .float64 x => !GoFloats.isZero64 F32 x
  | .string s => s = "true" || s = "1"
  | _ => false

/-- A number that the integer type does not hold keeps its low bits; Go leaves this case to the
machine. -/
def coerceValue (cipType : String) (raw : Value F32 F64) : Value F32 F64 :=
  let n := GoFloats.trunc64 F32 (toFloat64 raw)
  match knownType cipType with
  | some .bool => .bool (coerceBool raw)
  | some .sint => .int .int8 (signed 8 n)
  | some .int => .int .int16 (signed 16 n)
  | some .dint => .int .int32 (signed 32 n)
  | some .lint => .int .int64 (signed 64 n)
  | some .usint => .int .uint8 (unsigned 8 n)
  | some .uint => .int .uint16 (unsigned 16 n)
  | some .udint => .int .uint32 (unsigned 32 n)
  | some .ulint => .int .uint64 (unsigned 64 n)
  | some .real => .float32 (GoFloats.narrow (toFloat64 raw))
  | some .lreal => .float64 (toFloat64 raw)
  | some .string =>
    match raw with
    | .string s => .string s
    | _ => .string ""
  | none => raw

end Conversions

/-! ## Tags -/

structure TagEntry (F32 F64 : Type) where
  name : String
  cipType : String
  datatype : String
  value : Value F32 F64
  source : String
  writable : Bool
  isUdt : Bool
  udtType : String

abbrev TagDatabase (F32 F64 : Type) := GoMap String (TagEntry F32 F64)

namespace TagDatabase

variable [LetterCase]

def get (db : TagDatabase F32 F64) (name : String) : Option (TagEntry F32 F64) :=
  db.lookup (toUpper name)

def set (db : TagDatabase F32 F64) (name : String) (entry : TagEntry F32 F64) :
    TagDatabase F32 F64 := db.insert (toUpper name) entry

/-- A name that is not registered changes nothing. -/
def updateValue (db : TagDatabase F32 F64) (name : String) (value : Value F32 F64) :
    TagDatabase F32 F64 :=
  match db.lookup (toUpper name) with
  | none => db
  | some entry => db.insert (toUpper name) { entry with value }

end TagDatabase

/-! ## UDTs -/

structure ServerUdtMember where
  name : String
  cipType : String
  templateRef : String := ""
  deriving DecidableEq, Repr

structure ServerUdt where
  name : String
  members : List ServerUdtMember
  deriving DecidableEq, Repr

abbrev Members (F32 F64 : Type) := List (String × Value F32 F64)

/-- `members[name] = value`. -/
def setMember (members : Members F32 F64) (name : String) (value : Value F32 F64) :
    Members F32 F64 := (name, value) :: members.filter (·.1 ≠ name)

structure UdtInstance (F32 F64 : Type) where
  typeName : String
  members : Members F32 F64

structure UdtDatabase (F32 F64 : Type) where
  types : GoMap String ServerUdt := ∅
  instances : GoMap String (UdtInstance F32 F64) := ∅

/-- `UDT instance %q not found`, `member %q not found in UDT %q`,
`member %q in UDT %q is not a nested struct` and `sub-member %q not found in %q.%q`. -/
inductive MemberError where
  | instanceNotFound (tagName : String)
  | memberNotFound (member tagName : String)
  | notNested (member tagName : String)
  | subMemberNotFound (subMember tagName member : String)
  deriving DecidableEq, Repr

namespace UdtDatabase

def registerType (db : UdtDatabase F32 F64) (udt : ServerUdt) : UdtDatabase F32 F64 :=
  { db with types := db.types.insert udt.name udt }

def getType (db : UdtDatabase F32 F64) (typeName : String) : Option ServerUdt :=
  db.types.lookup typeName

variable [GoFloats F32 F64]

def defaultMembers (db : UdtDatabase F32 F64) (udt : ServerUdt) : Members F32 F64 :=
  udt.members.foldl (fun members m => setMember members m.name
    (if m.templateRef ≠ "" then
      match db.types.lookup m.templateRef with
      | some nested => .map (nested.members.foldl (fun fields nm =>
          setMember fields nm.name (cipDefaultValue nm.cipType)) [])
      | none => .null
    else cipDefaultValue m.cipType)) []

variable [LetterCase]

/-- `none` for `UDT type %q not registered`. -/
def createInstance (db : UdtDatabase F32 F64) (tagName typeName : String) :
    Option (UdtDatabase F32 F64) :=
  (db.types.lookup typeName).map fun udt =>
    { db with
      instances := db.instances.insert (toUpper tagName)
        { typeName, members := db.defaultMembers udt } }

omit [GoFloats F32 F64]

/-- `none` where the method returns false. -/
def updateMember (db : UdtDatabase F32 F64) (tagName memberPath : String)
    (value : Value F32 F64) : Option (UdtDatabase F32 F64) :=
  match db.instances.lookup (toUpper tagName) with
  | none => none
  | some inst =>
    let keep members :=
      { db with instances := db.instances.insert (toUpper tagName) { inst with members } }
    match splitDot memberPath with
    | (_, none) => some (keep (setMember inst.members memberPath value))
    | (member, some subMember) =>
      match inst.members.lookup member with
      | some (.map nested) =>
        some (keep (setMember inst.members member (.map (setMember nested subMember value))))
      | _ => none

def readMember (db : UdtDatabase F32 F64) (tagName memberPath : String) :
    Except MemberError (Value F32 F64) :=
  match db.instances.lookup (toUpper tagName) with
  | none => .error (.instanceNotFound tagName)
  | some inst =>
    let (member, subMember) := splitDot memberPath
    match inst.members.lookup member, subMember with
    | none, _ => .error (.memberNotFound member tagName)
    | some val, none => .ok val
    | some (.map nested), some subMember =>
      match nested.lookup subMember with
      | none => .error (.subMemberNotFound subMember tagName member)
      | some subVal => .ok subVal
    | some _, some _ => .error (.notNested member tagName)

def readAll (db : UdtDatabase F32 F64) (tagName : String) : Option (Value F32 F64) :=
  (db.instances.lookup (toUpper tagName)).map fun inst => .map inst.members

def syncToTagDatabase (db : UdtDatabase F32 F64) (tagName : String)
    (tagDB : TagDatabase F32 F64) : TagDatabase F32 F64 :=
  match db.readAll tagName with
  | none => tagDB
  | some value => TagDatabase.updateValue tagDB tagName value

end UdtDatabase

/-! ## Requests and messages -/

structure ServerTag where
  name : String
  cipType : String
  source : String := ""
  writable : Bool := false
  deriving DecidableEq, Repr

structure ServerSubscribeRequest where
  subscriberID : String
  tags : List ServerTag
  udts : List ServerUdt := []
  listenPort : Int := 0
  deriving DecidableEq, Repr

/-- The closure that runs for the messages of a subscription. -/
inductive Handler where
  | scalar (tagName cipType : String)
  | udtMember (tagName baseSource : String)
  | udtWhole (tagName : String)
  deriving DecidableEq, Repr

def Handler.tagName : Handler → String
  | scalar tagName _ => tagName
  | udtMember tagName _ => tagName
  | udtWhole tagName => tagName

/-- The bus and the CIP library: whether the bus takes a subscription, the error with which the
server fails to start, and the name under which the module runs. -/
structure Env where
  accepts : String → Bool := fun _ => true
  startError : Option String := none
  moduleID : String := "ethernetip-server"

structure Manager (F32 F64 : Type) where
  tagDB : TagDatabase F32 F64 := ∅
  udtDB : UdtDatabase F32 F64 := {}
  running : Bool := false
  dataSubs : GoMap String Handler := ∅
  subscribers : GoMap String ServerSubscribeRequest := ∅

/-- The answer to a request. -/
inductive Reply where
  | error (text : String)
  | subscribed (tags udts : Nat) (port : Int) (serverID : String)
  | unsubscribed
  deriving DecidableEq, Repr

/-- A message whose `Value` is this; `none` if it is not a `PlcDataMessage`. -/
structure Message (F64 : Type) where
  subject : String
  value : Option (Json F64)

namespace Manager

variable [LetterCase]

/-- The subscriptions after the call. An error of the bus is only logged. -/
def subscribeToSource (env : Env) (dataSubs : GoMap String Handler)
    (tagName source cipType : String) (isUdt : Bool) : GoMap String Handler :=
  if isUdt then
    if (dataSubs.lookup (source ++ ".>")).isSome then dataSubs
    else if env.accepts (source ++ ".>") then
      let dataSubs := dataSubs.insert (source ++ ".>") (.udtMember tagName source)
      if (dataSubs.lookup source).isNone && env.accepts source then
        dataSubs.insert source (.udtWhole tagName)
      else dataSubs
    else dataSubs
  else if (dataSubs.lookup source).isNone && env.accepts source then
    dataSubs.insert source (.scalar tagName cipType)
  else dataSubs

section Requests

variable [GoFloats F32 F64]

def newEntry (isUdt : Bool) (udtDB : UdtDatabase F32 F64) (tag : ServerTag) :
    TagEntry F32 F64 where
  name := tag.name
  cipType := tag.cipType
  datatype := if isUdt then "udt" else cipToNatsDatatype tag.cipType
  value := if isUdt then (udtDB.readAll tag.name).getD .null else cipDefaultValue tag.cipType
  source := tag.source
  writable := tag.writable
  isUdt := isUdt
  udtType := if isUdt then tag.cipType else ""

/-- One round of the loop over the tags; `none` where it goes on to the next tag. -/
def registerTag (env : Env) (m : Manager F32 F64) (tag : ServerTag) : Option (Manager F32 F64) := do
  let isUdt := (m.udtDB.getType tag.cipType).isSome
  let udtDB ← if isUdt then m.udtDB.createInstance tag.name tag.cipType else some m.udtDB
  some { m with
    udtDB
    tagDB := TagDatabase.set m.tagDB tag.name (newEntry isUdt udtDB tag)
    dataSubs :=
      if tag.source ≠ "" then subscribeToSource env m.dataSubs tag.name tag.source tag.cipType isUdt
      else m.dataSubs }

/-- The loop, with the number of tags that were added. -/
def registerTags (env : Env) (m : Manager F32 F64) : List ServerTag → Manager F32 F64 × Nat
  | [] => (m, 0)
  | tag :: tags =>
    match m.registerTag env tag with
    | none => registerTags env m tags
    | some m =>
      let (m, tagsAdded) := registerTags env m tags
      (m, tagsAdded + 1)

omit [LetterCase] [GoFloats F32 F64] in
/-- The subscriber is stored, and the types of the request. -/
def storeRequest (m : Manager F32 F64) (req : ServerSubscribeRequest) : Manager F32 F64 :=
  { m with
    subscribers := m.subscribers.insert req.subscriberID req
    udtDB := req.udts.foldl UdtDatabase.registerType m.udtDB }

/-- The request is the error of `json.Unmarshal` or what it decodes. -/
def handleSubscribe (env : Env) (m : Manager F32 F64) :
    Except String ServerSubscribeRequest → Manager F32 F64 × Reply
  | .error err => (m, .error ("invalid request: " ++ err))
  | .ok req =>
    if req.subscriberID = "" then (m, .error "subscriberId is required")
    else
      let listenPort := if req.listenPort = 0 then 44818 else req.listenPort
      let (m, tagsAdded) := (m.storeRequest req).registerTags env req.tags
      if m.running then
        (m, .subscribed tagsAdded req.udts.length listenPort env.moduleID)
      else
        match env.startError with
        | some err => (m, .error ("failed to start CIP server: " ++ err))
        | none => ({ m with running := true },
            .subscribed tagsAdded req.udts.length listenPort env.moduleID)

end Requests

omit [LetterCase] in
def handleUnsubscribe (m : Manager F32 F64) : Except String String → Manager F32 F64 × Reply
  | .error err => (m, .error ("invalid request: " ++ err))
  | .ok subscriberID =>
    if (m.subscribers.lookup subscriberID).isNone then (m, .error "subscriber not found")
    else
      let subscribers := m.subscribers.erase subscriberID
      if subscribers.keys = [] then
        ({ m with subscribers, dataSubs := ∅, running := false }, .unsubscribed)
      else ({ m with subscribers }, .unsubscribed)

section Messages

variable [GoFloats F32 F64]

/-- The type of the member, or of the member's own member; a value without one is kept. -/
def coerceMember (udtDB : UdtDatabase F32 F64) (udt : ServerUdt) (memberPath : String)
    (value : Value F32 F64) : Value F32 F64 :=
  let (name, subMember) := splitDot memberPath
  match udt.members.find? (·.name = name) with
  | none => value
  | some member =>
    let nested : Option ServerUdtMember := do
      let subMember ← subMember
      let nestedType ← if member.templateRef ≠ "" then udtDB.getType member.templateRef else none
      nestedType.members.find? (·.name = subMember)
    match nested with
    | some nm => coerceValue nm.cipType value
    | none => coerceValue member.cipType value

def coerceUdtMemberValue (m : Manager F32 F64) (tagName memberPath : String)
    (value : Value F32 F64) : Value F32 F64 :=
  match TagDatabase.get m.tagDB tagName with
  | none => value
  | some entry =>
    match m.udtDB.getType entry.udtType with
    | none => value
    | some udt => coerceMember m.udtDB udt memberPath value

def handleScalarUpdate (m : Manager F32 F64) (tagName cipType : String) (value : Json F64) :
    Manager F32 F64 :=
  { m with tagDB := TagDatabase.updateValue m.tagDB tagName (coerceValue cipType (.ofJson value)) }

def handleUdtMemberUpdate (m : Manager F32 F64) (tagName baseSource subject : String)
    (value : Json F64) : Manager F32 F64 :=
  let memberPath := trimPrefix subject (baseSource ++ ".")
  if memberPath = "" ∨ memberPath = subject then m
  else
    let coerced := m.coerceUdtMemberValue tagName memberPath (.ofJson value)
    match m.udtDB.updateMember tagName memberPath coerced with
    | none => m
    | some udtDB => { m with udtDB, tagDB := udtDB.syncToTagDatabase tagName m.tagDB }

/-- One round of the loop over the map of a message. -/
def updateField (m : Manager F32 F64) (tagName : String) (fields : GoMap String (Json F64))
    (udtDB : UdtDatabase F32 F64) (memberName : String) : UdtDatabase F32 F64 :=
  match fields.lookup memberName with
  | none => udtDB
  | some value =>
    let coerced := m.coerceUdtMemberValue tagName memberName (.ofJson value)
    (udtDB.updateMember tagName memberName coerced).getD udtDB

/-- The map is gone through in an order that Go leaves open. -/
def handleUdtWholeUpdate (m : Manager F32 F64) (tagName : String) (value : Json F64)
    (order : List String) : Manager F32 F64 :=
  match value.members with
  | none => m
  | some fields =>
    let udtDB := order.foldl (m.updateField tagName fields) m.udtDB
    { m with udtDB, tagDB := udtDB.syncToTagDatabase tagName m.tagDB }

def handle (m : Manager F32 F64) (subject : String) (value : Json F64) (order : List String) :
    Handler → Manager F32 F64
  | .scalar tagName cipType => m.handleScalarUpdate tagName cipType value
  | .udtMember tagName baseSource => m.handleUdtMemberUpdate tagName baseSource subject value
  | .udtWhole tagName => m.handleUdtWholeUpdate tagName value order

/-- The subscriptions in the order in which their handlers run, each with the order in which it
goes through the map of the message. -/
abbrev Schedule := List (String × List String)

/-- The handler of one subscription runs if its pattern matches. -/
def receive (msg : Message F64) (m : Manager F32 F64) (turn : String × List String) :
    Manager F32 F64 :=
  match msg.value, m.dataSubs.lookup turn.1 with
  | some value, some handler =>
    if matchSubject turn.1 msg.subject then m.handle msg.subject value turn.2 handler else m
  | _, _ => m

def deliver (m : Manager F32 F64) (msg : Message F64) (schedule : Schedule) : Manager F32 F64 :=
  schedule.foldl (receive msg) m

end Messages

/-! ## CIP clients -/

/-- `tag %q not found` and `UDT member read %q: %w`. -/
inductive ReadError where
  | tagNotFound (tag : String)
  | udtMemberRead (tag : String) (err : MemberError)
  deriving DecidableEq, Repr

def tagRead (m : Manager F32 F64) (tag : String) : Except ReadError (Value F32 F64) :=
  let (baseName, memberPath) := splitDot tag
  match TagDatabase.get m.tagDB baseName with
  | none => .error (.tagNotFound tag)
  | some entry =>
    if entry.isUdt then
      match memberPath with
      | some memberPath => (m.udtDB.readMember baseName memberPath).mapError (.udtMemberRead tag)
      | none => .ok ((m.udtDB.readAll baseName).getD entry.value)
    else .ok entry.value

/-- `tag %q not found`, `tag %q is read-only` and `UDT member write %q: member not found`. -/
inductive WriteError where
  | tagNotFound (tag : String)
  | readOnly (tag : String)
  | memberNotFound (tag : String)
  deriving DecidableEq, Repr

/-- What a client writes to a member is not converted. -/
def tagWrite [GoFloats F32 F64] (m : Manager F32 F64) (tag : String) (value : Value F32 F64) :
    Except WriteError (Manager F32 F64) :=
  let (baseName, memberPath) := splitDot tag
  match TagDatabase.get m.tagDB baseName with
  | none => .error (.tagNotFound tag)
  | some entry =>
    if !entry.writable then .error (.readOnly tag)
    else
      match memberPath, entry.isUdt with
      | some memberPath, true =>
        match m.udtDB.updateMember baseName memberPath value with
        | none => .error (.memberNotFound tag)
        | some udtDB => .ok { m with udtDB }
      | _, _ => .ok { m with
          tagDB := TagDatabase.updateValue m.tagDB baseName (coerceValue entry.cipType value) }

end Manager

open Manager

/-! ## Runs -/

inductive Action (F32 F64 : Type) where
  | subscribe (req : Except String ServerSubscribeRequest)
  | unsubscribe (req : Except String String)
  | message (msg : Message F64) (schedule : Schedule)
  | write (tag : String) (value : Value F32 F64)

/-- Every handler has its turn, and goes through the whole map. -/
def Complete (m : Manager F32 F64) (value : Option (Json F64)) (schedule : Schedule) : Prop :=
  (schedule.map Prod.fst).Perm m.dataSubs.keys ∧
    ∀ turn ∈ schedule, ∀ fields ∈ value.bind Json.members, turn.2.Perm fields.keys

instance Complete.decidable (m : Manager F32 F64) (value : Option (Json F64))
    (schedule : Schedule) : Decidable (Complete m value schedule) :=
  inferInstanceAs (Decidable (_ ∧ ∀ turn ∈ schedule, _))

section Step

variable [LetterCase] [GoFloats F32 F64]

def step (env : Env) (m : Manager F32 F64) : Action F32 F64 → Option (Manager F32 F64)
  | .subscribe req => some (m.handleSubscribe env req).1
  | .unsubscribe req => some (m.handleUnsubscribe req).1
  | .message msg schedule =>
    if Complete m msg.value schedule then some (m.deliver msg schedule) else none
  | .write tag value =>
    match m.tagWrite tag value with
    | .error _ => some m
    | .ok m => some m

end Step

end EthernetIpServer
