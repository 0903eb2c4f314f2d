import Tentacle.GoSlices
import Tentacle.ModbusCodec
import Tentacle.ModbusScanner
import Tentacle.MqttBridge
import Tentacle.Subjects

/-!
# The Modbus server

A virtual device: its register store, the handlers of the requests of a Modbus
client, the loop that takes frames off a connection, and the callback through which
a write becomes a command on the bus.
-/

namespace ModbusServer

open GoValues GoSlices BigEndian IeeeFloat ModbusCodec MqttBridge Subjects
open ModbusScanner (ModbusTagConfig)

/-- A computation that returns no error. -/
abbrev Go := Outcome Empty

/-! ## The register store -/

/-- The four register spaces are maps with a zero value for what they do not hold. A
key of `tagsByAddress` is the pair that `fcAddressKey` writes as a string. -/
structure RegisterStore where
  coils : Int → Bool := fun _ => false
  discretes : Int → Bool := fun _ => false
  holding : Int → UInt16 := fun _ => 0
  input : Int → UInt16 := fun _ => 0
  tagsByVariable : GoMap String ModbusTagConfig := ∅
  tagsByAddress : GoMap (String × Int) ModbusTagConfig := ∅

def registerTag (s : RegisterStore) (tag : ModbusTagConfig) : RegisterStore :=
  { s with
    tagsByVariable := s.tagsByVariable.insert tag.id tag
    tagsByAddress := s.tagsByAddress.insert (tag.functionCode, tag.address) tag }

/-- The store of a device: its tags, and whatever values it holds by now. -/
def deviceStore (values : RegisterStore) (tags : List ModbusTagConfig) : RegisterStore :=
  tags.foldl registerTag { values with
    tagsByVariable := ∅
    tagsByAddress := ∅ }

/-- The byte order of the tag, with the default. -/
def byteOrderOf (tag : ModbusTagConfig) : ByteOrder :=
  if tag.byteOrder = "" then .ABCD else .ofString tag.byteOrder

def toBool : Json Double → Bool
  | .bool b => b
  | .number x => !x.isZero
  | _ => false

def toFloat64 : Json Double → Double
  | .number x => x
  | .bool b => .ofInt (if b then 1 else 0)
  | _ => .ofInt 0

/-- `store[address+i] = w` for the words in order. -/
def writeWords {W : Type} (store : Int → W) (address : Int) : List W → Int → W
  | [] => store
  | w :: words => writeWords (Function.update store address w) (address + 1) words

def updateFromVariable [Platform] (s : RegisterStore) (variableID : String) (value : Json Double) :
    RegisterStore :=
  match s.tagsByVariable.lookup variableID with
  | none => s
  | some tag =>
    if tag.functionCode = "coil" then
      { s with coils := Function.update s.coils tag.address (toBool value) }
    else if tag.functionCode = "discrete" then
      { s with discretes := Function.update s.discretes tag.address (toBool value) }
    else
      let words := encodeToRegisters (toFloat64 value) (.ofString tag.datatype) (byteOrderOf tag)
      if tag.functionCode = "input" then
        { s with input := writeWords s.input tag.address words }
      else { s with holding := writeWords s.holding tag.address words }

structure ReadResult where
  variableID : String
  value : GoValue
  writable : Bool

/-- The `count` words from an address on. -/
def readWords (store : Int → UInt16) (address : Int) (count : Nat) : List UInt16 :=
  (List.range count).map fun (i : Nat) => store (address + (i : Int))

def readTypedValue (s : RegisterStore) (fc : String) (address : Int) : Option ReadResult :=
  (s.tagsByAddress.lookup (fc, address)).map fun tag =>
    if fc = "coil" ∨ fc = "discrete" then
      { variableID := tag.id
        value := .bool ((if fc = "discrete" then s.discretes else s.coils) address)
        writable := tag.writable }
    else
      let store := if fc = "input" then s.input else s.holding
      let words := readWords store address (registerCount (.ofString tag.datatype))
      { variableID := tag.id
        value := decodeFromRegisters words (.ofString tag.datatype) (byteOrderOf tag)
        writable := tag.writable }

/-! ## The write callback -/

/-- What `json.Marshal` makes of a value that `readTypedValue` returns: it refuses a
floating-point number that is not finite. -/
def marshalValue : GoValue → Option (Json Double)
  | .bool b => some (.bool b)
  | .float64 x => if x.magnitude < binary64.infinity then some (.number x) else none
  | _ => none

def modbusToNatsDatatype (fc : String) : String :=
  if fc = "coil" ∨ fc = "discrete" then "boolean" else "number"

/-- What the callback of a device closes over. -/
structure WriteContext where
  moduleID : String
  deviceID : String
  sourceModuleID : String
  now : Int

/-- A command on the bus. -/
structure Command where
  subject : String
  message : PlcDataMessage Double

def commandOf (ctx : WriteContext) (fc variableID : String) (value : Json Double) : Command where
  subject := command ctx.sourceModuleID (sanitizeForSubject variableID)
  message :=
    { moduleID := ctx.moduleID
      deviceID := ctx.deviceID
      variableID := variableID
      value := value
      timestamp := ctx.now
      datatype := modbusToNatsDatatype fc }

/-- The callback `onWrite`: the command that it publishes, if any. -/
def onWrite (ctx : WriteContext) (s : RegisterStore) (fc : String) (address : Int) :
    Option Command :=
  match readTypedValue s fc address with
  | none => none
  | some result =>
    if !result.writable then none
    else (marshalValue result.value).map (commandOf ctx fc result.variableID)

/-! ## The handlers -/

/-- What a handler leaves: its response, the store, and the calls of `onWrite`, which
it makes after the last of its own writes to the store. -/
structure Handled where
  response : Bytes
  store : RegisterStore
  signals : List (String × Int) := []

/-- The bit of a response that stands for the `i`-th coil. -/
def setBit (resp : Bytes) (i : Nat) : Go Bytes := do
  let b ← index resp (2 + i / 8)
  assign resp (2 + i / 8) (b ||| (1 <<< UInt8.ofNat (i % 8)))

def handleReadBits (s : RegisterStore) (pdu : Bytes) (isCoil : Bool) : Go Bytes :=
  if pdu.length < 5 then do
    return [(← index pdu 0) ||| 0x80, 0x03]
  else do
    let fc ← index pdu 0
    let addr := (← uint16 pdu 1 3).toNat
    let count := (← uint16 pdu 3 5).toNat
    let byteCount := (count + 7) / 8
    let resp ← makeSlice 0 (2 + byteCount)
    let resp ← assign resp 0 fc
    let resp ← assign resp 1 (UInt8.ofNat byteCount)
    (List.range count).foldlM (fun resp (i : Nat) =>
      if (if isCoil then s.coils else s.discretes) (addr + i) then setBit resp i
      else pure resp)
      resp

def handleReadWords (s : RegisterStore) (pdu : Bytes) (isHolding : Bool) : Go Bytes :=
  if pdu.length < 5 then do
    return [(← index pdu 0) ||| 0x80, 0x03]
  else do
    let fc ← index pdu 0
    let addr := (← uint16 pdu 1 3).toNat
    let count := (← uint16 pdu 3 5).toNat
    let resp ← makeSlice 0 (2 + count * 2)
    let resp ← assign resp 0 fc
    let resp ← assign resp 1 (UInt8.ofNat (count * 2))
    (List.range count).foldlM (fun resp (i : Nat) =>
      putUint16 resp (2 + i * 2) (4 + i * 2)
        ((if isHolding then s.holding else s.input) (addr + i)))
      resp

/-- The response that repeats the first five bytes of the request. -/
def echo (fc : UInt8) (x y : UInt16) : Go Bytes := do
  let resp ← makeSlice 0 5
  let resp ← assign resp 0 fc
  let resp ← putUint16 resp 1 3 x
  putUint16 resp 3 5 y

def handleWriteSingleCoil (s : RegisterStore) (pdu : Bytes) : Go Handled :=
  if pdu.length < 5 then .ok { response := [0x85, 0x03], store := s }
  else do
    let addr ← uint16 pdu 1 3
    let raw ← uint16 pdu 3 5
    return {
      response := ← echo 0x05 addr raw
      store := { s with coils := Function.update s.coils addr.toNat (raw = 0xFF00) }
      signals := [("coil", addr.toNat)] }

def handleWriteSingleRegister (s : RegisterStore) (pdu : Bytes) : Go Handled :=
  if pdu.length < 5 then .ok { response := [0x86, 0x03], store := s }
  else do
    let addr ← uint16 pdu 1 3
    let value ← uint16 pdu 3 5
    return {
      response := ← echo 0x06 addr value
      store := { s with holding := Function.update s.holding addr.toNat value }
      signals := [("holding", addr.toNat)] }

/-- The loop of `handleWriteMultipleCoils`: `n` rounds from the `i`-th on, or until the
bytes of the request end. -/
def writeBits (pdu : Bytes) (addr : Nat) : Nat → Nat → (Int → Bool) → Go (Int → Bool)
  | 0, _, coils => .ok coils
  | n + 1, i, coils =>
    if pdu.length ≤ 6 + i / 8 then .ok coils
    else do
      let val := ((← index pdu (6 + i / 8)) >>> UInt8.ofNat (i % 8)) &&& 1
      writeBits pdu addr n (i + 1) (Function.update coils (addr + i) (val = 1))

def handleWriteMultipleCoils (s : RegisterStore) (pdu : Bytes) : Go Handled :=
  if pdu.length < 6 then .ok { response := [0x8F, 0x03], store := s }
  else do
    let addr ← uint16 pdu 1 3
    let count ← uint16 pdu 3 5
    let byteCount ← index pdu 5
    if pdu.length < 6 + byteCount.toNat then return { response := [0x8F, 0x03], store := s }
    let coils ← writeBits pdu addr.toNat count.toNat 0 s.coils
    return {
      response := ← echo 0x0F addr count
      store := { s with coils := coils }
      signals := (List.range count.toNat).map fun (i : Nat) => ("coil", addr.toNat + (i : Int)) }

def handleWriteMultipleRegisters (s : RegisterStore) (pdu : Bytes) : Go Handled :=
  if pdu.length < 6 then .ok { response := [0x90, 0x03], store := s }
  else do
    let addr ← uint16 pdu 1 3
    let count ← uint16 pdu 3 5
    if pdu.length < 6 + count.toNat * 2 then return { response := [0x90, 0x03], store := s }
    let holding ← (List.range count.toNat).foldlM (fun holding i => do
      let word ← uint16 pdu (6 + i * 2) (8 + i * 2)
      return Function.update holding (addr.toNat + (i : Int)) word) s.holding
    return {
      response := ← echo 0x10 addr count
      store := { s with holding := holding }
      signals := [("holding", addr.toNat)] }

def handlePDU (s : RegisterStore) (pdu : Bytes) : Go Handled :=
  match pdu with
  | [] => .ok { response := [0x81, 0x01], store := s }
  | fc :: _ =>
    if fc = 0x01 then return { response := ← handleReadBits s pdu true, store := s }
    else if fc = 0x02 then return { response := ← handleReadBits s pdu false, store := s }
    else if fc = 0x03 then return { response := ← handleReadWords s pdu true, store := s }
    else if fc = 0x04 then return { response := ← handleReadWords s pdu false, store := s }
    else if fc = 0x05 then handleWriteSingleCoil s pdu
    else if fc = 0x06 then handleWriteSingleRegister s pdu
    else if fc = 0x0F then handleWriteMultipleCoils s pdu
    else if fc = 0x10 then handleWriteMultipleRegisters s pdu
    else .ok { response := [fc ||| 0x80, 0x01], store := s }

/-! ## The connection -/

structure Frame where
  txID : UInt16
  reqUnitID : UInt8
  pdu : Bytes
  deriving DecidableEq, Repr

/-- The first frame of the buffer and what follows it; `none` while it is incomplete. -/
def takeFrame (buf : Bytes) : Go (Option (Frame × Bytes)) :=
  if buf.length < 7 then .ok none
  else do
    let txID ← uint16 buf 0 2
    let mbapLength := (← uint16 buf 4 6).toNat
    let totalLen := 6 + mbapLength
    if buf.length < totalLen then return none
    let reqUnitID ← index buf 6
    let pdu ← makeSlice 0 ((totalLen : Int) - 7)
    let pdu ← copyFrom pdu 0 (← slice buf 7 totalLen)
    return some (⟨txID, reqUnitID, pdu⟩, ← sliceFrom buf totalLen)

/-- The frame of a response. -/
def responseFrame (request : Frame) (response : Bytes) : Go Bytes := do
  let frame ← makeSlice 0 (7 + response.length)
  let frame ← putUint16 frame 0 2 request.txID
  let frame ← putUint16 frame 2 4 0
  let frame ← putUint16 frame 4 6 (UInt16.ofNat (1 + response.length))
  let frame ← assign frame 6 request.reqUnitID
  copyFrom frame 7 response

/-- A connection: the bytes that are not yet part of a frame, the store of the device,
what has been written to the connection and to the bus, and whether a write failed. -/
structure Connection where
  buf : Bytes := []
  store : RegisterStore
  sent : List Bytes := []
  published : List Command := []
  closed : Bool := false

/-- The answer to one request, on a connection whose writes may fail. -/
def respond (writeOK : Nat → Bool) (ctx : WriteContext) (c : Connection) (request : Frame) :
    Go Connection := do
  let handled ← handlePDU c.store request.pdu
  let frame ← responseFrame request handled.response
  return {
    c with
    store := handled.store
    sent := c.sent ++ [frame]
    published := c.published ++
      handled.signals.filterMap fun signal => onWrite ctx handled.store signal.1 signal.2
    closed := !writeOK c.sent.length }

/-- The length field of the frame at the front. -/
def lengthField (buf : Bytes) : Nat := uint ((buf.drop 4).take 2)

theorem lengthField_lt {buf : Bytes} (h : 7 ≤ buf.length) : lengthField buf < 65536 := by
  have hlt := uint_lt ((buf.drop 4).take 2)
  rw [length_window (by omega)] at hlt
  exact hlt

/-- A length field of zero makes the length of the request negative. -/
theorem takeFrame_eq {buf : Bytes} (h : 7 ≤ buf.length) :
    takeFrame buf =
      if buf.length < 6 + lengthField buf then .ok none
      else if lengthField buf = 0 then .panic (.makeLen (-1))
      else .ok (some (
        { txID := UInt16.ofNat (uint (buf.take 2))
          reqUnitID := buf[6]
          pdu := (buf.take (6 + lengthField buf)).drop 7 }, buf.drop (6 + lengthField buf))) := by
  have hlt := lengthField_lt h
  have hfield : (UInt16.ofNat (uint ((buf.drop 4).take 2))).toNat = lengthField buf :=
    UInt16.toNat_ofNat_of_lt' hlt
  rw [takeFrame, if_neg (by omega), uint16_ok rfl (by omega), Outcome.ok_bind,
    uint16_ok rfl (by omega), Outcome.ok_bind, hfield]
  dsimp only
  split
  · rfl
  next hcomplete =>
    rw [index_ok (by omega), Outcome.ok_bind]
    split
    next hzero => simp [makeSlice, hzero]
    next hpos =>
      have hlength : ((6 + lengthField buf : Nat) - 7 : Int).toNat = lengthField buf - 1 := by omega
      have hpdu : ((buf.take (6 + lengthField buf)).drop 7).length = lengthField buf - 1 := by
        rw [List.length_drop, List.length_take]
        omega
      rw [makeSlice, if_pos (by omega), Outcome.ok_bind, slice_ok (by omega) (by omega),
        Outcome.ok_bind, hlength, copyFrom, if_pos (by simp), Outcome.ok_bind, sliceFrom,
        if_pos (by omega)]
      simp [← hpdu]
      omega

theorem takeFrame_some {buf rest : Bytes} {frame : Frame}
    (h : takeFrame buf = .ok (some (frame, rest))) : rest.length < buf.length := by
  by_cases hlength : 7 ≤ buf.length
  · rw [takeFrame_eq hlength] at h
    split at h
    · cases h
    split at h
    · cases h
    · cases h
      rw [List.length_drop]
      omega
  · rw [takeFrame, if_pos (by omega)] at h
    cases h

/-- The loop over the complete frames of the buffer. -/
def processFrames (writeOK : Nat → Bool) (unitID : Int) (ctx : WriteContext) (c : Connection) :
    Go Connection :=
  match _ : takeFrame c.buf with
  | .panic p => .panic p
  | .ok none => .ok c
  | .ok (some (request, rest)) =>
    if (request.reqUnitID.toNat : Int) ≠ unitID ∧ request.reqUnitID ≠ 0 then
      processFrames writeOK unitID ctx { c with buf := rest }
    else
      match respond writeOK ctx c request with
      | .panic p => .panic p
      | .ok answered =>
        if answered.closed then .ok { answered with buf := rest }
        else processFrames writeOK unitID ctx { answered with buf := rest }
  termination_by c.buf.length
  decreasing_by
    · exact takeFrame_some ‹_›
    · exact takeFrame_some ‹_›

/-- A connection on which the reads return the given pieces and then an error. -/
def handleConnection (writeOK : Nat → Bool) (unitID : Int) (ctx : WriteContext) :
    Connection → List Bytes → Go Connection
  | c, [] => .ok c
  | c, chunk :: chunks => do
    let c ← processFrames writeOK unitID ctx { c with buf := c.buf ++ chunk }
    if c.closed then return c
    handleConnection writeOK unitID ctx c chunks

end ModbusServer
