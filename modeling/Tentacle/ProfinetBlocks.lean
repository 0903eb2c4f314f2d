import Tentacle.GoSlices
import Tentacle.GoValues

/-!
# PNIO blocks

A request or response of the PROFINET connection management is a sequence of blocks,
each with a type, a 16-bit length and a payload, aligned to four bytes. The parsers
of the blocks of a Connect request read lengths and counts from the wire.
-/

namespace ProfinetBlocks

open GoValues GoSlices BigEndian Outcome

abbrev UUID := FixedBytes 16

abbrev HardwareAddr := FixedBytes 6

/-- The errors of the parsers: `RPC header too short: %d bytes`, `PNIO request body too
short: %d`, `block type 0x%04X at offset %d: payload extends beyond data (need %d, have
%d)`, `ARBlockReq too short: %d bytes`, `ARBlockReq station name length %d exceeds
data`, `IOCRBlockReq too short: %d bytes`, `AlarmCRBlockReq too short: %d bytes` and
`ExpectedSubmoduleReq too short: %d bytes`. -/
inductive ParseError where
  | headerTooShort (got : Nat)
  | bodyTooShort (got : Nat)
  | payloadBeyond (type : UInt16) (offset need have_ : Nat)
  | arTooShort (got : Nat)
  | stationName (length : UInt16)
  | iocrTooShort (got : Nat)
  | alarmTooShort (got : Nat)
  | expectedTooShort (got : Nat)
  deriving DecidableEq, Repr

/-! ## Sequences of blocks -/

structure PNIOBlock where
  type : UInt16
  length : UInt16
  versionHigh : UInt8
  versionLow : UInt8
  data : Bytes
  deriving DecidableEq, Repr

def align4 (offset : Nat) : Nat := if offset % 4 ≠ 0 then offset + (4 - offset % 4) else offset

theorem le_align4 (offset : Nat) : offset ≤ align4 offset := by
  rw [align4]
  split <;> omega

/-- The loop of `ParsePNIOBlocks`. -/
def parseBlocksFrom (data : Bytes) (offset : Nat) : Outcome ParseError (List PNIOBlock) :=
  if offset + 6 ≤ data.length then do
    let type ← uint16 data offset (offset + 2)
    let length ← uint16 data (offset + 2) (offset + 4)
    let versionHigh ← index data (offset + 4)
    let versionLow ← index data (offset + 5)
    let payloadLen := length.toNat - 2
    let dataStart := offset + 6
    let dataEnd := dataStart + payloadLen
    if data.length < dataEnd then .err (.payloadBeyond type offset dataEnd data.length)
    else
      let payload ← makeSlice 0 payloadLen
      let payload ← copyFrom payload 0 (← slice data dataStart dataEnd)
      let blocks ← parseBlocksFrom data (align4 (offset + (4 + length.toNat)))
      return {
        type := type
        length := length
        versionHigh := versionHigh
        versionLow := versionLow
        data := payload } :: blocks
  else .ok []
  termination_by data.length - offset
  decreasing_by
    have := le_align4 (offset + (4 + length.toNat))
    omega

def parsePNIOBlocks (data : Bytes) : Outcome ParseError (List PNIOBlock) := parseBlocksFrom data 0

def marshalPNIOBlock (type : UInt16) (versionHigh versionLow : UInt8) (payload : Bytes) : Bytes :=
  putUint 2 type.toNat ++ putUint 2 (2 + payload.length) ++ [versionHigh, versionLow] ++ payload

/-- Zero bytes up to a multiple of four. -/
def padTo4 (data : Bytes) : Bytes := data ++ List.replicate (align4 data.length - data.length) 0

/-! Padded blocks are read back one after the other. -/

@[simp] theorem length_padTo4 (data : Bytes) : (padTo4 data).length = align4 data.length := by
  have hle := le_align4 data.length
  rw [padTo4, List.length_append, List.length_replicate]
  omega

theorem align4_mod (n : Nat) : align4 n % 4 = 0 := by
  rw [align4]
  split <;> omega

theorem align4_add {offset : Nat} (h : offset % 4 = 0) (n : Nat) :
    align4 (offset + n) = offset + align4 n := by
  rw [align4, align4]
  split <;> split <;> omega

theorem padTo4_append {a : Bytes} (h : a.length % 4 = 0) (b : Bytes) :
    padTo4 (a ++ b) = a ++ padTo4 b := by
  have hpad : align4 (a ++ b).length - (a ++ b).length = align4 b.length - b.length := by
    rw [List.length_append, align4_add h]
    omega
  rw [padTo4, padTo4, hpad, List.append_assoc]

theorem padTo4_of_length {a : Bytes} (h : a.length % 4 = 0) : padTo4 a = a := by
  have hpad : align4 a.length = a.length := if_neg (not_not.mpr h)
  rw [padTo4, hpad, Nat.sub_self, List.replicate_zero, List.append_nil]

theorem length_marshalPNIOBlock (type : UInt16) (high low : UInt8) (payload : Bytes) :
    (marshalPNIOBlock type high low payload).length = 6 + payload.length := by
  simp [marshalPNIOBlock]
  omega

/-- The block that the parser makes of a marshalled one. -/
def blockOf (type : UInt16) (high low : UInt8) (payload : Bytes) : PNIOBlock where
  type := type
  length := .ofNat (2 + payload.length)
  versionHigh := high
  versionLow := low
  data := payload

/-- A block that is written at an aligned place is read back, and the next one begins behind it. -/
theorem parseBlocksFrom_marshal {data rest : Bytes} {offset : Nat} {type : UInt16}
    {high low : UInt8} {payload : Bytes} (hpayload : payload.length + 2 < 65536)
    (haligned : offset % 4 = 0)
    (h : At data offset (padTo4 (marshalPNIOBlock type high low payload) ++ rest)) :
    parseBlocksFrom data offset = (do
      let blocks ← parseBlocksFrom data (offset + align4 (6 + payload.length))
      return blockOf type high low payload :: blocks) := by
  have hlen : (UInt16.ofNat (2 + payload.length)).toNat = 2 + payload.length :=
    UInt16.toNat_ofNat_of_lt' (by simpa [UInt16.size] using by omega)
  have hlength := h.length
  have hle := le_align4 (6 + payload.length)
  rw [List.length_append, length_padTo4, length_marshalPNIOBlock] at hlength
  rw [padTo4, marshalPNIOBlock, ← hlen] at h
  simp only [List.append_assoc, List.cons_append, List.nil_append] at h
  have h2 := h.next (length_putUint 2 _)
  have h4 := h2.next (length_putUint 2 _)
  have h5 := h4.tail
  have h6 := h5.tail
  have hnext : align4 (offset + (4 + (2 + payload.length))) =
      offset + align4 (6 + payload.length) := by
    rw [align4_add haligned, ← Nat.add_assoc]
  rw [parseBlocksFrom, if_pos (by omega), h.uint16 rfl, ok_bind, h2.uint16 rfl, ok_bind, h4.index,
    ok_bind, h5.index, ok_bind]
  dsimp only
  rw [hlen, if_neg (by omega), makeSlice_ok, ok_bind, h6.slice (by omega), ok_bind,
    copyFrom_of_length (by simp), ok_bind, hnext]
  rfl

/-- A sequence of blocks of version 1.0, each padded, from their types and payloads. -/
def marshalBlocks (specs : List (UInt16 × Bytes)) : Bytes :=
  specs.flatMap fun spec => padTo4 (marshalPNIOBlock spec.1 1 0 spec.2)

theorem parseBlocksFrom_marshalBlocks (specs : List (UInt16 × Bytes))
    (hspecs : ∀ spec ∈ specs, spec.2.length + 2 < 65536) {data : Bytes} {offset : Nat}
    (haligned : offset % 4 = 0) (h : At data offset (marshalBlocks specs)) :
    parseBlocksFrom data offset = .ok (specs.map fun spec => blockOf spec.1 1 0 spec.2) := by
  induction specs generalizing offset with
  | nil =>
    have hend : offset + 0 = data.length := h.length
    rw [parseBlocksFrom, if_neg (by omega)]
    rfl
  | cons spec specs ih =>
    have hmod := align4_mod (6 + spec.2.length)
    have hat : At data offset (padTo4 (marshalPNIOBlock spec.1 1 0 spec.2) ++
      marshalBlocks specs) := h
    have hnext : At data (offset + align4 (6 + spec.2.length)) (marshalBlocks specs) :=
      hat.next (by rw [length_padTo4, length_marshalPNIOBlock])
    rw [parseBlocksFrom_marshal (hspecs spec (by simp)) haligned hat,
      ih (fun spec' h' => hspecs spec' (by simp [h'])) (by omega) hnext]
    rfl

theorem parsePNIOBlocks_marshalBlocks (specs : List (UInt16 × Bytes))
    (hspecs : ∀ spec ∈ specs, spec.2.length + 2 < 65536) :
    parsePNIOBlocks (marshalBlocks specs) =
      .ok (specs.map fun spec => blockOf spec.1 1 0 spec.2) :=
  parseBlocksFrom_marshalBlocks specs hspecs rfl (.start rfl)

/-! ## The types of the blocks -/

def blockTypeARBlockReq : UInt16 := 0x0101
def blockTypeIOCRBlockReq : UInt16 := 0x0102
def blockTypeAlarmCRBlockReq : UInt16 := 0x0103
def blockTypeExpectedSubmoduleReq : UInt16 := 0x0104
def blockTypeARBlockRes : UInt16 := 0x8101
def blockTypeIOCRBlockRes : UInt16 := 0x8102
def blockTypeAlarmCRBlockRes : UInt16 := 0x8103
def blockTypeModuleDiffBlock : UInt16 := 0x8104
def blockTypeIODControlReq : UInt16 := 0x0110
def blockTypeIODControlRes : UInt16 := 0x8110
def blockTypeARRPCBlockReq : UInt16 := 0x0114
def blockTypeIODWriteReqHeader : UInt16 := 0x0008
def blockTypeIODWriteResHeader : UInt16 := 0x8008

/-! ## The AR block -/

structure ARBlockReq where
  arType : UInt16
  arUUID : UUID
  sessionKey : UInt16
  cmInitiatorMAC : HardwareAddr
  cmInitiatorObjUUID : UUID
  arProperties : UInt32
  cmInitiatorActivityTimeout : UInt16
  cmInitiatorUDPRTPort : UInt16
  cmInitiatorStationName : Bytes
  deriving DecidableEq, Repr

/-- The end of the station name is computed in 16 bits. -/
def parseARBlockReq (data : Bytes) : Outcome ParseError ARBlockReq :=
  if data.length < 52 then .err (.arTooShort data.length)
  else do
    let arType ← uint16 data 0 2
    let sessionKey ← uint16 data 18 20
    let arUUID ← slice data 2 18
    let mac ← slice data 20 26
    let objUUID ← slice data 26 42
    let arProperties ← uint32 data 42 46
    let activityTimeout ← uint16 data 46 48
    let udpRTPort ← uint16 data 48 50
    let nameLen ← uint16 data 50 52
    if data.length < (52 + nameLen).toNat then .err (.stationName nameLen)
    else
      return {
        arType := arType
        arUUID := .copy 16 arUUID
        sessionKey := sessionKey
        cmInitiatorMAC := .copy 6 mac
        cmInitiatorObjUUID := .copy 16 objUUID
        arProperties := arProperties
        cmInitiatorActivityTimeout := activityTimeout
        cmInitiatorUDPRTPort := udpRTPort
        cmInitiatorStationName := ← slice data 52 (52 + nameLen).toNat }

/-! ## The IOCR block -/

/-- `IOCRDataObject` and `IOCRIOxS`. -/
structure SlotEntry where
  slotNumber : UInt16
  subslotNumber : UInt16
  frameOffset : UInt16
  deriving DecidableEq, Repr

structure IOCRAPIEntry where
  api : UInt32
  ioDataObjects : List SlotEntry
  iocss : List SlotEntry
  deriving DecidableEq, Repr

structure IOCRBlockReq where
  iocrType : UInt16
  iocrReference : UInt16
  lt : UInt16
  iocrProperties : UInt32
  dataLength : UInt16
  frameID : UInt16
  sendClockFactor : UInt16
  reductionRatio : UInt16
  phase : UInt16
  sequence : UInt16
  frameSendOffset : UInt32
  watchdogFactor : UInt16
  dataHoldFactor : UInt16
  iocrTagHeader : UInt16
  iocrMulticastMAC : HardwareAddr
  numberOfAPIs : UInt16 := 0
  apis : List IOCRAPIEntry := []
  deriving DecidableEq, Repr

/-- The loops over the data objects and over the consumer states: `n` entries, or as many
as the data holds, and the offset behind them. -/
def slotEntries (data : Bytes) : Nat → Nat → Outcome ParseError (List SlotEntry × Nat)
  | 0, offset => .ok ([], offset)
  | n + 1, offset =>
    if data.length < offset + 6 then .ok ([], offset)
    else do
      let slotNumber ← uint16 data offset (offset + 2)
      let subslotNumber ← uint16 data (offset + 2) (offset + 4)
      let frameOffset ← uint16 data (offset + 4) (offset + 6)
      let (entries, offset) ← slotEntries data n (offset + 6)
      return (⟨slotNumber, subslotNumber, frameOffset⟩ :: entries, offset)

/-- The loop over the APIs; one whose consumer states are missing is dropped. -/
def iocrAPIs (data : Bytes) : Nat → Nat → Outcome ParseError (List IOCRAPIEntry)
  | 0, _ => .ok []
  | n + 1, offset =>
    if data.length < offset + 6 then .ok []
    else do
      let api ← uint32 data offset (offset + 4)
      let numDataObjects ← uint16 data (offset + 4) (offset + 6)
      let (objects, offset) ← slotEntries data numDataObjects.toNat (offset + 6)
      if data.length < offset + 2 then return []
      else
        let numIOCS ← uint16 data offset (offset + 2)
        let (iocss, offset) ← slotEntries data numIOCS.toNat (offset + 2)
        let apis ← iocrAPIs data n offset
        return ⟨api, objects, iocss⟩ :: apis

def parseIOCRBlockReq (data : Bytes) : Outcome ParseError IOCRBlockReq :=
  if data.length < 38 then .err (.iocrTooShort data.length)
  else do
    let iocr : IOCRBlockReq := {
      iocrType := ← uint16 data 0 2
      iocrReference := ← uint16 data 2 4
      lt := ← uint16 data 4 6
      iocrProperties := ← uint32 data 6 10
      dataLength := ← uint16 data 10 12
      frameID := ← uint16 data 12 14
      sendClockFactor := ← uint16 data 14 16
      reductionRatio := ← uint16 data 16 18
      phase := ← uint16 data 18 20
      sequence := ← uint16 data 20 22
      frameSendOffset := ← uint32 data 22 26
      watchdogFactor := ← uint16 data 26 28
      dataHoldFactor := ← uint16 data 28 30
      iocrTagHeader := ← uint16 data 30 32
      iocrMulticastMAC := .copy 6 (← slice data 32 38) }
    if data.length < 40 then return iocr
    else
      let numberOfAPIs ← uint16 data 38 40
      let apis ← iocrAPIs data numberOfAPIs.toNat 40
      return { iocr with
        numberOfAPIs := numberOfAPIs
        apis := apis }

/-! ## The alarm block -/

structure AlarmCRBlockReq where
  alarmCRType : UInt16
  lt : UInt16
  alarmCRProperties : UInt32
  rtaTimeoutFactor : UInt16
  rtaRetries : UInt16
  localAlarmRef : UInt16
  maxAlarmDataLen : UInt16
  alarmCRTagHeaderH : UInt16
  deriving DecidableEq, Repr

def parseAlarmCRBlockReq (data : Bytes) : Outcome ParseError AlarmCRBlockReq :=
  if data.length < 18 then .err (.alarmTooShort data.length)
  else do
    return {
      alarmCRType := ← uint16 data 0 2
      lt := ← uint16 data 2 4
      alarmCRProperties := ← uint32 data 4 8
      rtaTimeoutFactor := ← uint16 data 8 10
      rtaRetries := ← uint16 data 10 12
      localAlarmRef := ← uint16 data 12 14
      maxAlarmDataLen := ← uint16 data 14 16
      alarmCRTagHeaderH := ← uint16 data 16 18 }

/-! ## The expected submodules -/

structure SubmoduleDataDesc where
  dataDirection : UInt16
  dataLength : UInt16
  lengthIOPS : UInt8
  lengthIOCS : UInt8
  deriving DecidableEq, Repr

structure ExpectedSubmodule where
  subslotNumber : UInt16
  submoduleIdentNumber : UInt32
  submoduleProperties : UInt16
  dataDescription : List SubmoduleDataDesc
  deriving DecidableEq, Repr

structure ExpectedModule where
  slotNumber : UInt16
  moduleIdentNumber : UInt32
  moduleProperties : UInt16
  submodules : List ExpectedSubmodule
  deriving DecidableEq, Repr

structure ExpectedAPI where
  api : UInt32
  modules : List ExpectedModule
  deriving DecidableEq, Repr

structure ExpectedSubmoduleReq where
  apis : List ExpectedAPI
  deriving DecidableEq, Repr

/-- The number of data descriptions, by the type in the two low bits of the properties. -/
def numDescs (properties : UInt16) : Nat :=
  match (properties &&& 0x0003).toNat with
  | 0 => 0
  | 3 => 2
  | _ => 1

def dataDescs (data : Bytes) : Nat → Nat → Outcome ParseError (List SubmoduleDataDesc × Nat)
  | 0, offset => .ok ([], offset)
  | n + 1, offset =>
    if data.length < offset + 8 then .ok ([], offset)
    else do
      let dataDirection ← uint16 data offset (offset + 2)
      let dataLength ← uint16 data (offset + 2) (offset + 4)
      let lengthIOPS ← index data (offset + 4)
      let lengthIOCS ← index data (offset + 5)
      let (descs, offset) ← dataDescs data n (offset + 8)
      return (⟨dataDirection, dataLength, lengthIOPS, lengthIOCS⟩ :: descs, offset)

/-- A submodule is read only where twelve bytes are left. -/
def expectedSubmodules (data : Bytes) :
    Nat → Nat → Outcome ParseError (List ExpectedSubmodule × Nat)
  | 0, offset => .ok ([], offset)
  | n + 1, offset =>
    if data.length < offset + 12 then .ok ([], offset)
    else do
      let subslotNumber ← uint16 data offset (offset + 2)
      let identNumber ← uint32 data (offset + 2) (offset + 6)
      let properties ← uint16 data (offset + 6) (offset + 8)
      let (descs, offset) ← dataDescs data (numDescs properties) (offset + 8)
      let (subs, offset) ← expectedSubmodules data n offset
      return (⟨subslotNumber, identNumber, properties, descs⟩ :: subs, offset)

def expectedModules (data : Bytes) : Nat → Nat → Outcome ParseError (List ExpectedModule × Nat)
  | 0, offset => .ok ([], offset)
  | n + 1, offset =>
    if data.length < offset + 10 then .ok ([], offset)
    else do
      let slotNumber ← uint16 data offset (offset + 2)
      let identNumber ← uint32 data (offset + 2) (offset + 6)
      let properties ← uint16 data (offset + 6) (offset + 8)
      let numSubmodules ← uint16 data (offset + 8) (offset + 10)
      let (subs, offset) ← expectedSubmodules data numSubmodules.toNat (offset + 10)
      let (modules, offset) ← expectedModules data n offset
      return (⟨slotNumber, identNumber, properties, subs⟩ :: modules, offset)

def expectedAPIs (data : Bytes) : Nat → Nat → Outcome ParseError (List ExpectedAPI)
  | 0, _ => .ok []
  | n + 1, offset =>
    if data.length < offset + 6 then .ok []
    else do
      let api ← uint32 data offset (offset + 4)
      let numModules ← uint16 data (offset + 4) (offset + 6)
      let (modules, offset) ← expectedModules data numModules.toNat (offset + 6)
      let apis ← expectedAPIs data n offset
      return ⟨api, modules⟩ :: apis

def parseExpectedSubmoduleReq (data : Bytes) : Outcome ParseError ExpectedSubmoduleReq :=
  if data.length < 2 then .err (.expectedTooShort data.length)
  else do
    let numAPIs ← uint16 data 0 2
    return { apis := ← expectedAPIs data numAPIs.toNat 2 }

end ProfinetBlocks
