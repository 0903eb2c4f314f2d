import Tentacle.ProfinetBlocks

/-!
# DCE/RPC packets

The connection management runs over connectionless DCE/RPC: a header of 80 bytes in
the byte order that it announces itself, and a body that frames the PNIO blocks.
-/

namespace ProfinetRpc

open GoValues GoSlices BigEndian Outcome ProfinetBlocks

def rpcVersionCL : UInt8 := 4
def rpcPTypeRequest : UInt8 := 0x00
def rpcPTypeResponse : UInt8 := 0x02

def rpcFlagLastFrag : UInt8 := 0x02
def rpcFlagNoFack : UInt8 := 0x08
def rpcFlagIdempotent : UInt8 := 0x20

def rpcOpConnect : UInt16 := 0
def rpcOpRelease : UInt16 := 1
def rpcOpRead : UInt16 := 2
def rpcOpWrite : UInt16 := 3
def rpcOpControl : UInt16 := 4
def rpcOpReadImplicit : UInt16 := 5

def uuidPNIOInterface : UUID :=
  ⟨[0xDE, 0xA0, 0x00, 0x01, 0x6C, 0x97, 0x11, 0xD1,
    0x82, 0x71, 0x00, 0xA0, 0x24, 0x42, 0xDF, 0x7D], rfl⟩

def uuidEndpointMapper : UUID :=
  ⟨[0xE1, 0xAF, 0x83, 0x08, 0x5D, 0x1F, 0x11, 0xC9,
    0x91, 0xA4, 0x08, 0x00, 0x2B, 0x14, 0xA0, 0xFA], rfl⟩

/-! ## The header -/

structure RPCHeader where
  rpcVersion : UInt8
  packetType : UInt8
  flags1 : UInt8
  flags2 : UInt8 := 0
  dataRep : FixedBytes 3
  serialHigh : UInt8 := 0
  objectUUID : UUID
  interfaceUUID : UUID
  activityUUID : UUID
  serverBootTime : UInt32 := 0
  interfaceVersion : UInt32
  sequenceNum : UInt32
  opNum : UInt16
  interfaceHint : UInt16
  activityHint : UInt16
  fragmentLen : UInt16
  fragmentNum : UInt16 := 0
  authProto : UInt8 := 0
  serialLow : UInt8 := 0
  deriving DecidableEq, Repr

def rpcHeaderSize : Nat := 80

def isLittleEndian (dataRep : FixedBytes 3) : Bool := dataRep.val.head? = some 0x10

/-- The first three groups of a UUID with their bytes the other way round. -/
def swapGroups (b : Bytes) : Bytes :=
  (b.take 4).reverse ++ ((b.drop 4).take 2).reverse ++ ((b.drop 6).take 2).reverse ++ b.drop 8

/-- The bytes that are swapped are among the sixteen that are copied before. -/
def uuidFromWire (data : Bytes) (le : Bool) : Outcome ParseError UUID := do
  let uuid ← slice data 0 16
  return .copy 16 (if le then swapGroups uuid else uuid)

def uuidToWire (uuid : UUID) (le : Bool) : Bytes := if le then swapGroups uuid.val else uuid.val

/-! The wire form of a UUID and the UUID determine each other. -/

/-- The first three groups are reversed and the rest stays. -/
theorem swapGroups_append {a b c d : Bytes} (ha : a.length = 4) (hb : b.length = 2)
    (hc : c.length = 2) :
    swapGroups (a ++ b ++ c ++ d) = a.reverse ++ b.reverse ++ c.reverse ++ d := by
  have h4 : (a ++ b ++ c ++ d).drop 4 = b ++ c ++ d := by
    rw [List.append_assoc, List.append_assoc, List.drop_left' ha, List.append_assoc]
  have h6 : (a ++ b ++ c ++ d).drop 6 = c ++ d := by
    rw [List.append_assoc, List.drop_left' (by simp [ha, hb])]
  have h8 : (a ++ b ++ c ++ d).drop 8 = d := List.drop_left' (by simp [ha, hb, hc])
  have h0 : (a ++ b ++ c ++ d).take 4 = a := by
    rw [List.append_assoc, List.append_assoc, List.take_left' ha]
  rw [swapGroups, h0, h4, h6, h8, List.append_assoc b, List.take_left' hb, List.take_left' hc]

theorem exists_groups {uuid : Bytes} (h : 8 ≤ uuid.length) : ∃ a b c d : Bytes,
    a.length = 4 ∧ b.length = 2 ∧ c.length = 2 ∧ uuid = a ++ b ++ c ++ d := by
  refine ⟨uuid.take 4, (uuid.drop 4).take 2, (uuid.drop 6).take 2, uuid.drop 8, ?_, ?_, ?_, ?_⟩
  · rw [List.length_take]
    omega
  · exact length_window (by omega)
  · exact length_window (by omega)
  · rw [List.append_assoc, ← List.drop_drop (i := 2) (j := 6), List.take_append_drop,
      List.append_assoc, ← List.drop_drop (i := 2) (j := 4), List.take_append_drop,
      List.take_append_drop]

theorem swapGroups_swapGroups {uuid : Bytes} (h : 8 ≤ uuid.length) :
    swapGroups (swapGroups uuid) = uuid := by
  obtain ⟨a, b, c, d, ha, hb, hc, rfl⟩ := exists_groups h
  rw [swapGroups_append ha hb hc, swapGroups_append (by simpa) (by simpa) (by simpa)]
  simp

theorem length_swapGroups {uuid : Bytes} (h : 8 ≤ uuid.length) :
    (swapGroups uuid).length = uuid.length := by
  obtain ⟨a, b, c, d, ha, hb, hc, rfl⟩ := exists_groups h
  rw [swapGroups_append ha hb hc]
  simp

theorem length_uuidToWire (uuid : UUID) (le : Bool) : (uuidToWire uuid le).length = 16 := by
  have huuid := uuid.property
  cases le with
  | false => exact huuid
  | true => exact (length_swapGroups (by omega)).trans huuid

/-- No two identifiers are written alike in one byte order. -/
theorem uuidToWire_injective {uuid uuid' : UUID} {le : Bool}
    (h : uuidToWire uuid le = uuidToWire uuid' le) : uuid = uuid' := by
  have huuid := uuid.property
  have huuid' := uuid'.property
  cases le with
  | false => exact Subtype.ext h
  | true =>
    have hswap : swapGroups (swapGroups uuid.val) = swapGroups (swapGroups uuid'.val) :=
      congrArg swapGroups h
    rw [swapGroups_swapGroups (by omega), swapGroups_swapGroups (by omega)] at hswap
    exact Subtype.ext hswap

/-- Sixteen bytes are the wire form of the UUID that is read from them. -/
theorem uuidFromWire_ok (data : Bytes) (h : data.length = 16) (le : Bool) :
    ∃ uuid, uuidFromWire data le = .ok uuid ∧ uuidToWire uuid le = data := by
  have hwire : (if le then swapGroups data else data).length = 16 := by
    cases le with
    | false => exact h
    | true => exact (length_swapGroups (by omega)).trans h
  refine ⟨⟨_, hwire⟩, ?_, ?_⟩
  · rw [uuidFromWire, slice_all h, ok_bind]
    exact congrArg Outcome.ok (FixedBytes.copy_val ⟨_, hwire⟩)
  · cases le with
    | false => rfl
    | true => exact swapGroups_swapGroups (by omega)

theorem uuidFromWire_uuidToWire (uuid : UUID) (le : Bool) :
    uuidFromWire (uuidToWire uuid le) le = .ok uuid := by
  obtain ⟨uuid', hread, hwire⟩ := uuidFromWire_ok _ (length_uuidToWire uuid le) le
  rw [hread, uuidToWire_injective hwire]

def parseRPCHeader (data : Bytes) : Outcome ParseError RPCHeader :=
  if data.length < rpcHeaderSize then .err (.headerTooShort data.length)
  else do
    let dataRep := FixedBytes.copy 3 (← slice data 4 7)
    let le := isLittleEndian dataRep
    return {
      rpcVersion := ← index data 0
      packetType := ← index data 1
      flags1 := ← index data 2
      flags2 := ← index data 3
      dataRep := dataRep
      serialHigh := ← index data 7
      objectUUID := ← uuidFromWire (← slice data 8 24) le
      interfaceUUID := ← uuidFromWire (← slice data 24 40) le
      activityUUID := ← uuidFromWire (← slice data 40 56) le
      serverBootTime := ← uint32In le data 56 60
      interfaceVersion := ← uint32In le data 60 64
      sequenceNum := ← uint32In le data 64 68
      opNum := ← uint16In le data 68 70
      interfaceHint := ← uint16In le data 70 72
      activityHint := ← uint16In le data 72 74
      fragmentLen := ← uint16In le data 74 76
      fragmentNum := ← uint16In le data 76 78
      authProto := ← index data 78
      serialLow := ← index data 79 }

def RPCHeader.marshal (h : RPCHeader) : Bytes :=
  let le := isLittleEndian h.dataRep
  [h.rpcVersion] ++ [h.packetType] ++ [h.flags1] ++ [h.flags2] ++ h.dataRep.val ++
    [h.serialHigh] ++ uuidToWire h.objectUUID le ++ uuidToWire h.interfaceUUID le ++
    uuidToWire h.activityUUID le ++ ordered le (putUint 4 h.serverBootTime.toNat) ++
    ordered le (putUint 4 h.interfaceVersion.toNat) ++
    ordered le (putUint 4 h.sequenceNum.toNat) ++ ordered le (putUint 2 h.opNum.toNat) ++
    ordered le (putUint 2 h.interfaceHint.toNat) ++ ordered le (putUint 2 h.activityHint.toNat) ++
    ordered le (putUint 2 h.fragmentLen.toNat) ++ ordered le (putUint 2 h.fragmentNum.toNat) ++
    [h.authProto] ++ [h.serialLow]

theorem length_marshal (h : RPCHeader) : h.marshal.length = 80 := by
  delta RPCHeader.marshal
  simp only [List.length_append, List.length_singleton, length_ordered, length_putUint,
    length_uuidToWire, h.dataRep.property]

theorem parseRPCHeader_marshal (h : RPCHeader) (body : Bytes) :
    parseRPCHeader (h.marshal ++ body) = .ok h := by
  obtain ⟨data, hdata⟩ : ∃ data, data = h.marshal ++ body := ⟨_, rfl⟩
  have hrep := h.dataRep.property
  rw [← hdata]
  have hlength := (At.start hdata).length
  rw [List.length_append, length_marshal] at hlength
  delta RPCHeader.marshal at hdata
  have h0 := At.start hdata
  simp only [List.append_assoc, List.cons_append, List.nil_append] at h0
  have h1 := h0.tail
  have h2 := h1.tail
  have h3 := h2.tail
  have h4 := h3.tail
  have h7 := h4.next hrep
  have h8 := h7.tail
  have h24 := h8.next (length_uuidToWire _ _)
  have h40 := h24.next (length_uuidToWire _ _)
  have h56 := h40.next (length_uuidToWire _ _)
  have h60 := h56.next ((length_ordered _ _).trans (length_putUint 4 _))
  have h64 := h60.next ((length_ordered _ _).trans (length_putUint 4 _))
  have h68 := h64.next ((length_ordered _ _).trans (length_putUint 4 _))
  have h70 := h68.next ((length_ordered _ _).trans (length_putUint 2 _))
  have h72 := h70.next ((length_ordered _ _).trans (length_putUint 2 _))
  have h74 := h72.next ((length_ordered _ _).trans (length_putUint 2 _))
  have h76 := h74.next ((length_ordered _ _).trans (length_putUint 2 _))
  have h78 := h76.next ((length_ordered _ _).trans (length_putUint 2 _))
  have h79 := h78.tail
  rw [parseRPCHeader, if_neg (by rw [rpcHeaderSize]; omega), h4.slice (by rw [hrep]),
    ok_bind, FixedBytes.copy_val]
  dsimp only
  rw [h0.index, ok_bind, h1.index, ok_bind, h2.index, ok_bind, h3.index, ok_bind, h7.index, ok_bind,
    h8.slice (by rw [length_uuidToWire]), ok_bind, uuidFromWire_uuidToWire, ok_bind,
    h24.slice (by rw [length_uuidToWire]), ok_bind, uuidFromWire_uuidToWire, ok_bind,
    h40.slice (by rw [length_uuidToWire]), ok_bind, uuidFromWire_uuidToWire, ok_bind,
    h56.uint32In rfl, ok_bind, h60.uint32In rfl, ok_bind, h64.uint32In rfl, ok_bind,
    h68.uint16In rfl, ok_bind, h70.uint16In rfl, ok_bind, h72.uint16In rfl, ok_bind,
    h74.uint16In rfl, ok_bind, h76.uint16In rfl, ok_bind, h78.index, ok_bind, h79.index, ok_bind]
  rfl

/-! ## The bodies -/

/-- `ArgsMaximum`, and the blocks within the announced count. -/
def parsePNIORequestBody (data : Bytes) (le : Bool) :
    Outcome ParseError (UInt32 × List PNIOBlock) :=
  if data.length < 20 then .err (.bodyTooShort data.length)
  else do
    let argsMax ← uint32In le data 0 4
    let actualCount ← uint32In le data 16 20
    let blockData ← sliceFrom data 20
    let blockData ←
      if actualCount.toNat < blockData.length then slice blockData 0 actualCount.toNat
      else pure blockData
    return (argsMax, ← parsePNIOBlocks blockData)

structure PNIOStatus where
  errorCode : UInt8
  errorDecode : UInt8
  errorCode1 : UInt8
  errorCode2 : UInt8
  deriving DecidableEq, Repr

def pnioStatusOK : PNIOStatus := ⟨0, 0, 0, 0⟩

def PNIOStatus.marshal (s : PNIOStatus) : Bytes :=
  [s.errorCode, s.errorDecode, s.errorCode1, s.errorCode2]

/-- Behind the first word of a body: the length of the arguments, the maximal count, the
offset, the actual count and the blocks. -/
def frameBlocks (first : Bytes) (le : Bool) (blocks : Bytes) : Bytes :=
  first ++ ordered le (putUint 4 blocks.length) ++ ordered le (putUint 4 blocks.length) ++
    ordered le (putUint 4 0) ++ ordered le (putUint 4 blocks.length) ++ blocks

def marshalPNIOResponseBody (status : PNIOStatus) (responseBlocks : Bytes) (le : Bool) : Bytes :=
  frameBlocks status.marshal le responseBlocks

end ProfinetRpc
