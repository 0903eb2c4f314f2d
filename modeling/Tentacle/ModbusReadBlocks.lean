import Tentacle.CodecAgreement
import Tentacle.GoSlices
import Tentacle.ModbusClient
import Tentacle.ModbusScanner

/-!
# Read blocks of the Modbus client

The tags of a device are read in blocks. A tag of a block has its offset from the
start of the block, and the answer of the server has the length that the server
chose. The client checks the answer against itself, not against the block.
-/

namespace ModbusReadBlocks

open GoValues GoSlices BigEndian IeeeFloat ModbusCodec
open ModbusClient (MBAPFrame DecodeError isExceptionResponse)
open ModbusScanner (ModbusTagConfig fcNameToCode)

/-- The value of an `int` that a computation gives. -/
def int64 (n : Int) : Int := n.bmod (2 ^ 64)

/-! ## The blocks -/

structure TagInBlock where
  tag : ModbusTagConfig
  offset : Int
  deriving DecidableEq, Repr

structure ReadBlock where
  functionCode : Nat
  startAddr : Int
  count : Int
  tags : List TagInBlock
  deriving DecidableEq, Repr

def maxGap : Int := 10

def fcIsCoilOrDiscrete (fc : Nat) : Bool := fc = 1 ∨ fc = 2

def regSize (tag : ModbusTagConfig) : Nat :=
  if fcIsCoilOrDiscrete (fcNameToCode tag.functionCode) then 1
  else registerCount (.ofString tag.datatype)

def newBlock (fc : Nat) (tag : ModbusTagConfig) : ReadBlock where
  functionCode := fc
  startAddr := tag.address
  count := regSize tag
  tags := [⟨tag, 0⟩]

def extendBlock (block : ReadBlock) (tag : ModbusTagConfig) : ReadBlock :=
  let newEnd := int64 (tag.address + regSize tag)
  let size := int64 (newEnd - block.startAddr)
  { block with
    count := if block.count < size then size else block.count
    tags := block.tags ++ [⟨tag, int64 (tag.address - block.startAddr)⟩] }

/-- The merge of the sorted tags of one function code, with the current block. -/
def mergeBlocks (fc : Nat) : Option ReadBlock → List ModbusTagConfig → List ReadBlock
  | current, [] => current.toList
  | none, tag :: tags => mergeBlocks fc (some (newBlock fc tag)) tags
  | some block, tag :: tags =>
    let endOfCurrent := int64 (block.startAddr + block.count)
    if int64 (tag.address - endOfCurrent) ≤ maxGap then
      mergeBlocks fc (some (extendBlock block tag)) tags
    else block :: mergeBlocks fc (some (newBlock fc tag)) tags

/-- The groups that the tags may be put into: one for each function code, in any order,
with its tags sorted by address. -/
structure Grouping (tags : GoMap String ModbusTagConfig)
    (groups : List (Nat × List ModbusTagConfig)) : Prop where
  nodup : (groups.map (·.1)).Nodup
  perm : ∀ g ∈ groups, g.2.Perm ((tags.entries.map (·.2)).filter fun tag =>
    fcNameToCode tag.functionCode = g.1)
  sorted : ∀ g ∈ groups, g.2.Pairwise fun t u => t.address ≤ u.address

/-- The blocks of the groups. -/
def buildReadBlocks (groups : List (Nat × List ModbusTagConfig)) : List ReadBlock :=
  groups.flatMap fun g => mergeBlocks g.1 none g.2

/-! ## The answer -/

def decodeMBAPResponse (buf : Bytes) : Outcome DecodeError (MBAPFrame × Nat) :=
  if buf.length < 7 then .err (.incompleteHeader buf.length)
  else do
    let txnID ← uint16 buf 0 2
    let protoID ← uint16 buf 2 4
    let length := (← uint16 buf 4 6).toNat
    let unitID ← index buf 6
    let totalLen := 7 + length - 1
    if buf.length < totalLen then .err (.incompleteFrame totalLen buf.length)
    else if length < 2 then .err .invalidLength
    else
      let fc ← index buf 7
      let data ← makeSlice 0 ((length : Int) - 2)
      let data ← copyFrom data 0 (← slice buf 8 totalLen)
      return ({
        transactionID := txnID
        protocolID := protoID
        unitID := unitID
        functionCode := fc
        data := data }, totalLen)

/-- The errors of a read: of the connection, `modbus exception FC%d: %s`, `empty
response data` and `truncated response: expected %d bytes, got %d`. -/
inductive ReadError where
  | write
  | read
  | exception (fc code : UInt8)
  | empty
  | truncated (expected got : Nat)
  deriving DecidableEq, Repr

/-- The frame that the buffer holds, and what follows it; `none` while there is none. -/
def takeResponse (readBuf : Bytes) : Outcome ReadError (Option (MBAPFrame × Bytes)) :=
  if readBuf.length < 7 then .ok none
  else do
    match ← (decodeMBAPResponse readBuf).attempt with
    | .error _ => return none
    | .ok (resp, consumed) =>
      let rest ← sliceFrom readBuf consumed
      if isExceptionResponse resp.functionCode then
        let excCode ← if 0 < resp.data.length then index resp.data 0 else pure 0
        .err (.exception (resp.functionCode &&& 0x7F) excCode)
      else return some (resp, rest)

/-- The loop of `sendAndReceive`; the reads return the given pieces and then an error. -/
def receive : Bytes → List Bytes → Outcome ReadError (MBAPFrame × Bytes)
  | readBuf, [] => do
    match ← takeResponse readBuf with
    | some resp => return resp
    | none => .err .read
  | readBuf, chunk :: chunks => do
    match ← takeResponse readBuf with
    | some resp => return resp
    | none => receive (readBuf ++ chunk) chunks

/-- The connection of a device: what was read before, whether the request can be
written, and the pieces that are read after it. -/
structure Exchange where
  readBuf : Bytes
  writeOK : Bool := true
  chunks : List Bytes

def sendAndReceive (x : Exchange) : Outcome ReadError MBAPFrame :=
  if !x.writeOK then .err .write
  else do
    let (resp, _) ← receive x.readBuf x.chunks
    return resp

/-- The body that `readRegisters` and `readCoils` have in common. -/
def readData (x : Exchange) : Outcome ReadError Bytes := do
  let resp ← sendAndReceive x
  if resp.data.length < 1 then .err .empty
  else
    let byteCount := (← index resp.data 0).toNat
    if resp.data.length < 1 + byteCount then .err (.truncated byteCount (resp.data.length - 1))
    else slice resp.data 1 (1 + byteCount)

def readRegisters : Exchange → Outcome ReadError Bytes := readData

def readCoils : Exchange → Outcome ReadError Bytes := readData

/-! ## The values -/

def decodeRegisters (data : Bytes) (datatype : Datatype) (byteOrder : ByteOrder) :
    Outcome CodecError GoValue :=
  let needed := registerCount datatype * 2
  if data.length < needed then .err (.needBytes needed datatype data.length)
  else do
    let raw := arrangeBytes (← slice data 0 needed) byteOrder
    match datatype with
    | .boolean => return .bool ((← index raw 0) ≠ 0 ∨ (← index raw 1) ≠ 0)
    | .int16 => return .int .int64 (toSigned 16 (← uint16 raw 0 2).toNat)
    | .uint16 => return .int .int64 (← uint16 raw 0 2).toNat
    | .int32 => return .int .int64 (toSigned 32 (← uint32 raw 0 4).toNat)
    | .uint32 => return .int .int64 (← uint32 raw 0 4).toNat
    | .float32 =>
      return .float64 ((Number.ofBits (← uint32 raw 0 4).toNat : Single).convert binary64)
    | .float64 => return .float64 (Number.ofBits (← uint64 raw 0 8).toNat)
    | .other _ => return .int .int64 (← uint16 raw 0 2).toNat

/-- A shift by more than the width of a byte gives zero. -/
def decodeBoolFromCoils (data : Bytes) (bitOffset : Int) : Outcome ReadError Bool :=
  let byteIdx := bitOffset.tdiv 8
  let bitIdx := toUint 64 (bitOffset.tmod 8)
  if data.length ≤ byteIdx then .ok false
  else do
    let b ← indexInt data byteIdx
    return bitIdx < 8 && b.toNat.testBit bitIdx

/-- The byte order of a tag, with the defaults of the device and of the code. -/
def byteOrderOf (deviceOrder : String) (tag : ModbusTagConfig) : ByteOrder :=
  if tag.byteOrder ≠ "" then .ofString tag.byteOrder
  else if deviceOrder ≠ "" then .ofString deviceOrder
  else .ABCD

/-- One tag of a block of coils. -/
def readCoilTag (data : Bytes) (results : GoMap String GoValue) (t : TagInBlock) :
    Outcome ReadError (GoMap String GoValue) := do
  return results.insert t.tag.id (.bool (← decodeBoolFromCoils data t.offset))

/-- One tag of a block of registers; a tag that cannot be decoded is left out. -/
def readRegisterTag (deviceOrder : String) (data : Bytes) (results : GoMap String GoValue)
    (t : TagInBlock) : Outcome ReadError (GoMap String GoValue) := do
  let window ← sliceFrom data (int64 (t.offset * 2))
  let decoded := decodeRegisters window (.ofString t.tag.datatype) (byteOrderOf deviceOrder t.tag)
  match ← decoded.attempt with
  | .ok val => return results.insert t.tag.id val
  | .error _ => return results

def readBlock (deviceOrder : String) (block : ReadBlock) (x : Exchange) :
    Outcome ReadError (GoMap String GoValue) :=
  if fcIsCoilOrDiscrete block.functionCode then do
    let data ← readCoils x
    block.tags.foldlM (readCoilTag data) ∅
  else do
    let data ← readRegisters x
    block.tags.foldlM (readRegisterTag deviceOrder data) ∅

/-! ## The checks of the decoders suffice -/

/-- On slices the decoder does what it does on lists, and never panics. -/
theorem decodeMBAPResponse_eq (buf : Bytes) :
    decodeMBAPResponse buf = .ofExcept (ModbusClient.decodeMBAPResponse buf) := by
  unfold decodeMBAPResponse ModbusClient.decodeMBAPResponse
  by_cases hlong : buf.length < 7
  · rw [if_pos hlong, if_pos hlong]
    rfl
  have hlt := uint_lt ((buf.drop 4).take 2)
  rw [length_window (by omega)] at hlt
  have hfield : (UInt16.ofNat (uint ((buf.drop 4).take 2))).toNat = uint ((buf.drop 4).take 2) :=
    UInt16.toNat_ofNat_of_lt' hlt
  rw [if_neg hlong, if_neg hlong, uint16_ok rfl (by omega), Outcome.ok_bind,
    uint16_ok rfl (by omega), Outcome.ok_bind, uint16_ok rfl (by omega), Outcome.ok_bind, hfield,
    index_ok (by omega), Outcome.ok_bind]
  generalize uint ((buf.drop 4).take 2) = length
  dsimp only
  by_cases hcomplete : buf.length < 7 + length - 1
  · rw [if_pos hcomplete, if_pos hcomplete]
    rfl
  rw [if_neg hcomplete, if_neg hcomplete]
  by_cases hshort : length < 2
  · rw [if_pos hshort, if_pos hshort]
    rfl
  have hdata : ((buf.take (7 + length - 1)).drop 8).length = length - 2 := by
    rw [List.length_drop, List.length_take]
    omega
  have hmake : ((length : Int) - 2).toNat = length - 2 := by omega
  rw [if_neg hshort, if_neg hshort, index_ok (by omega), Outcome.ok_bind, makeSlice,
    if_pos (by omega), Outcome.ok_bind, slice_ok (by omega) (by omega), Outcome.ok_bind, hmake,
    copyFrom, if_pos (by simp), Outcome.ok_bind]
  have hunit : buf[6]? = some buf[6] := List.getElem?_eq_getElem (by omega)
  have hcode : buf[7]? = some buf[7] := List.getElem?_eq_getElem (by omega)
  simp [Outcome.ofExcept, ← hdata, hunit, hcode]

theorem decodeRegisters_safe (data : Bytes) (datatype : Datatype) (byteOrder : ByteOrder) :
    (decodeRegisters data datatype byteOrder).Safe := by
  rw [decodeRegisters]
  split
  · trivial
  next hlong =>
    refine (ensures_slice (by omega) (by omega)).bind fun window hwindow => ?_
    have hraw : (arrangeBytes window byteOrder).length = registerCount datatype * 2 := by
      rw [CodecAgreement.length_arrangeBytes, hwindow, Nat.sub_zero]
    generalize arrangeBytes window byteOrder = raw at hraw
    cases datatype with
    | boolean =>
      refine (ensures_index (by rw [hraw]; decide)).bind fun _ _ => ?_
      exact (ensures_index (by rw [hraw]; decide)).bind fun _ _ => trivial
    | int16 => exact (ensures_uint16 rfl hraw.ge).bind fun _ _ => trivial
    | uint16 => exact (ensures_uint16 rfl hraw.ge).bind fun _ _ => trivial
    | int32 => exact (ensures_uint32 rfl hraw.ge).bind fun _ _ => trivial
    | uint32 => exact (ensures_uint32 rfl hraw.ge).bind fun _ _ => trivial
    | float32 => exact (ensures_uint32 rfl hraw.ge).bind fun _ _ => trivial
    | float64 => exact (ensures_uint64 rfl hraw.ge).bind fun _ _ => trivial
    | other name => exact (ensures_uint16 rfl hraw.ge).bind fun _ _ => trivial

/-! ## What the server answered -/

/-- The data bytes of the answer that a stream begins with, if it is a frame, no
exception, and holds the bytes that it counts. -/
def answerData (stream : Bytes) : Option Bytes :=
  match ModbusClient.decodeMBAPResponse stream with
  | .error _ => none
  | .ok (resp, _) =>
    if isExceptionResponse resp.functionCode then none
    else
      match resp.data with
      | [] => none
      | byteCount :: rest =>
        if rest.length < byteCount.toNat then none else some (rest.take byteCount.toNat)

theorem takeResponse_error {readBuf : Bytes} {e : DecodeError}
    (h : ModbusClient.decodeMBAPResponse readBuf = .error e) : takeResponse readBuf = .ok none := by
  rw [takeResponse]
  split
  · rfl
  · rw [decodeMBAPResponse_eq, h]
    rfl

/-- A response is handed over or, with its highest bit set, is an exception. -/
theorem takeResponse_ok {readBuf : Bytes} {resp : MBAPFrame} {consumed : Nat}
    (h : ModbusClient.decodeMBAPResponse readBuf = .ok (resp, consumed)) :
    takeResponse readBuf =
      if isExceptionResponse resp.functionCode then do
        let excCode ← if 0 < resp.data.length then index resp.data 0 else pure 0
        .err (.exception (resp.functionCode &&& 0x7F) excCode)
      else .ok (some (resp, readBuf.drop consumed)) := by
  have hlong : ¬readBuf.length < 7 := by
    intro hshort
    rw [ModbusClient.decodeMBAPResponse, if_pos hshort] at h
    cases h
  have hconsumed := ModbusClient.consumed_le h
  rw [takeResponse, if_neg hlong, decodeMBAPResponse_eq, h]
  simp only [Outcome.ofExcept, Outcome.attempt_ok, Outcome.ok_bind, sliceFrom, Int.toNat_natCast,
    Nat.cast_nonneg, Nat.cast_le, hconsumed, and_self, if_true]
  rfl

/-- A response is an exception, which is an error, or it is returned. -/
theorem takeResponse_cases {readBuf : Bytes} {resp : MBAPFrame} {consumed : Nat}
    (h : ModbusClient.decodeMBAPResponse readBuf = .ok (resp, consumed)) :
    (isExceptionResponse resp.functionCode = true ∧ ∃ e, takeResponse readBuf = .err e) ∨
    (isExceptionResponse resp.functionCode = false ∧
      takeResponse readBuf = .ok (some (resp, readBuf.drop consumed))) := by
  rw [takeResponse_ok h]
  cases isExceptionResponse resp.functionCode with
  | false => exact .inr ⟨rfl, rfl⟩
  | true =>
    refine .inl ⟨rfl, ?_⟩
    rw [if_pos rfl]
    split
    next hpos =>
      rw [index_ok hpos]
      exact ⟨_, rfl⟩
    · exact ⟨_, rfl⟩

/-- The read of a stream ends with an error, or with the response that it begins with. -/
def Received (readBuf : Bytes) (chunks : List Bytes) : Prop :=
  (∃ e, receive readBuf chunks = .err e ∧ answerData (readBuf ++ chunks.flatten) = none) ∨
  ∃ resp consumed rest, ModbusClient.decodeMBAPResponse (readBuf ++ chunks.flatten) =
    .ok (resp, consumed) ∧ isExceptionResponse resp.functionCode = false ∧
    receive readBuf chunks = .ok (resp, rest)

/-- A response that is in the buffer ends the read, whatever follows. -/
theorem received_of_decode {readBuf : Bytes} {resp : MBAPFrame} {consumed : Nat}
    (h : ModbusClient.decodeMBAPResponse readBuf = .ok (resp, consumed)) (chunks : List Bytes) :
    Received readBuf chunks := by
  have hstream := ModbusClient.decodeMBAPResponse_append h chunks.flatten
  obtain ⟨hexc, e, htake⟩ | ⟨hexc, htake⟩ := takeResponse_cases h
  · refine .inl ⟨e, ?_, ?_⟩
    · cases chunks <;> rw [receive, htake] <;> rfl
    · rw [answerData, hstream]
      exact if_pos hexc
  · refine .inr ⟨resp, consumed, readBuf.drop consumed, hstream, hexc, ?_⟩
    cases chunks <;> rw [receive, htake] <;> rfl

/-- However the answer is cut into reads, the first response of the stream is taken. -/
theorem received (readBuf : Bytes) (chunks : List Bytes) : Received readBuf chunks := by
  induction chunks generalizing readBuf with
  | nil =>
    cases hdecode : ModbusClient.decodeMBAPResponse readBuf with
    | ok r => exact received_of_decode hdecode []
    | error e =>
      refine .inl ⟨.read, ?_, ?_⟩
      · rw [receive, takeResponse_error hdecode]
        rfl
      · rw [List.flatten_nil, List.append_nil, answerData, hdecode]
  | cons chunk chunks ih =>
    cases hdecode : ModbusClient.decodeMBAPResponse readBuf with
    | ok r => exact received_of_decode hdecode (chunk :: chunks)
    | error e =>
      have hnext : receive readBuf (chunk :: chunks) = receive (readBuf ++ chunk) chunks := by
        rw [receive, takeResponse_error hdecode]
        rfl
      have hrest := ih (readBuf ++ chunk)
      rw [Received, List.append_assoc, ← List.flatten_cons, ← hnext] at hrest
      exact hrest

/-- A read returns the data of the answer, or an error if there is none. -/
theorem readData_cases (x : Exchange) :
    (∃ e, readData x = .err e ∧
      (x.writeOK = true → answerData (x.readBuf ++ x.chunks.flatten) = none)) ∨
    ∃ data, x.writeOK = true ∧ answerData (x.readBuf ++ x.chunks.flatten) = some data ∧
      readData x = .ok data := by
  rw [readData, sendAndReceive]
  cases x.writeOK with
  | false => exact .inl ⟨.write, rfl, by simp⟩
  | true =>
    obtain ⟨e, hreceive, hnone⟩ | ⟨resp, consumed, rest, hdecode, hexc, hreceive⟩ :=
      received x.readBuf x.chunks
    · rw [hreceive]
      exact .inl ⟨e, rfl, fun _ => hnone⟩
    · simp only [hreceive, Bool.not_true, Bool.false_eq_true, if_false, Outcome.ok_bind,
        Outcome.pure_eq]
      rw [answerData, hdecode]
      dsimp only
      rw [hexc]
      cases resp.data with
      | nil => exact .inl ⟨.empty, rfl, fun _ => rfl⟩
      | cons byteCount tail =>
        have hindex : (index (byteCount :: tail) 0 : Outcome ReadError UInt8) = .ok byteCount := rfl
        rw [if_neg (by simp), hindex, Outcome.ok_bind]
        by_cases hshort : tail.length < byteCount.toNat
        · refine .inl ⟨_, if_pos (by rw [List.length_cons]; omega), fun _ => ?_⟩
          exact if_pos hshort
        · refine .inr ⟨tail.take byteCount.toNat, trivial, if_neg hshort, ?_⟩
          rw [if_neg (by rw [List.length_cons]; omega),
            slice_window rfl (by rw [List.length_cons]; omega)]
          rfl

/-! ## Safety of a block -/

/-- A coil of a block does not lie before it; after the data it reads as false. -/
def CoilInData (t : TagInBlock) : Prop := 0 ≤ t.offset.tdiv 8

/-- A register of a block lies within the data or begins at its end. -/
def RegisterInData (data : Bytes) (t : TagInBlock) : Prop :=
  0 ≤ int64 (t.offset * 2) ∧ int64 (t.offset * 2) ≤ data.length

theorem readCoilTag_ok (data : Bytes) (t : TagInBlock) (h : CoilInData t)
    (results : GoMap String GoValue) : ∃ r, readCoilTag data results t = .ok r := by
  rw [CoilInData] at h
  rw [readCoilTag, decodeBoolFromCoils]
  split
  · exact ⟨_, rfl⟩
  next hlong =>
    rw [indexInt, if_pos h, index_ok (by omega)]
    exact ⟨_, rfl⟩

theorem readCoilTag_panic (data : Bytes) (t : TagInBlock) (h : ¬CoilInData t)
    (results : GoMap String GoValue) : ∃ p, readCoilTag data results t = .panic p := by
  rw [CoilInData] at h
  rw [readCoilTag, decodeBoolFromCoils]
  rw [if_neg (by omega), indexInt, if_neg h]
  exact ⟨_, rfl⟩

theorem readRegisterTag_ok (deviceOrder : String) (data : Bytes) (t : TagInBlock)
    (h : RegisterInData data t) (results : GoMap String GoValue) :
    ∃ r, readRegisterTag deviceOrder data results t = .ok r := by
  rw [RegisterInData] at h
  rw [readRegisterTag, sliceFrom, if_pos h, Outcome.ok_bind]
  have hsafe := decodeRegisters_safe (data.drop (int64 (t.offset * 2)).toNat)
    (.ofString t.tag.datatype) (byteOrderOf deviceOrder t.tag)
  dsimp only
  cases hdecode : decodeRegisters (data.drop (int64 (t.offset * 2)).toNat)
    (.ofString t.tag.datatype) (byteOrderOf deviceOrder t.tag) with
  | ok val => exact ⟨_, rfl⟩
  | err e => exact ⟨_, rfl⟩
  | panic p =>
    rw [hdecode] at hsafe
    exact hsafe.elim

theorem readRegisterTag_panic (deviceOrder : String) (data : Bytes) (t : TagInBlock)
    (h : ¬RegisterInData data t) (results : GoMap String GoValue) :
    ∃ p, readRegisterTag deviceOrder data results t = .panic p := by
  rw [RegisterInData] at h
  rw [readRegisterTag, sliceFrom, if_neg h]
  exact ⟨_, rfl⟩

/-- Every tag of the block lies within the data. -/
def InData (block : ReadBlock) (data : Bytes) : Prop :=
  ∀ t ∈ block.tags,
    if fcIsCoilOrDiscrete block.functionCode then CoilInData t else RegisterInData data t

/-- With data the read is safe exactly if all the tags lie in it. -/
theorem readBlock_ok {deviceOrder : String} {block : ReadBlock} {x : Exchange} {data : Bytes}
    (hdata : readData x = .ok data) : (readBlock deviceOrder block x).Safe ↔ InData block data := by
  rw [readBlock, InData]
  cases fcIsCoilOrDiscrete block.functionCode with
  | true =>
    rw [if_pos rfl, readCoils, hdata, Outcome.ok_bind,
      Outcome.safe_foldlM_iff (readCoilTag_ok data) (readCoilTag_panic data)]
    rfl
  | false =>
    rw [if_neg (by simp), readRegisters, hdata, Outcome.ok_bind, Outcome.safe_foldlM_iff
      (readRegisterTag_ok deviceOrder data) (readRegisterTag_panic deviceOrder data)]
    rfl

theorem readBlock_err {deviceOrder : String} {block : ReadBlock} {x : Exchange} {e : ReadError}
    (herr : readData x = .err e) : (readBlock deviceOrder block x).Safe := by
  rw [readBlock]
  split
  · rw [readCoils, herr]
    trivial
  · rw [readRegisters, herr]
    trivial

/-- A block is read without a panic exactly when the answer has no data, or every tag of
the block lies within it. -/
theorem readBlock_safe_iff (deviceOrder : String) (block : ReadBlock) (x : Exchange) :
    (readBlock deviceOrder block x).Safe ↔
      (x.writeOK = true → ∀ data, answerData (x.readBuf ++ x.chunks.flatten) = some data →
        InData block data) := by
  obtain ⟨e, herr, hnone⟩ | ⟨data, hwrite, hsome, hdata⟩ := readData_cases x
  · refine iff_of_true (readBlock_err herr) fun hwrite data hdata => ?_
    rw [hnone hwrite] at hdata
    cases hdata
  · rw [readBlock_ok hdata, hsome]
    simp [hwrite]

/-! ## The blocks that are built -/

theorem int64_of_small {n : Int} (hlo : -2 ^ 63 ≤ n) (hhi : n < 2 ^ 63) : int64 n = n :=
  Int.bmod_eq_of_le (by omega) (by omega)

/-- The registers of each tag are counted in the block; the sizes are those of 16-bit
addresses. -/
structure Contains (block : ReadBlock) : Prop where
  start_nonneg : 0 ≤ block.startAddr
  start_lt : block.startAddr < 2 ^ 16
  count_lt : block.count < 2 ^ 17
  tags : ∀ t ∈ block.tags, 0 ≤ t.offset ∧ t.offset + regSize t.tag ≤ block.count

/-- The address of a tag is a 16-bit address. -/
def Addressable (tag : ModbusTagConfig) : Prop := 0 ≤ tag.address ∧ tag.address < 2 ^ 16

theorem regSize_le (tag : ModbusTagConfig) : regSize tag ≤ 4 := by
  rw [regSize]
  split
  · omega
  · cases Datatype.ofString tag.datatype <;> simp [registerCount]

theorem contains_newBlock (fc : Nat) {tag : ModbusTagConfig} (h : Addressable tag) :
    Contains (newBlock fc tag) := by
  have hsize := regSize_le tag
  refine ⟨h.1, h.2, ?_, ?_⟩
  · change (regSize tag : Int) < 2 ^ 17
    omega
  · intro t ht
    obtain rfl := List.mem_singleton.mp ht
    simp [newBlock]

/-- A block that grows by a tag contains it, and the others still. -/
theorem Contains.extend {block : ReadBlock} (hblock : Contains block) {tag : ModbusTagConfig}
    (h : Addressable tag) (hle : block.startAddr ≤ tag.address) :
    Contains (extendBlock block tag) := by
  have hsize := regSize_le tag
  obtain ⟨hnonneg, hlt, hcount, htags⟩ := hblock
  obtain ⟨hlo, hhi⟩ := h
  have hend : int64 (tag.address + regSize tag) = tag.address + regSize tag :=
    int64_of_small (by omega) (by omega)
  have hspan : int64 (tag.address + regSize tag - block.startAddr) =
      tag.address + regSize tag - block.startAddr := int64_of_small (by omega) (by omega)
  have hoffset : int64 (tag.address - block.startAddr) = tag.address - block.startAddr :=
    int64_of_small (by omega) (by omega)
  rw [extendBlock, hend, hspan, hoffset]
  refine ⟨hnonneg, hlt, ?_, ?_⟩
  · dsimp only
    split <;> omega
  · intro t ht
    obtain ht | ht := List.mem_append.mp ht
    · obtain ⟨hpos, hin⟩ := htags t ht
      dsimp only
      split <;> omega
    · obtain rfl := List.mem_singleton.mp ht
      dsimp only
      split <;> omega

/-- What holds of a new block and stays when a tag is added to the current block holds of all blocks;
it may speak of the tags that are left, and rest on what holds of these. -/
theorem mergeBlocks_induct {fc : Nat} {L : List ModbusTagConfig → Prop}
    {I : List ModbusTagConfig → ReadBlock → Prop} {P : ReadBlock → Prop}
    (hleft : ∀ tag tags, L (tag :: tags) → L tags)
    (hnew : ∀ tag tags, L (tag :: tags) → I tags (newBlock fc tag))
    (hextend : ∀ block tag tags, L (tag :: tags) → I (tag :: tags) block →
      int64 (tag.address - int64 (block.startAddr + block.count)) ≤ maxGap →
        I tags (extendBlock block tag))
    (hdone : ∀ tags block, I tags block → P block) {tags : List ModbusTagConfig}
    (htags : L tags) {current : Option ReadBlock} (hcurrent : ∀ block ∈ current, I tags block) :
    ∀ block ∈ mergeBlocks fc current tags, P block := by
  -- the induction is on the tags that are left, the current block has its invariant already
  induction tags generalizing current with
  | nil =>
    intro block hblock
    rw [mergeBlocks, Option.mem_toList] at hblock
    exact hdone [] block (hcurrent block hblock)
  | cons tag tags ih =>
    have hfirst : ∀ block ∈ some (newBlock fc tag), I tags block := by
      rintro _ ⟨⟩
      exact hnew tag tags htags
    cases current with
    | none => exact ih (hleft tag tags htags) hfirst
    | some block =>
      have hinv := hcurrent block rfl
      rw [mergeBlocks]
      split
      case isTrue hgap =>
        apply ih (hleft tag tags htags)
        rintro _ ⟨⟩
        exact hextend block tag tags htags hinv hgap
      case isFalse =>
        exact List.forall_mem_cons.mpr ⟨hdone _ block hinv, ih (hleft tag tags htags) hfirst⟩

/-- Every block of the merge contains its tags. -/
theorem contains_mergeBlocks (fc : Nat) {tags : List ModbusTagConfig}
    (htags : ∀ tag ∈ tags, Addressable tag)
    (hsorted : tags.Pairwise fun t u => t.address ≤ u.address) :
    ∀ block ∈ mergeBlocks fc none tags, Contains block := by
  apply mergeBlocks_induct (P := Contains)
    (L := fun tags => (∀ tag ∈ tags, Addressable tag) ∧
      tags.Pairwise fun t u => t.address ≤ u.address)
    (I := fun tags block => Contains block ∧ ∀ tag ∈ tags, block.startAddr ≤ tag.address)
  · rintro tag tags ⟨htags, hsorted⟩
    exact ⟨(List.forall_mem_cons.mp htags).2, (List.pairwise_cons.mp hsorted).2⟩
  · rintro tag tags ⟨htags, hsorted⟩
    exact ⟨contains_newBlock fc (htags tag List.mem_cons_self), (List.pairwise_cons.mp hsorted).1⟩
  · rintro block tag tags ⟨htags, -⟩ ⟨hcontains, hstart⟩ -
    obtain ⟨hstart, hstarts⟩ := List.forall_mem_cons.mp hstart
    exact ⟨hcontains.extend (htags tag List.mem_cons_self) hstart, hstarts⟩
  · exact fun tags block h => h.1
  · exact ⟨htags, hsorted⟩
  · simp

theorem contains_buildReadBlocks {tags : GoMap String ModbusTagConfig}
    {groups : List (Nat × List ModbusTagConfig)} (hgroups : Grouping tags groups)
    (htags : ∀ id tag, tags.lookup id = some tag → Addressable tag) :
    ∀ block ∈ buildReadBlocks groups, Contains block := by
  intro block hblock
  obtain ⟨g, hg, hblock⟩ := List.mem_flatMap.mp hblock
  refine contains_mergeBlocks g.1 ?_ (hgroups.sorted g hg) block hblock
  intro tag htag
  have hmem := (hgroups.perm g hg).mem_iff.mp htag
  obtain ⟨e, he, rfl⟩ := List.mem_map.mp (List.mem_filter.mp hmem).1
  exact htags e.1 e.2 ((mem_entries_iff tags e.1 e.2).mp he)

/-- A block of 16-bit addresses is read without a panic from every answer if it is one of coils or
discrete inputs, and else from every answer that has all the registers the client asked for. -/
theorem readBlock_safe_of_full {tags : GoMap String ModbusTagConfig}
    {groups : List (Nat × List ModbusTagConfig)} (hgroups : Grouping tags groups)
    (htags : ∀ id tag, tags.lookup id = some tag → Addressable tag) {block : ReadBlock}
    (hblock : block ∈ buildReadBlocks groups) (deviceOrder : String) {x : Exchange}
    (hfull : fcIsCoilOrDiscrete block.functionCode = false →
      ∀ data, answerData (x.readBuf ++ x.chunks.flatten) = some data →
        block.count * 2 ≤ data.length) : (readBlock deviceOrder block x).Safe := by
  have hcontains := contains_buildReadBlocks hgroups htags block hblock
  obtain ⟨e, herr, -⟩ | ⟨data, -, hsome, hdata⟩ := readData_cases x
  · exact readBlock_err herr
  rw [readBlock_ok hdata]
  intro t ht
  obtain ⟨hnonneg, hle⟩ := hcontains.tags t ht
  have hcount := hcontains.count_lt
  cases hclass : fcIsCoilOrDiscrete block.functionCode with
  | true => exact Int.tdiv_nonneg hnonneg (by omega)
  | false =>
    have hdouble : int64 (t.offset * 2) = t.offset * 2 := int64_of_small (by omega) (by omega)
    have hlength := hfull hclass data hsome
    rw [if_neg Bool.false_ne_true, RegisterInData, hdouble]
    omega

def holdingTag (id : String) (address : Int) : ModbusTagConfig where
  id := id
  address := address
  functionCode := "holding"
  datatype := "uint16"

/-- Two holding registers with one between them that is not asked for. -/
def spacedTags : GoMap String ModbusTagConfig :=
  (AList.singleton "a" (holdingTag "a" 0)).insert "c" (holdingTag "c" 2)

/-- An answer with the three registers of the block, in two pieces. -/
def fullAnswer : Exchange := ⟨[], true, [[0, 0, 0, 0, 0, 9, 1], [3, 6, 0, 1, 0, 2, 0, 3]]⟩

theorem readBlock_safe_fullAnswer :
    ∃ block ∈ buildReadBlocks [(3, [holdingTag "a" 0, holdingTag "c" 2])],
      (readBlock "" block fullAnswer).Safe := by
  have hgroups : Grouping spacedTags [(3, [holdingTag "a" 0, holdingTag "c" 2])] :=
    ⟨by decide, by decide, by decide⟩
  have hentries : ∀ e ∈ spacedTags.entries, 0 ≤ e.2.address ∧ e.2.address < 2 ^ 16 := by decide
  have htags : ∀ id tag, spacedTags.lookup id = some tag → Addressable tag :=
    fun id tag h => hentries ⟨id, tag⟩ ((mem_entries_iff _ id tag).mpr h)
  have hblock : (⟨3, 0, 3, [⟨holdingTag "a" 0, 0⟩, ⟨holdingTag "c" 2, 2⟩]⟩ : ReadBlock) ∈
      buildReadBlocks [(3, [holdingTag "a" 0, holdingTag "c" 2])] := by decide
  refine ⟨_, hblock, readBlock_safe_of_full hgroups htags hblock "" ?_⟩
  intro _ data hdata
  obtain rfl : data = [0, 1, 0, 2, 0, 3] := Option.some.inj (hdata.symm.trans (by decide))
  decide

/-- Two holding registers next to each other. -/
def twoHoldingTags : GoMap String ModbusTagConfig :=
  (AList.singleton "a" (holdingTag "a" 0)).insert "b" (holdingTag "b" 1)

/-- An answer with a byte count of zero: the slice of the second tag is out of range. -/
theorem readBlock_panics_on_short_answer :
    ¬∀ (tags : GoMap String ModbusTagConfig) (groups : List (Nat × List ModbusTagConfig)),
      Grouping tags groups → ∀ block ∈ buildReadBlocks groups, ∀ (deviceOrder : String)
        (x : Exchange), (readBlock deviceOrder block x).Safe := by
  intro h
  have hgroups : Grouping twoHoldingTags [(3, [holdingTag "a" 0, holdingTag "b" 1])] := by
    refine ⟨by decide, ?_, ?_⟩
    · intro g hg
      obtain rfl := List.mem_singleton.mp hg
      exact List.Perm.swap _ _ _
    · intro g hg
      obtain rfl := List.mem_singleton.mp hg
      decide
  have hdata : readData ⟨[], true, [[0, 0, 0, 0, 0, 3, 1, 3, 0]]⟩ = .ok [] := by decide
  have hblock : (⟨3, 0, 2, [⟨holdingTag "a" 0, 0⟩, ⟨holdingTag "b" 1, 1⟩]⟩ : ReadBlock) ∈
      buildReadBlocks [(3, [holdingTag "a" 0, holdingTag "b" 1])] := by decide
  have hin := (readBlock_ok hdata).mp (h _ _ hgroups _ hblock "" _) ⟨holdingTag "b" 1, 1⟩ (by simp)
  exact absurd hin.2 (by decide)

end ModbusReadBlocks
