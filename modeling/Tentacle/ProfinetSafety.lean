import Tentacle.ProfinetAr
import Tentacle.ProfinetExpected

/-!
# Robustness of the connection management

Every parser of the device stays within the bytes it was given, with one exception:
the end of the station name of an AR block is computed in 16 bits, so that a name
length of 65484 or more passes the check and the name is cut backwards. The blocks of
a datagram are described here by their positions alone.
-/

namespace ProfinetAr

open GoValues GoSlices BigEndian Outcome ProfinetBlocks ProfinetRpc
open ProfinetExpected (expectedModules_ensures)

/-- The 16-bit number at a position. -/
def word (data : Bytes) (i : Nat) : Nat := uint ((data.drop i).take 2)

theorem word_lt (data : Bytes) (i : Nat) : word data i < 65536 := by
  have hlength : ((data.drop i).take 2).length ≤ 2 := List.length_take_le 2 _
  exact (uint_lt _).trans_le (Nat.pow_le_pow_right (by decide) hlength)

theorem uint16_word {data : Bytes} (i hi : Nat) (hhi : i + 2 = hi) (h : hi ≤ data.length) :
    ∃ v, (uint16 data i hi : Outcome ParseError _) = .ok v ∧ v.toNat = word data i := by
  refine ⟨_, uint16_ok hhi h, ?_⟩
  rw [UInt16.toNat_ofNat']
  exact Nat.mod_eq_of_lt (word_lt data i)

/-! ## The sequence of blocks -/

/-- From an offset on the bytes hold these blocks, each with its payload, and then less
than a block header. -/
inductive BlocksAt (data : Bytes) : Nat → List PNIOBlock → Prop
  | done {offset : Nat} (h : data.length < offset + 6) : BlocksAt data offset []
  | block {offset : Nat} {b : PNIOBlock} {blocks : List PNIOBlock}
      (hheader : offset + 6 ≤ data.length)
      (hpayload : offset + 6 + (b.length.toNat - 2) ≤ data.length)
      (htype : b.type.toNat = word data offset) (hlength : b.length.toNat = word data (offset + 2))
      (hhigh : data[offset + 4]? = some b.versionHigh)
      (hlow : data[offset + 5]? = some b.versionLow)
      (hdata : b.data = (data.drop (offset + 6)).take (b.length.toNat - 2))
      (hrest : BlocksAt data (align4 (offset + (4 + b.length.toNat))) blocks) :
      BlocksAt data offset (b :: blocks)

theorem parseBlocksFrom_done {data : Bytes} {offset : Nat} (h : data.length < offset + 6) :
    parseBlocksFrom data offset = .ok [] := by
  rw [parseBlocksFrom, if_neg (by omega)]

/-- One round: the payload reaches beyond the data, or the block is read. -/
theorem parseBlocksFrom_block {data : Bytes} {offset : Nat} (h : offset + 6 ≤ data.length) :
    ∃ b : PNIOBlock, b.type.toNat = word data offset ∧ b.length.toNat = word data (offset + 2) ∧
      b.data = (data.drop (offset + 6)).take (b.length.toNat - 2) ∧
      data[offset + 4]? = some b.versionHigh ∧ data[offset + 5]? = some b.versionLow ∧
      parseBlocksFrom data offset =
        if data.length < offset + 6 + (b.length.toNat - 2) then
          .err (.payloadBeyond b.type offset (offset + 6 + (b.length.toNat - 2)) data.length)
        else do
          let blocks ← parseBlocksFrom data (align4 (offset + (4 + b.length.toNat)))
          return b :: blocks := by
  have htypeRoom : offset + 2 ≤ data.length := by omega
  have hlengthRoom : offset + 4 ≤ data.length := by omega
  obtain ⟨type, htype, htype'⟩ := uint16_word offset _ rfl htypeRoom
  obtain ⟨length, hlength, hlength'⟩ := uint16_word (offset + 2) (offset + 4) rfl hlengthRoom
  refine ⟨{
    type := type
    length := length
    versionHigh := data[offset + 4]
    versionLow := data[offset + 5]
    data := (data.drop (offset + 6)).take (length.toNat - 2) }, htype', hlength', rfl,
    List.getElem?_eq_getElem _, List.getElem?_eq_getElem _, ?_⟩
  rw [parseBlocksFrom, if_pos h, htype, ok_bind, hlength, ok_bind, index_ok (by omega), ok_bind,
    index_ok (by omega), ok_bind]
  dsimp only
  split
  · rfl
  next hroom =>
    have hpayload : ((data.drop (offset + 6)).take (length.toNat - 2)).length = length.toNat - 2 :=
      length_window (by omega)
    rw [makeSlice_ok, ok_bind, slice_window rfl (by omega), ok_bind,
      copyFrom_of_length (by simpa using hpayload), ok_bind]

/-- What the parser returns are the blocks at their places. -/
theorem parseBlocksFrom_ensures (data : Bytes) (offset : Nat) :
    (parseBlocksFrom data offset).Ensures (BlocksAt data offset) := by
  induction hrest : data.length - offset using Nat.strongRecOn generalizing offset with
  | ind rest ih =>
    by_cases hroom : offset + 6 ≤ data.length
    · obtain ⟨b, htype, hlength, hdata, hhigh, hlow, heq⟩ := parseBlocksFrom_block hroom
      have hnext := le_align4 (offset + (4 + b.length.toNat))
      rw [heq]
      split
      · trivial
      next hpayload =>
        refine (ih _ (by omega) _ rfl).bind fun blocks hblocks => ?_
        exact .block hroom (by omega) htype hlength hhigh hlow hdata hblocks
    · rw [parseBlocksFrom_done (by omega)]
      exact .done (by omega)

/-- Blocks at their places are what the parser returns. -/
theorem BlocksAt.parse {data : Bytes} {offset : Nat} {blocks : List PNIOBlock}
    (h : BlocksAt data offset blocks) : parseBlocksFrom data offset = .ok blocks := by
  induction h with
  | done h => exact parseBlocksFrom_done h
  | @block offset b blocks hheader hpayload htype hlength hhigh hlow hdata hrest ih =>
    obtain ⟨b', htype', hlength', hdata', hhigh', hlow', heq⟩ := parseBlocksFrom_block hheader
    obtain ⟨type, length, high, low, data'⟩ := b
    obtain ⟨type', length', high', low', data''⟩ := b'
    dsimp only at htype hlength hhigh hlow hdata hpayload ih htype' hlength' hhigh' hlow' hdata' heq
    obtain rfl : type' = type := UInt16.toNat_inj.mp (htype'.trans htype.symm)
    obtain rfl : length' = length := UInt16.toNat_inj.mp (hlength'.trans hlength.symm)
    obtain rfl : high' = high := Option.some_inj.mp (hhigh'.symm.trans hhigh)
    obtain rfl : low' = low := Option.some_inj.mp (hlow'.symm.trans hlow)
    obtain rfl : data'' = data' := hdata'.trans hdata.symm
    rw [heq, if_neg (by omega), ih]
    rfl

theorem parsePNIOBlocks_safe (data : Bytes) : (parsePNIOBlocks data).Safe :=
  (parseBlocksFrom_ensures data 0).safe

/-- The parser returns exactly the blocks that stand in the data. -/
theorem parsePNIOBlocks_ok_iff {data : Bytes} {blocks : List PNIOBlock} :
    parsePNIOBlocks data = .ok blocks ↔ BlocksAt data 0 blocks := by
  constructor
  · intro h
    have hensures := parseBlocksFrom_ensures data 0
    rw [parsePNIOBlocks] at h
    rwa [h, ensures_ok] at hensures
  · exact BlocksAt.parse

/-! ## The parsers of the blocks -/

theorem slotEntries_safe (data : Bytes) (n offset : Nat) : (slotEntries data n offset).Safe := by
  induction n generalizing offset with
  | zero => trivial
  | succ n ih =>
    rw [slotEntries]
    split
    · trivial
    next hroom =>
      refine (ensures_uint16 rfl (by omega)).bind fun slotNumber _ => ?_
      refine (ensures_uint16 rfl (by omega)).bind fun subslotNumber _ => ?_
      refine (ensures_uint16 rfl (by omega)).bind fun frameOffset _ => ?_
      exact (ih (offset + 6)).bind fun _ _ => trivial

theorem iocrAPIs_safe (data : Bytes) (n offset : Nat) : (iocrAPIs data n offset).Safe := by
  induction n generalizing offset with
  | zero => trivial
  | succ n ih =>
    rw [iocrAPIs]
    split
    · trivial
    next hroom =>
      refine (ensures_uint32 rfl (by omega)).bind fun api _ => ?_
      refine (ensures_uint16 rfl (by omega)).bind fun numDataObjects _ => ?_
      apply (slotEntries_safe data _ _).bind
      rintro ⟨objects, offset'⟩ -
      dsimp only
      split
      · trivial
      next hroom' =>
        refine (ensures_uint16 rfl (by omega)).bind fun numIOCS _ => ?_
        apply (slotEntries_safe data _ _).bind
        rintro ⟨iocss, offset''⟩ -
        exact (ih offset'').bind fun _ _ => trivial

/-- No data make the parser of IOCR blocks panic. -/
theorem parseIOCRBlockReq_safe (data : Bytes) : (parseIOCRBlockReq data).Safe := by
  rw [parseIOCRBlockReq]
  split
  · trivial
  next hlong =>
    refine (ensures_uint16 rfl (by omega)).bind fun iocrType _ => ?_
    refine (ensures_uint16 rfl (by omega)).bind fun iocrReference _ => ?_
    refine (ensures_uint16 rfl (by omega)).bind fun lt _ => ?_
    refine (ensures_uint32 rfl (by omega)).bind fun iocrProperties _ => ?_
    refine (ensures_uint16 rfl (by omega)).bind fun dataLength _ => ?_
    refine (ensures_uint16 rfl (by omega)).bind fun frameID _ => ?_
    refine (ensures_uint16 rfl (by omega)).bind fun sendClockFactor _ => ?_
    refine (ensures_uint16 rfl (by omega)).bind fun reductionRatio _ => ?_
    refine (ensures_uint16 rfl (by omega)).bind fun phase _ => ?_
    refine (ensures_uint16 rfl (by omega)).bind fun sequence _ => ?_
    refine (ensures_uint32 rfl (by omega)).bind fun frameSendOffset _ => ?_
    refine (ensures_uint16 rfl (by omega)).bind fun watchdogFactor _ => ?_
    refine (ensures_uint16 rfl (by omega)).bind fun dataHoldFactor _ => ?_
    refine (ensures_uint16 rfl (by omega)).bind fun iocrTagHeader _ => ?_
    refine (ensures_slice (by omega) (by omega)).bind fun mac _ => ?_
    dsimp only
    split
    · trivial
    next hapis =>
      refine (ensures_uint16 rfl (by omega)).bind fun numberOfAPIs _ => ?_
      exact (iocrAPIs_safe data _ _).bind fun _ _ => trivial

theorem parseAlarmCRBlockReq_safe (data : Bytes) : (parseAlarmCRBlockReq data).Safe := by
  rw [parseAlarmCRBlockReq]
  split
  · trivial
  next hlong =>
    refine (ensures_uint16 rfl (by omega)).bind fun alarmCRType _ => ?_
    refine (ensures_uint16 rfl (by omega)).bind fun lt _ => ?_
    refine (ensures_uint32 rfl (by omega)).bind fun alarmCRProperties _ => ?_
    refine (ensures_uint16 rfl (by omega)).bind fun rtaTimeoutFactor _ => ?_
    refine (ensures_uint16 rfl (by omega)).bind fun rtaRetries _ => ?_
    refine (ensures_uint16 rfl (by omega)).bind fun localAlarmRef _ => ?_
    refine (ensures_uint16 rfl (by omega)).bind fun maxAlarmDataLen _ => ?_
    exact (ensures_uint16 rfl (by omega)).bind fun _ _ => trivial

theorem expectedAPIs_safe (data : Bytes) (n offset : Nat) : (expectedAPIs data n offset).Safe := by
  induction n generalizing offset with
  | zero => trivial
  | succ n ih =>
    rw [expectedAPIs]
    split
    · trivial
    next hroom =>
      refine (ensures_uint32 rfl (by omega)).bind fun api _ => ?_
      refine (ensures_uint16 rfl (by omega)).bind fun numModules _ => ?_
      apply (expectedModules_ensures data _ _).bind
      rintro ⟨modules, offset'⟩ -
      exact (ih offset').bind fun _ _ => trivial

/-- No data make the parser of the submodules panic. -/
theorem parseExpectedSubmoduleReq_safe (data : Bytes) :
    (parseExpectedSubmoduleReq data).Safe := by
  rw [parseExpectedSubmoduleReq]
  split
  · trivial
  next hlong =>
    refine (ensures_uint16 rfl (by omega)).bind fun numAPIs _ => ?_
    exact (expectedAPIs_safe data _ _).bind fun _ _ => trivial

/-- The end of the station name does not fit into 16 bits. -/
def NameWraps (b : PNIOBlock) : Prop :=
  b.type = blockTypeARBlockReq ∧ 52 ≤ b.data.length ∧ 65484 ≤ word b.data 50

/-- An AR block that ends the request: too short, or with a station name that is. -/
def Refused (b : PNIOBlock) : Prop :=
  b.type = blockTypeARBlockReq ∧ (b.data.length < 52 ∨
    word b.data 50 < 65484 ∧ b.data.length < 52 + word b.data 50)

/-- The name of an AR block is cut by a length that may wrap around. -/
theorem parseARBlockReq_eq {data : Bytes} (h : 52 ≤ data.length) : ∃ (nameLen : UInt16)
    (ar : Bytes → ARBlockReq), nameLen.toNat = word data 50 ∧ parseARBlockReq data =
      if data.length < (52 + nameLen).toNat then .err (.stationName nameLen)
      else (slice data 52 (52 + nameLen).toNat).bind fun name => .ok (ar name) := by
  obtain ⟨nameLen, hname, hword⟩ := uint16_word 50 52 rfl h
  refine ⟨nameLen, ?ar, hword, ?eq⟩
  case' eq =>
    rw [parseARBlockReq, if_neg (by omega), uint16_ok rfl (by omega), ok_bind,
      uint16_ok rfl (by omega), ok_bind, slice_ok (by omega) (by omega), ok_bind,
    slice_ok (by omega) (by omega), ok_bind, slice_ok (by omega) (by omega), ok_bind,
    uint32_ok rfl (by omega), ok_bind, uint16_ok rfl (by omega), ok_bind,
    uint16_ok rfl (by omega), ok_bind, hname, ok_bind]
    rfl

theorem toNat_nameEnd (nameLen : UInt16) :
    (52 + nameLen).toNat = (52 + nameLen.toNat) % 65536 := UInt16.toNat_add 52 nameLen

theorem parseARBlockReq_short {data : Bytes} (h : data.length < 52) :
    parseARBlockReq data = .err (.arTooShort data.length) := if_pos h

/-- A length that wraps around cuts the name before its start. -/
theorem parseARBlockReq_panics {data : Bytes} (h : 52 ≤ data.length)
    (hwraps : 65484 ≤ word data 50) : ∃ p, parseARBlockReq data = .panic p := by
  obtain ⟨nameLen, ar, hword, heq⟩ := parseARBlockReq_eq h
  have hlt := nameLen.toNat_lt
  have hend := toNat_nameEnd nameLen
  have hpanic : ¬(52 ≤ (52 + nameLen).toNat ∧ (52 + nameLen).toNat ≤ data.length) := by omega
  rw [heq, if_neg (by omega), slice, if_neg hpanic]
  exact ⟨_, rfl⟩

theorem parseARBlockReq_refuses {data : Bytes} (h : 52 ≤ data.length)
    (hfits : word data 50 < 65484) (hlong : data.length < 52 + word data 50) :
    ∃ e, parseARBlockReq data = .err e := by
  obtain ⟨nameLen, ar, hword, heq⟩ := parseARBlockReq_eq h
  have hend := toNat_nameEnd nameLen
  rw [heq, if_pos (by omega)]
  exact ⟨_, rfl⟩

theorem parseARBlockReq_ok {data : Bytes} (h : 52 ≤ data.length)
    (hfits : word data 50 < 65484) (hname : 52 + word data 50 ≤ data.length) :
    ∃ ar, parseARBlockReq data = .ok ar := by
  obtain ⟨nameLen, ar, hword, heq⟩ := parseARBlockReq_eq h
  have hend := toNat_nameEnd nameLen
  rw [heq, if_neg (by omega), slice_ok (by omega) (by omega)]
  exact ⟨_, rfl⟩

theorem takeBlock_panics {b : PNIOBlock} (h : NameWraps b) (seen : ConnectBlocks) :
    ∃ p, takeBlock seen b = .panic p := by
  obtain ⟨htype, hlong, hwraps⟩ := h
  obtain ⟨p, hp⟩ := parseARBlockReq_panics hlong hwraps
  rw [takeBlock, if_pos htype, hp]
  exact ⟨p, rfl⟩

/-- A block that is refused ends the connect. -/
theorem takeBlock_refuses {b : PNIOBlock} (h : Refused b) (seen : ConnectBlocks) :
    ∃ e, takeBlock seen b = .err e := by
  obtain ⟨htype, hdata⟩ := h
  have herr : ∃ e, parseARBlockReq b.data = .err e := by
    by_cases hshort : b.data.length < 52
    · exact ⟨_, parseARBlockReq_short hshort⟩
    · obtain hshort' | ⟨hfits, hlong⟩ := hdata
      · exact absurd hshort' hshort
      · exact parseARBlockReq_refuses (by omega) hfits hlong
  obtain ⟨e, he⟩ := herr
  rw [takeBlock, if_pos htype, he]
  exact ⟨connectError, rfl⟩

/-- The other blocks are taken, whether they are parsed or skipped. -/
theorem takeBlock_ok {b : PNIOBlock} (hrefused : ¬Refused b) (hwraps : ¬NameWraps b)
    (seen : ConnectBlocks) : ∃ seen', takeBlock seen b = .ok seen' := by
  rw [takeBlock]
  split
  next htype =>
    simp only [Refused, NameWraps, htype, true_and, not_or, not_and, not_lt] at hrefused hwraps
    have hlong := hrefused.1
    have hfits : word b.data 50 < 65484 := by
      have := hwraps hlong
      omega
    obtain ⟨ar, har⟩ := parseARBlockReq_ok hlong hfits (hrefused.2 hfits)
    rw [har]
    exact ⟨_, rfl⟩
  split
  · obtain ⟨r, hr⟩ : ∃ r, ((parseIOCRBlockReq b.data).attempt : Outcome PNIOStatus _) = .ok r :=
      (parseIOCRBlockReq_safe b.data).exists_attempt
    rw [hr]
    cases r <;> exact ⟨_, rfl⟩
  split
  · obtain ⟨r, hr⟩ : ∃ r, ((parseAlarmCRBlockReq b.data).attempt : Outcome PNIOStatus _) = .ok r :=
      (parseAlarmCRBlockReq_safe b.data).exists_attempt
    rw [hr]
    cases r <;> exact ⟨_, rfl⟩
  split
  · obtain ⟨r, hr⟩ : ∃ r,
        ((parseExpectedSubmoduleReq b.data).attempt : Outcome PNIOStatus _) = .ok r :=
      (parseExpectedSubmoduleReq_safe b.data).exists_attempt
    rw [hr]
    cases r <;> exact ⟨_, rfl⟩
  · exact ⟨seen, rfl⟩

/-! ## The datagram -/

/-- What the header of a datagram says. -/
structure HeaderOf (data : Bytes) (h : RPCHeader) : Prop where
  version : data[0]? = some h.rpcVersion
  type : data[1]? = some h.packetType
  order : isLittleEndian h.dataRep = decide (data[4]? = some 0x10)
  interface : (data.drop 24).take 16 = uuidToWire h.interfaceUUID (isLittleEndian h.dataRep)
  opNum : h.opNum.toNat = uint (ordered (isLittleEndian h.dataRep) ((data.drop 68).take 2))

theorem parseRPCHeader_ok {data : Bytes} (h : 80 ≤ data.length) :
    ∃ header, parseRPCHeader data = .ok header ∧ HeaderOf data header := by
  have hrep : ((data.drop 4).take 3).length = 3 := length_window (by omega)
  have hrep' : FixedBytes.copy 3 ((data.drop 4).take 3) = ⟨_, hrep⟩ := FixedBytes.copy_val ⟨_, hrep⟩
  let le := isLittleEndian ⟨_, hrep⟩
  obtain ⟨object, hobject, -⟩ := uuidFromWire_ok ((data.drop 8).take 16)
    (length_window (by omega)) le
  obtain ⟨interface, hinterface, hwire⟩ := uuidFromWire_ok ((data.drop 24).take 16)
    (length_window (by omega)) le
  obtain ⟨activity, hactivity, -⟩ := uuidFromWire_ok ((data.drop 40).take 16)
    (length_window (by omega)) le
  refine ⟨?header, ?eq, ?_⟩
  case' eq =>
    rw [parseRPCHeader, if_neg (by rw [rpcHeaderSize]; omega),
      slice_window (rfl : 4 + 3 = 7) (by omega), ok_bind, hrep']
    dsimp only
    rw [index_ok (by omega), ok_bind, index_ok (by omega), ok_bind, index_ok (by omega), ok_bind,
      index_ok (by omega), ok_bind, index_ok (by omega), ok_bind,
      slice_window (rfl : 8 + 16 = 24) (by omega), ok_bind, hobject, ok_bind,
      slice_window (rfl : 24 + 16 = 40) (by omega), ok_bind, hinterface, ok_bind,
      slice_window (rfl : 40 + 16 = 56) (by omega), ok_bind, hactivity, ok_bind,
      uint32In_ok rfl (by omega), ok_bind, uint32In_ok rfl (by omega), ok_bind,
      uint32In_ok rfl (by omega), ok_bind, uint16In_ok rfl (by omega), ok_bind,
      uint16In_ok rfl (by omega), ok_bind, uint16In_ok rfl (by omega), ok_bind,
      uint16In_ok rfl (by omega), ok_bind, uint16In_ok rfl (by omega), ok_bind,
      index_ok (by omega), ok_bind, index_ok (by omega), ok_bind]
    rfl
  constructor
  · exact List.getElem?_eq_getElem _
  · exact List.getElem?_eq_getElem _
  · simp [isLittleEndian, List.head?_take, List.head?_drop]
  · exact hwire.symm
  · have hlt := uint_lt (ordered le ((data.drop 68).take 2))
    rw [length_ordered, length_window (by omega)] at hlt
    exact UInt16.toNat_ofNat'.trans (Nat.mod_eq_of_lt hlt)

/-- The announced count of the blocks. -/
def blockCount (le : Bool) (body : Bytes) : Nat := uint (ordered le ((body.drop 16).take 4))

/-- The body frames these blocks. -/
def BodyOf (body : Bytes) (le : Bool) (blocks : List PNIOBlock) : Prop :=
  20 ≤ body.length ∧ BlocksAt ((body.drop 20).take (blockCount le body)) 0 blocks

/-- A body of twenty bytes has the blocks behind them, as many as it says. -/
theorem parsePNIORequestBody_eq {body : Bytes} (h : 20 ≤ body.length) (le : Bool) :
    ∃ argsMax, parsePNIORequestBody body le =
      (parsePNIOBlocks ((body.drop 20).take (blockCount le body)) >>= fun blocks =>
        .ok (argsMax, blocks)) := by
  have hlt : blockCount le body < 2 ^ 32 := by
    have hlt := uint_lt (ordered le ((body.drop 16).take 4))
    rwa [length_ordered, length_window (by omega)] at hlt
  have hcount : (UInt32.ofNat (blockCount le body)).toNat = blockCount le body :=
    UInt32.toNat_ofNat'.trans (Nat.mod_eq_of_lt hlt)
  have hread : (uint32In le body 16 20 : Outcome ParseError _) =
      .ok (UInt32.ofNat (blockCount le body)) := uint32In_ok rfl (by omega)
  refine ⟨UInt32.ofNat (uint (ordered le ((body.drop 0).take 4))), ?_⟩
  rw [parsePNIORequestBody, if_neg (by omega), uint32In_ok rfl (by omega), ok_bind, hread, ok_bind,
    sliceFrom, if_pos (by omega), ok_bind, hcount]
  dsimp only [Int.toNat]
  split
  next hshort =>
    rw [slice_ok (Nat.zero_le _) hshort.le, ok_bind]
    rfl
  next hlong =>
    have hall : (body.drop 20).take (blockCount le body) = body.drop 20 :=
      List.take_of_length_le (by omega)
    rw [pure_eq, ok_bind, hall]
    rfl

/-- The body is refused and frames no blocks, or the blocks it frames are returned. -/
theorem parsePNIORequestBody_cases (body : Bytes) (le : Bool) :
    (∃ e, parsePNIORequestBody body le = .err e ∧ ∀ blocks, ¬BodyOf body le blocks) ∨
      ∃ argsMax blocks, parsePNIORequestBody body le = .ok (argsMax, blocks) ∧
        ∀ blocks', BodyOf body le blocks' ↔ blocks' = blocks := by
  by_cases hlength : 20 ≤ body.length
  · obtain ⟨argsMax, heq⟩ := parsePNIORequestBody_eq hlength le
    have hsafe := parsePNIOBlocks_safe ((body.drop 20).take (blockCount le body))
    cases hparse : parsePNIOBlocks ((body.drop 20).take (blockCount le body)) with
    | ok blocks =>
      refine .inr ⟨argsMax, blocks, by rw [heq, hparse, ok_bind], ?_⟩
      intro blocks'
      rw [BodyOf, ← parsePNIOBlocks_ok_iff, hparse, Outcome.ok.injEq]
      exact ⟨fun h => h.2.symm, fun h => ⟨hlength, h.symm⟩⟩
    | err e =>
      refine .inl ⟨e, by rw [heq, hparse, err_bind], ?_⟩
      intro blocks hblocks
      rw [BodyOf, ← parsePNIOBlocks_ok_iff, hparse] at hblocks
      cases hblocks.2
    | panic p =>
      rw [hparse] at hsafe
      exact hsafe.elim
  · exact .inl ⟨_, if_pos (by omega), fun blocks h => hlength h.1⟩

/-- The datagram is a Connect request with these blocks, all of which lie within it. -/
structure IsConnect (data : Bytes) (le : Bool) (blocks : List PNIOBlock) : Prop where
  length : 100 ≤ data.length
  version : data[0]? = some rpcVersionCL
  type : data[1]? = some rpcPTypeRequest
  order : le = decide (data[4]? = some 0x10)
  interface : (data.drop 24).take 16 = uuidToWire uuidPNIOInterface le
  opNum : (data.drop 68).take 2 = [0, 0]
  blocks : BlocksAt ((data.drop 100).take (uint (ordered le ((data.drop 96).take 4)))) 0 blocks

/-- One of the blocks, with no refused AR block before it, is an AR block whose name
length makes the end of the name wrap around. -/
def MeetsWrap (blocks : List PNIOBlock) : Prop :=
  ∃ pre b post, blocks = pre ++ b :: post ∧ (∀ a ∈ pre, ¬Refused a) ∧ NameWraps b

/-- A connect is safe exactly if it meets no length that wraps around. -/
theorem handleConnect_safe_iff (m : ARManager) (blocks : List PNIOBlock) (addr : UDPAddr)
    (activityUUID : UUID) :
    (handleConnect m blocks addr activityUUID).Safe ↔ ¬MeetsWrap blocks := by
  have hloop := safe_foldlM_iff_of_stops (f := takeBlock) (S := Refused) (P := NameWraps)
    (fun _ => takeBlock_ok) (fun _ => takeBlock_refuses) (fun _ => takeBlock_panics) blocks {}
  have hmeets : ¬MeetsWrap blocks ↔ ∀ pre b post, blocks = pre ++ b :: post →
      (∀ a ∈ pre, ¬Refused a) → ¬NameWraps b := by
    simp only [MeetsWrap, not_exists, not_and]
  rw [hmeets, ← hloop, handleConnect]
  apply safe_attempt_bind_iff
  intro r
  cases r with
  | error status => trivial
  | ok seen =>
    dsimp only
    split <;> trivial

theorem handlePNIORequest_safe_iff (s : RPCServer) (header : RPCHeader) (body : Bytes)
    (addr : UDPAddr) : (handlePNIORequest s header body addr).Safe ↔
      ¬(header.opNum = rpcOpConnect ∧ ∃ blocks,
        BodyOf body (isLittleEndian header.dataRep) blocks ∧ MeetsWrap blocks) := by
  have hcases := parsePNIORequestBody_cases body (isLittleEndian header.dataRep)
  rw [handlePNIORequest]
  split
  next hop =>
    obtain ⟨e, herr, hnone⟩ | ⟨argsMax, blocks, hok, hblocks⟩ := hcases
    · rw [herr]
      exact iff_of_true trivial fun ⟨_, blocks, hbody, _⟩ => hnone blocks hbody
    · rw [hok, attempt_ok, ok_bind]
      simp only [hop, hblocks, true_and, exists_eq_left]
      rw [← handleConnect_safe_iff s.arMgr blocks addr header.activityUUID]
      cases handleConnect s.arMgr blocks addr header.activityUUID with
      | ok r => exact iff_of_true trivial trivial
      | err e => exact e.elim
      | panic p => exact Iff.rfl
  next hop =>
    refine iff_of_true ?_ fun h => hop h.1
    split
    · obtain ⟨e, herr, -⟩ | ⟨argsMax, blocks, hok, -⟩ := hcases
      · rw [herr]
        trivial
      · rw [hok]
        trivial
    · trivial

/-- A connect has two zero bytes for its operation. -/
theorem opNum_eq_connect_iff {data : Bytes} {header : RPCHeader} (hlength : 80 ≤ data.length)
    (h : HeaderOf data header) :
    header.opNum = rpcOpConnect ↔ (data.drop 68).take 2 = [0, 0] := by
  rw [← UInt16.toNat_inj, h.opNum]
  generalize isLittleEndian header.dataRep = le
  have hwindow : ((data.drop 68).take 2).length = 2 := length_window (by omega)
  have hzero : ordered le [0, 0] = [0, 0] := by cases le <;> rfl
  constructor
  · intro hop
    have hordered : ordered le ((data.drop 68).take 2) = [0, 0] :=
      uint_injective (by simpa using hwindow) hop
    rw [← ordered_ordered le ((data.drop 68).take 2), hordered, hzero]
  · intro hop
    rw [hop, hzero]
    rfl

/-- A packet is a connect exactly if its header says so and its body has the blocks. -/
theorem isConnect_iff {data : Bytes} {header : RPCHeader} (hlength : 80 ≤ data.length)
    (h : HeaderOf data header) {le : Bool} {blocks : List PNIOBlock} :
    IsConnect data le blocks ↔ header.rpcVersion = rpcVersionCL ∧
      header.packetType = rpcPTypeRequest ∧ header.interfaceUUID = uuidPNIOInterface ∧
      header.opNum = rpcOpConnect ∧ le = isLittleEndian header.dataRep ∧
      BodyOf (data.drop 80) le blocks := by
  have hbody : BodyOf (data.drop 80) le blocks ↔ 100 ≤ data.length ∧
      BlocksAt ((data.drop 100).take (uint (ordered le ((data.drop 96).take 4)))) 0 blocks := by
    rw [BodyOf, blockCount, List.drop_drop, List.drop_drop, List.length_drop]
    exact and_congr_left fun _ => by omega
  rw [hbody, opNum_eq_connect_iff hlength h]
  constructor
  · intro hc
    have hle : le = isLittleEndian header.dataRep := hc.order.trans h.order.symm
    have hinterface := h.interface.symm.trans hc.interface
    rw [← hle] at hinterface
    exact ⟨Option.some_inj.mp (h.version.symm.trans hc.version),
      Option.some_inj.mp (h.type.symm.trans hc.type), uuidToWire_injective hinterface, hc.opNum,
      hle, hc.length, hc.blocks⟩
  · rintro ⟨hversion, htype, hinterface, hop, hle, hlong, hblocks⟩
    refine {
      length := hlong
      version := h.version.trans (congrArg some hversion)
      type := h.type.trans (congrArg some htype)
      order := hle.trans h.order
      interface := ?_
      opNum := hop
      blocks := hblocks }
    rw [h.interface, hinterface, hle]

theorem sliceFrom_header {ε : Type} {data : Bytes} (h : 80 ≤ data.length) :
    (sliceFrom data (rpcHeaderSize : Int) : Outcome ε _) = .ok (data.drop 80) :=
  if_pos ⟨by decide, by exact_mod_cast h⟩

/-- A connect whose lengths wrap around makes the device panic. -/
theorem handlePacket_panics (s : RPCServer) (addr : UDPAddr) {data : Bytes} {le : Bool}
    {blocks : List PNIOBlock} (h : IsConnect data le blocks) (hmeets : MeetsWrap blocks) :
    ¬(handlePacket s data addr).Safe := by
  have hlength : 80 ≤ data.length := by
    have := h.length
    omega
  obtain ⟨header, hok, hheader⟩ := parseRPCHeader_ok hlength
  obtain ⟨hversion, htype, hinterface, hop, rfl, hbody⟩ := (isConnect_iff hlength hheader).mp h
  rw [handlePacket, hok, attempt_ok, ok_bind]
  dsimp only
  rw [if_neg (not_not.mpr hversion), if_neg (not_not.mpr htype), sliceFrom_header hlength, ok_bind,
    if_pos hinterface, handlePNIORequest_safe_iff]
  exact not_not.mpr ⟨hop, blocks, hbody, hmeets⟩

theorem handlePacket_safe (s : RPCServer) (addr : UDPAddr) {data : Bytes}
    (h : ∀ le blocks, IsConnect data le blocks → ¬MeetsWrap blocks) :
    (handlePacket s data addr).Safe := by
  by_cases hlength : 80 ≤ data.length
  · obtain ⟨header, hok, hheader⟩ := parseRPCHeader_ok hlength
    rw [handlePacket, hok, attempt_ok, ok_bind]
    dsimp only
    split
    · trivial
    split
    · trivial
    rw [sliceFrom_header hlength, ok_bind]
    split
    next hversion htype hinterface =>
      rw [handlePNIORequest_safe_iff]
      rintro ⟨hop, blocks, hbody, hmeets⟩
      have hconnect := (isConnect_iff hlength hheader).mpr
        ⟨not_not.mp hversion, not_not.mp htype, hinterface, hop, rfl, hbody⟩
      exact h _ blocks hconnect hmeets
    · split <;> trivial
  · have hshort : parseRPCHeader data = .err (.headerTooShort data.length) :=
      if_pos (by rw [rpcHeaderSize]; omega)
    rw [handlePacket, hshort]
    trivial

/-- The server panics on a datagram exactly when it is a Connect request that meets an AR
block whose name length wraps around. -/
theorem handlePacket_safe_iff (s : RPCServer) (data : Bytes) (addr : UDPAddr) :
    (handlePacket s data addr).Safe ↔
      ¬∃ le blocks, IsConnect data le blocks ∧ MeetsWrap blocks := by
  constructor
  · rintro hsafe ⟨le, blocks, hconnect, hmeets⟩
    exact handlePacket_panics s addr hconnect hmeets hsafe
  · intro h
    exact handlePacket_safe s addr fun le blocks hconnect hmeets => h ⟨le, blocks, hconnect, hmeets⟩

/-- A Connect request with a single AR block of 52 bytes, whose name length is 65535. -/
def wrappingRequest : Bytes :=
  [4, 0, 0, 0, 0, 0, 0, 0] ++ List.replicate 16 0 ++ uuidPNIOInterface.val ++
    List.replicate 56 0 ++ [0, 0, 0, 58] ++ [0x01, 0x01, 0, 54, 1, 0] ++
    List.replicate 50 0 ++ [0xFF, 0xFF]

theorem handlePacket_panics_on_name_length :
    ¬∀ (s : RPCServer) (data : Bytes) (addr : UDPAddr), (handlePacket s data addr).Safe := by
  intro h
  let block : PNIOBlock := ⟨0x0101, 54, 1, 0, List.replicate 50 0 ++ [0xFF, 0xFF]⟩
  have hcount : uint (ordered false ((wrappingRequest.drop 96).take 4)) = 58 := by decide
  have hblocks : BlocksAt ((wrappingRequest.drop 100).take 58) 0 [block] :=
    .block (by decide) (by decide) (by decide) (by decide) (by decide) (by decide) (by decide)
      (.done (by decide))
  have hconnect : IsConnect wrappingRequest false [block] := {
    length := by decide +kernel
    version := by decide
    type := by decide
    order := by decide
    interface := by decide
    opNum := by decide
    blocks := by
      rw [hcount]
      exact hblocks }
  have hmeets : MeetsWrap [block] :=
    ⟨[], block, [], rfl, by simp, rfl, by decide, by decide +kernel⟩
  -- The request is made a variable, so that nothing below runs the server on it.
  generalize wrappingRequest = data at hconnect
  exact handlePacket_panics ⟨{ localMAC := [] }, 0⟩ ⟨[], 0⟩ hconnect hmeets (h _ data _)

end ProfinetAr
