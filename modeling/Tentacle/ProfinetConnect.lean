import Tentacle.ProfinetSafety

/-!
# The Connect handshake

The controller builds the five blocks of a Connect request, sends them in one datagram
and reads the session key and the input frame ID from the response. The device parses
the blocks, stores the application relationship and answers. Both directions are run
here through the code of both sides.
-/

namespace ProfinetConnect

open GoValues GoSlices BigEndian Outcome
open ProfinetBlocks ProfinetRpc ProfinetAr ProfinetExpected

/-! ## The request of the controller -/

structure ConnectParams where
  arUUID : UUID
  localMAC : HardwareAddr
  stationName : Bytes
  inputDataLen : UInt16
  outputDataLen : UInt16
  outputFrameID : UInt16
  cycleTimeMs : Int
  slots : List SlotSubscription
  deriving DecidableEq, Repr

/-- The cycle time of a subscription, by `handleSubscribe`. -/
def subscribedCycleTime (requested : Int) : Int := if requested ≤ 0 then 1 else requested

def pnioCMPort : UInt16 := 34964

def arTypeIOCAR : UInt16 := 0x0001

def buildARBlockData (params : ConnectParams) : Bytes :=
  putUint 2 arTypeIOCAR.toNat ++ params.arUUID.val ++ putUint 2 (0x0001 : UInt16).toNat ++
    params.localMAC.val ++ List.replicate 16 0 ++ putUint 4 (0x00000011 : UInt32).toNat ++
    putUint 2 (100 : UInt16).toNat ++ putUint 2 pnioCMPort.toNat ++
    putUint 2 (UInt16.ofNat params.stationName.length).toNat ++ params.stationName

def iocrPropertyRTClass1 : UInt32 := 0x00000001

/-- The base clock of 1 ms is reduced by the cycle time. -/
def reductionRatio (cycleTimeMs : Int) : UInt16 :=
  if 1 < cycleTimeMs then .ofNat (cycleTimeMs % 65536).toNat else 1

def buildIOCRData (iocrType iocrRef dataLen frameID : UInt16) (cycleTimeMs : Int) : Bytes :=
  putUint 2 iocrType.toNat ++ putUint 2 iocrRef.toNat ++ putUint 2 (0x8892 : UInt16).toNat ++
    putUint 4 iocrPropertyRTClass1.toNat ++ putUint 2 dataLen.toNat ++ putUint 2 frameID.toNat ++
    putUint 2 (32 : UInt16).toNat ++ putUint 2 (reductionRatio cycleTimeMs).toNat ++
    putUint 2 (1 : UInt16).toNat ++ putUint 2 (0 : UInt16).toNat ++
    putUint 4 (0xFFFFFFFF : UInt32).toNat ++ putUint 2 (10 : UInt16).toNat ++
    putUint 2 (3 : UInt16).toNat ++ putUint 2 (0 : UInt16).toNat ++ List.replicate 6 0 ++
    putUint 2 (0 : UInt16).toNat

def buildAlarmCRData : Bytes :=
  putUint 2 (0x0001 : UInt16).toNat ++ putUint 2 (0x8892 : UInt16).toNat ++
    putUint 4 (0 : UInt32).toNat ++ putUint 2 (10 : UInt16).toNat ++
    putUint 2 (3 : UInt16).toNat ++ putUint 2 (0x0001 : UInt16).toNat ++
    putUint 2 (200 : UInt16).toNat ++ putUint 2 (0 : UInt16).toNat

def appendBlock (blocks : Bytes) (type : UInt16) (payload : Bytes) : Bytes :=
  padTo4 (blocks ++ marshalPNIOBlock type 1 0 payload)

def connectBlocks (params : ConnectParams) : Bytes :=
  let blocks := appendBlock [] blockTypeARBlockReq (buildARBlockData params)
  let blocks := appendBlock blocks blockTypeIOCRBlockReq
    (buildIOCRData iocrTypeInput 0x0001 params.inputDataLen 0x0000 params.cycleTimeMs)
  let blocks := appendBlock blocks blockTypeIOCRBlockReq
    (buildIOCRData iocrTypeOutput 0x0002 params.outputDataLen params.outputFrameID
      params.cycleTimeMs)
  let blocks := appendBlock blocks blockTypeAlarmCRBlockReq buildAlarmCRData
  appendBlock blocks blockTypeExpectedSubmoduleReq (buildExpectedSubmoduleData params.slots)

def newActivityUUID (seq : UInt32) : UUID :=
  ⟨[0xAC, 0x01] ++ List.replicate 10 0 ++ putUint 4 seq.toNat, by simp⟩

/-- The sockets of the host. The write of a larger datagram fails. -/
class DatagramSocket where
  maxDatagram : Nat
  maxDatagram_lt : maxDatagram < 65536

/-- Over IPv4. -/
@[reducible] def udp : DatagramSocket := ⟨65507, by decide⟩

def rpcHeader (seqNum : UInt32) (opNum : UInt16) (arUUID : UUID) (bodyLen : Nat) : RPCHeader where
  rpcVersion := rpcVersionCL
  packetType := rpcPTypeRequest
  flags1 := rpcFlagLastFrag ||| rpcFlagIdempotent
  dataRep := ⟨[0x10, 0x00, 0x00], rfl⟩
  objectUUID := arUUID
  interfaceUUID := uuidPNIOInterface
  activityUUID := newActivityUUID seqNum
  interfaceVersion := 1
  sequenceNum := seqNum
  opNum := opNum
  interfaceHint := 0xFFFF
  activityHint := 0xFFFF
  fragmentLen := .ofNat bodyLen

/-- The packet that `sendRPC` writes, if it can be written. -/
def sendRPC [DatagramSocket] (seqNum : UInt32) (opNum : UInt16) (arUUID : UUID)
    (pnioBlocks : Bytes) : Option Bytes :=
  let body := frameBlocks (ordered true (putUint 4 65536)) true pnioBlocks
  let pkt := (rpcHeader seqNum opNum arUUID body.length).marshal ++ body
  if pkt.length ≤ DatagramSocket.maxDatagram then some pkt else none

/-! ## The response at the controller -/

/-- The errors of a response: of its header, `unexpected packet type: %d`, `response body
too short: %d`, `PNIO error: …`, and of its blocks. -/
inductive ResponseError where
  | header (e : ParseError)
  | packetType (type : UInt8)
  | bodyTooShort (got : Nat)
  | pnio (status : PNIOStatus)
  | blocks (e : ParseError)
  deriving DecidableEq, Repr

/-- The part of `sendRPC` behind the read. -/
def receiveRPC (buf : Bytes) : Outcome ResponseError Bytes := do
  match ← (parseRPCHeader buf).attempt with
  | .error e => .err (.header e)
  | .ok respHeader =>
    if respHeader.packetType ≠ rpcPTypeResponse then .err (.packetType respHeader.packetType)
    else
      let respBody ← sliceFrom buf rpcHeaderSize
      if respBody.length < 20 then .err (.bodyTooShort respBody.length)
      else
        let status : PNIOStatus :=
          ⟨← index respBody 0, ← index respBody 1, ← index respBody 2, ← index respBody 3⟩
        if status ≠ pnioStatusOK then .err (.pnio status)
        else
          let respArgsLen ← uint32In true respBody 4 8
          let blockData ← sliceFrom respBody 20
          if respArgsLen.toNat < blockData.length then slice blockData 0 respArgsLen.toNat
          else pure blockData

structure ConnectResult where
  inputFrameID : UInt16 := 0
  sessionKey : UInt16 := 0
  deriving DecidableEq, Repr

/-- One round of the loop over the response blocks. -/
def takeResult (result : ConnectResult) (b : PNIOBlock) : Outcome ResponseError ConnectResult :=
  if b.type = blockTypeIOCRBlockRes then
    if 6 ≤ b.data.length then do
      let iocrType ← uint16 b.data 0 2
      let frameID ← uint16 b.data 4 6
      if iocrType = iocrTypeInput then return { result with inputFrameID := frameID }
      else return result
    else .ok result
  else if b.type = blockTypeARBlockRes then
    if 20 ≤ b.data.length then do
      return { result with sessionKey := ← uint16 b.data 18 20 }
    else .ok result
  else .ok result

/-- The part of `Connect` behind the write, from the datagram that is read. -/
def connectResult (buf : Bytes) : Outcome ResponseError ConnectResult := do
  let respBody ← receiveRPC buf
  match ← (parsePNIOBlocks respBody).attempt with
  | .error e => .err (.blocks e)
  | .ok blocks => blocks.foldlM takeResult {}

/-! ## The blocks as the device reads them -/

/-- The AR block as the device reads it. -/
def arBlockOf (params : ConnectParams) : ARBlockReq where
  arType := arTypeIOCAR
  arUUID := params.arUUID
  sessionKey := 0x0001
  cmInitiatorMAC := params.localMAC
  cmInitiatorObjUUID := .copy 16 []
  arProperties := 0x00000011
  cmInitiatorActivityTimeout := 100
  cmInitiatorUDPRTPort := pnioCMPort
  cmInitiatorStationName := params.stationName

theorem length_buildARBlockData (params : ConnectParams) :
    (buildARBlockData params).length = 52 + params.stationName.length := by
  simp [buildARBlockData, params.arUUID.property, params.localMAC.property]
  omega

theorem parseARBlockReq_build (params : ConnectParams) (hname : params.stationName.length < 65484) :
    parseARBlockReq (buildARBlockData params) = .ok (arBlockOf params) := by
  have hnameLen : (52 + UInt16.ofNat params.stationName.length).toNat =
      52 + params.stationName.length := by
    rw [toNat_nameEnd, UInt16.toNat_ofNat']
    omega
  obtain ⟨data, hdata⟩ : ∃ data, data = buildARBlockData params := ⟨_, rfl⟩
  have hlength : data.length = 52 + params.stationName.length := by
    rw [hdata, length_buildARBlockData]
  have huuid := params.arUUID.property
  have hmac := params.localMAC.property
  have h0 := At.start hdata
  rw [buildARBlockData] at h0
  simp only [List.append_assoc] at h0
  have h2 := h0.next (length_putUint 2 _)
  have h18 := h2.next huuid
  have h20 := h18.next (length_putUint 2 _)
  have h26 := h20.next hmac
  have h42 := h26.next List.length_replicate
  have h46 := h42.next (length_putUint 4 _)
  have h48 := h46.next (length_putUint 2 _)
  have h50 := h48.next (length_putUint 2 _)
  have h52 := h50.next (length_putUint 2 _)
  rw [← List.append_nil params.stationName] at h52
  rw [← hdata, parseARBlockReq, if_neg (by omega), h0.uint16 rfl, ok_bind, h18.uint16 rfl, ok_bind,
    h2.slice (by rw [huuid]), ok_bind, h20.slice (by rw [hmac]), ok_bind, h26.slice (by simp),
    ok_bind, h42.uint32 rfl, ok_bind, h46.uint16 rfl, ok_bind, h48.uint16 rfl, ok_bind,
    h50.uint16 rfl, ok_bind, hnameLen, if_neg (by omega), h52.slice (by simp), ok_bind,
    FixedBytes.copy_val, FixedBytes.copy_val]
  rfl

def iocrOf (iocrType iocrRef dataLen frameID : UInt16) (cycleTimeMs : Int) : IOCRBlockReq where
  iocrType := iocrType
  iocrReference := iocrRef
  lt := 0x8892
  iocrProperties := iocrPropertyRTClass1
  dataLength := dataLen
  frameID := frameID
  sendClockFactor := 32
  reductionRatio := reductionRatio cycleTimeMs
  phase := 1
  sequence := 0
  frameSendOffset := 0xFFFFFFFF
  watchdogFactor := 10
  dataHoldFactor := 3
  iocrTagHeader := 0
  iocrMulticastMAC := .copy 6 []

theorem parseIOCRBlockReq_build (iocrType iocrRef dataLen frameID : UInt16) (cycleTimeMs : Int) :
    parseIOCRBlockReq (buildIOCRData iocrType iocrRef dataLen frameID cycleTimeMs) =
      .ok (iocrOf iocrType iocrRef dataLen frameID cycleTimeMs) := by
  obtain ⟨data, hdata⟩ : ∃ data, data = buildIOCRData iocrType iocrRef dataLen frameID
    cycleTimeMs := ⟨_, rfl⟩
  have hlength : data.length = 40 := by
    rw [hdata, buildIOCRData]
    simp only [List.length_append, length_putUint, List.length_replicate]
  have h0 := At.start hdata
  rw [buildIOCRData] at h0
  simp only [List.append_assoc] at h0
  have h2 := h0.next (length_putUint 2 _)
  have h4 := h2.next (length_putUint 2 _)
  have h6 := h4.next (length_putUint 2 _)
  have h10 := h6.next (length_putUint 4 _)
  have h12 := h10.next (length_putUint 2 _)
  have h14 := h12.next (length_putUint 2 _)
  have h16 := h14.next (length_putUint 2 _)
  have h18 := h16.next (length_putUint 2 _)
  have h20 := h18.next (length_putUint 2 _)
  have h22 := h20.next (length_putUint 2 _)
  have h26 := h22.next (length_putUint 4 _)
  have h28 := h26.next (length_putUint 2 _)
  have h30 := h28.next (length_putUint 2 _)
  have h32 := h30.next (length_putUint 2 _)
  have h38 := h32.next List.length_replicate
  rw [← List.append_nil (putUint 2 (UInt16.toNat 0))] at h38
  rw [← hdata, parseIOCRBlockReq, if_neg (by omega), h0.uint16 rfl, ok_bind, h2.uint16 rfl, ok_bind,
    h4.uint16 rfl, ok_bind, h6.uint32 rfl, ok_bind, h10.uint16 rfl, ok_bind, h12.uint16 rfl,
    ok_bind, h14.uint16 rfl, ok_bind, h16.uint16 rfl, ok_bind, h18.uint16 rfl, ok_bind,
    h20.uint16 rfl, ok_bind, h22.uint32 rfl, ok_bind, h26.uint16 rfl, ok_bind, h28.uint16 rfl,
    ok_bind, h30.uint16 rfl, ok_bind, h32.slice (by simp), ok_bind]
  dsimp only
  rw [if_neg (by omega), h38.uint16 rfl, ok_bind]
  rfl

def alarmOf : AlarmCRBlockReq where
  alarmCRType := 0x0001
  lt := 0x8892
  alarmCRProperties := 0
  rtaTimeoutFactor := 10
  rtaRetries := 3
  localAlarmRef := 0x0001
  maxAlarmDataLen := 200
  alarmCRTagHeaderH := 0

theorem parseAlarmCRBlockReq_build : parseAlarmCRBlockReq buildAlarmCRData = .ok alarmOf := by
  decide

/-! ## The request at the device -/

/-- Blocks end at a multiple of four bytes. -/
theorem length_marshalBlocks_mod (specs : List (UInt16 × Bytes)) :
    (marshalBlocks specs).length % 4 = 0 := by
  induction specs with
  | nil => rfl
  | cons spec specs ih =>
    have hmod := align4_mod (marshalPNIOBlock spec.1 1 0 spec.2).length
    rw [marshalBlocks, List.flatMap_cons, List.length_append, length_padTo4, ← marshalBlocks]
    omega

theorem appendBlock_marshalBlocks (specs : List (UInt16 × Bytes)) (type : UInt16)
    (payload : Bytes) :
    appendBlock (marshalBlocks specs) type payload =
      marshalBlocks (specs ++ [(type, payload)]) := by
  rw [appendBlock, padTo4_append (length_marshalBlocks_mod specs)]
  simp [marshalBlocks]

/-- The types and payloads of the request. -/
def connectSpecs (params : ConnectParams) : List (UInt16 × Bytes) :=
  [(blockTypeARBlockReq, buildARBlockData params),
   (blockTypeIOCRBlockReq,
    buildIOCRData iocrTypeInput 0x0001 params.inputDataLen 0x0000 params.cycleTimeMs),
   (blockTypeIOCRBlockReq,
    buildIOCRData iocrTypeOutput 0x0002 params.outputDataLen params.outputFrameID
      params.cycleTimeMs),
   (blockTypeAlarmCRBlockReq, buildAlarmCRData),
   (blockTypeExpectedSubmoduleReq, buildExpectedSubmoduleData params.slots)]

theorem connectBlocks_eq (params : ConnectParams) :
    connectBlocks params = marshalBlocks (connectSpecs params) := by
  rw [connectBlocks, show ([] : Bytes) = marshalBlocks [] from rfl]
  simp only [appendBlock_marshalBlocks]
  rfl

theorem length_le_marshalBlocks {specs : List (UInt16 × Bytes)} {spec : UInt16 × Bytes}
    (h : spec ∈ specs) : spec.2.length + 6 ≤ (marshalBlocks specs).length := by
  have hle := length_le_flatMap (fun s => padTo4 (marshalPNIOBlock s.1 1 0 s.2)) h
  have halign := le_align4 (6 + spec.2.length)
  rw [length_padTo4, length_marshalPNIOBlock, ← marshalBlocks] at hle
  omega

/-- What the loop of `HandleConnect` has found after the request. -/
def connectSeen (params : ConnectParams) (expected : Option ExpectedSubmoduleReq) :
    ConnectBlocks where
  ar := some (arBlockOf params)
  iocrs := [iocrOf iocrTypeInput 0x0001 params.inputDataLen 0x0000 params.cycleTimeMs,
    iocrOf iocrTypeOutput 0x0002 params.outputDataLen params.outputFrameID params.cycleTimeMs]
  alarm := some alarmOf
  expected := expected

section

variable {data : Bytes} (seen : ConnectBlocks)

theorem takeBlock_ar {parsed : ARBlockReq} (h : parseARBlockReq data = .ok parsed) :
    takeBlock seen (blockOf blockTypeARBlockReq 1 0 data) =
      .ok { seen with ar := some parsed } := by
  rw [takeBlock, blockOf, if_pos rfl, h]
  rfl

theorem takeBlock_iocr {parsed : IOCRBlockReq} (h : parseIOCRBlockReq data = .ok parsed) :
    takeBlock seen (blockOf blockTypeIOCRBlockReq 1 0 data) =
      .ok { seen with iocrs := seen.iocrs ++ [parsed] } := by
  have har : blockTypeIOCRBlockReq ≠ blockTypeARBlockReq := by decide
  rw [takeBlock, blockOf, if_neg har, if_pos rfl, h]
  rfl

theorem takeBlock_alarm {parsed : AlarmCRBlockReq} (h : parseAlarmCRBlockReq data = .ok parsed) :
    takeBlock seen (blockOf blockTypeAlarmCRBlockReq 1 0 data) =
      .ok { seen with alarm := some parsed } := by
  have har : blockTypeAlarmCRBlockReq ≠ blockTypeARBlockReq := by decide
  have hiocr : blockTypeAlarmCRBlockReq ≠ blockTypeIOCRBlockReq := by decide
  rw [takeBlock, blockOf, if_neg har, if_neg hiocr, if_pos rfl, h]
  rfl

/-- The block of the expected submodules, whatever it says, changes nothing else. -/
theorem takeBlock_expected (data : Bytes) :
    ∃ expected, takeBlock seen (blockOf blockTypeExpectedSubmoduleReq 1 0 data) =
      .ok { seen with expected := expected } := by
  have har : blockTypeExpectedSubmoduleReq ≠ blockTypeARBlockReq := by decide
  have hiocr : blockTypeExpectedSubmoduleReq ≠ blockTypeIOCRBlockReq := by decide
  have halarm : blockTypeExpectedSubmoduleReq ≠ blockTypeAlarmCRBlockReq := by decide
  obtain ⟨r, hr⟩ : ∃ r,
      ((parseExpectedSubmoduleReq data).attempt : Outcome PNIOStatus _) = .ok r :=
    (parseExpectedSubmoduleReq_safe data).exists_attempt
  rw [takeBlock, blockOf, if_neg har, if_neg hiocr, if_neg halarm, if_pos rfl, hr]
  cases r with
  | error e => exact ⟨seen.expected, rfl⟩
  | ok parsed => exact ⟨some parsed, rfl⟩

end

/-- The device takes the blocks of the request one by one. -/
theorem foldlM_takeBlock (params : ConnectParams) (hname : params.stationName.length < 65484) :
    ∃ expected, ((connectSpecs params).map fun spec => blockOf spec.1 1 0 spec.2).foldlM
      takeBlock {} = .ok (connectSeen params expected) := by
  obtain ⟨expected, hexpected⟩ := takeBlock_expected (connectSeen params none)
    (buildExpectedSubmoduleData params.slots)
  refine ⟨expected, ?_⟩
  simp only [connectSpecs, List.map_cons, List.map_nil, List.foldlM_cons, List.foldlM_nil]
  rw [takeBlock_ar _ (parseARBlockReq_build params hname), ok_bind,
    takeBlock_iocr _ (parseIOCRBlockReq_build _ _ _ _ _), ok_bind,
    takeBlock_iocr _ (parseIOCRBlockReq_build _ _ _ _ _), ok_bind,
    takeBlock_alarm _ parseAlarmCRBlockReq_build, ok_bind]
  exact (bind_pure _).trans hexpected

/-- The relationship that the device stores, with the frame ID that it assigns. -/
def connectedAR (params : ConnectParams) (frameID : UInt16) (addr : UDPAddr) (activityUUID : UUID)
    (expected : Option ExpectedSubmoduleReq) : AR where
  arUUID := params.arUUID
  arType := arTypeIOCAR
  sessionKey := 0x0001
  initiatorMAC := params.localMAC
  initiatorAddr := addr
  activityUUID := activityUUID
  state := .connected
  inputIOCR := some (iocrInfo
    (iocrOf iocrTypeInput 0x0001 params.inputDataLen 0x0000 params.cycleTimeMs) frameID)
  outputIOCR := some (iocrInfo
    (iocrOf iocrTypeOutput 0x0002 params.outputDataLen params.outputFrameID params.cycleTimeMs)
    params.outputFrameID)
  alarmCR := some {
    alarmCRType := 0x0001
    localAlarmRef := 0x0001
    remoteAlarmRef := 0x0001
    maxAlarmDataLen := 200 }
  expectedSubmodules := expected

/-- The types and payloads of the response. -/
def responseSpecs (params : ConnectParams) (frameID : UInt16) (deviceMAC : Bytes) :
    List (UInt16 × Bytes) :=
  [(blockTypeARBlockRes, putUint 2 arTypeIOCAR.toNat ++ params.arUUID.val ++
      putUint 2 (0x0001 : UInt16).toNat ++ (FixedBytes.copy 6 deviceMAC).val),
   (blockTypeIOCRBlockRes, putUint 2 iocrTypeInput.toNat ++ putUint 2 (0x0001 : UInt16).toNat ++
      putUint 2 frameID.toNat),
   (blockTypeIOCRBlockRes, putUint 2 iocrTypeOutput.toNat ++ putUint 2 (0x0002 : UInt16).toNat ++
      putUint 2 params.outputFrameID.toNat),
   (blockTypeAlarmCRBlockRes, putUint 2 (0x0001 : UInt16).toNat ++
      putUint 2 (0x0001 : UInt16).toNat ++ putUint 2 (200 : UInt16).toNat),
   (blockTypeModuleDiffBlock, putUint 2 (0 : UInt16).toNat)]

theorem answerIOCR_input (r : Reply) {iocr : IOCRBlockReq} (h : iocr.iocrType = iocrTypeInput) :
    answerIOCR r iocr =
      { manager := (allocFrameID r.manager).2
        ar := { r.ar with inputIOCR := some (iocrInfo iocr r.manager.nextFrameID) }
        respBuf := r.respBuf ++
          marshalIOCRBlockRes iocr.iocrType iocr.iocrReference r.manager.nextFrameID } := if_pos h

theorem answerIOCR_output (r : Reply) {iocr : IOCRBlockReq} (h : iocr.iocrType = iocrTypeOutput) :
    answerIOCR r iocr =
      { r with
        ar := { r.ar with outputIOCR := some (iocrInfo iocr iocr.frameID) }
        respBuf := r.respBuf ++
          marshalIOCRBlockRes iocr.iocrType iocr.iocrReference iocr.frameID } := by
  rw [answerIOCR, if_neg (by rw [h]; decide), if_pos h]

/-- The relationship is stored with what the request says. -/
theorem createAR_connect (m : ARManager) (params : ConnectParams)
    (expected : Option ExpectedSubmoduleReq) (addr : UDPAddr) (activityUUID : UUID) :
    createAR m (connectSeen params expected) (arBlockOf params) addr activityUUID =
      ({ (allocFrameID m).2 with
          ars := m.ars.insert params.arUUID
            (connectedAR params m.nextFrameID addr activityUUID expected) },
        padTo4 ((responseSpecs params m.nextFrameID m.localMAC).flatMap fun spec =>
          marshalPNIOBlock spec.1 1 0 spec.2)) := by
  simp only [createAR, connectSeen, List.foldl_cons, List.foldl_nil, answerAlarm]
  rw [answerIOCR_output _ rfl, answerIOCR_input _ rfl]
  simp only [responseSpecs, List.flatMap_cons, List.flatMap_nil, List.append_nil,
    List.append_assoc, marshalARBlockRes, marshalIOCRBlockRes, marshalAlarmCRBlockRes,
    marshalModuleDiffBlock]
  rfl

theorem responseSpecs_mod (params : ConnectParams) (frameID : UInt16) (deviceMAC : Bytes) :
    ∀ spec ∈ responseSpecs params frameID deviceMAC,
      (6 + spec.2.length) % 4 = 0 ∧ spec.2.length ≤ 26 := by
  have huuid := params.arUUID.property
  have hmac := (FixedBytes.copy 6 deviceMAC).property
  simp [responseSpecs, huuid, hmac]

/-- The blocks of the response need no padding. -/
theorem padTo4_response (params : ConnectParams) (frameID : UInt16) (deviceMAC : Bytes) :
    padTo4 ((responseSpecs params frameID deviceMAC).flatMap fun spec =>
      marshalPNIOBlock spec.1 1 0 spec.2) =
      marshalBlocks (responseSpecs params frameID deviceMAC) := by
  have hmod := responseSpecs_mod params frameID deviceMAC
  have hblocks : (responseSpecs params frameID deviceMAC).flatMap
      (fun spec => marshalPNIOBlock spec.1 1 0 spec.2) =
        marshalBlocks (responseSpecs params frameID deviceMAC) := by
    rw [marshalBlocks]
    apply List.flatMap_congr
    intro spec hspec
    refine (padTo4_of_length ?_).symm
    rw [length_marshalPNIOBlock]
    exact (hmod spec hspec).1
  rw [hblocks, padTo4_of_length (length_marshalBlocks_mod _)]

/-- The device answers the request with the blocks of the response. -/
theorem handleConnect_connect (m : ARManager) (params : ConnectParams)
    (hname : params.stationName.length < 65484) (addr : UDPAddr) (activityUUID : UUID) :
    ∃ m' expected, handleConnect m
        ((connectSpecs params).map fun spec => blockOf spec.1 1 0 spec.2) addr activityUUID =
          .ok (m', marshalBlocks (responseSpecs params m.nextFrameID m.localMAC), pnioStatusOK) ∧
      m'.ars.lookup params.arUUID =
        some (connectedAR params m.nextFrameID addr activityUUID expected) := by
  obtain ⟨expected, hseen⟩ := foldlM_takeBlock params hname
  have hcreate := createAR_connect m params expected addr activityUUID
  rw [padTo4_response] at hcreate
  refine ⟨{ (allocFrameID m).2 with
    ars := m.ars.insert params.arUUID
      (connectedAR params m.nextFrameID addr activityUUID expected) }, expected, ?_,
    AList.lookup_insert m.ars⟩
  rw [handleConnect, hseen, attempt_ok, ok_bind]
  exact congrArg (fun p => Outcome.ok (p.1, p.2, pnioStatusOK)) hcreate

/-- Behind the header of the body stand the blocks. -/
theorem frameBlocks_at {first : Bytes} (hfirst : first.length = 4) (le : Bool) (blocks : Bytes) :
    At (frameBlocks first le blocks) 4 (ordered le (putUint 4 blocks.length) ++
        (ordered le (putUint 4 blocks.length) ++ (ordered le (putUint 4 0) ++
          (ordered le (putUint 4 blocks.length) ++ blocks)))) := by
  have h0 : At (frameBlocks first le blocks) 0 _ := At.start rfl
  rw [frameBlocks] at h0 ⊢
  simp only [List.append_assoc] at h0 ⊢
  exact h0.next hfirst

/-- A framed request body is parsed to its blocks. -/
theorem parsePNIORequestBody_frameBlocks (first : Bytes) (hfirst : first.length = 4) (le : Bool)
    {blocks : Bytes} (hblocks : blocks.length < 2 ^ 32) :
    ∃ argsMax, parsePNIORequestBody (frameBlocks first le blocks) le =
      (parsePNIOBlocks blocks >>= fun parsed => .ok (argsMax, parsed)) := by
  have hat := frameBlocks_at hfirst le blocks
  have hlength := hat.length
  generalize frameBlocks first le blocks = body at hat hlength
  simp only [List.length_append, length_ordered, length_putUint] at hlength
  have h8 := hat.next ((length_ordered _ _).trans (length_putUint 4 _))
  have h12 := h8.next ((length_ordered _ _).trans (length_putUint 4 _))
  have h16 := h12.next ((length_ordered _ _).trans (length_putUint 4 _))
  have h20 := h16.next ((length_ordered _ _).trans (length_putUint 4 _))
  have hcount : blockCount le body = blocks.length := by
    rw [blockCount, h16.drop, List.take_left' (by simp), ordered_ordered,
      uint_putUint_of_lt hblocks]
  obtain ⟨argsMax, heq⟩ := parsePNIORequestBody_eq (by omega : 20 ≤ body.length) le
  rw [hcount, h20.drop, List.take_length] at heq
  exact ⟨argsMax, heq⟩

/-- A request on the PNIO interface reaches its handler. -/
theorem handlePacket_marshal (s : RPCServer) {header : RPCHeader} (body : Bytes) (addr : UDPAddr)
    (hversion : header.rpcVersion = rpcVersionCL) (htype : header.packetType = rpcPTypeRequest)
    (hinterface : header.interfaceUUID = uuidPNIOInterface) :
    handlePacket s (header.marshal ++ body) addr = handlePNIORequest s header body addr := by
  have hlong : 80 ≤ (header.marshal ++ body).length := by
    rw [List.length_append, length_marshal]
    omega
  rw [handlePacket, parseRPCHeader_marshal, attempt_ok, ok_bind]
  dsimp only
  rw [if_neg (not_not.mpr hversion), if_neg (not_not.mpr htype), sliceFrom_header hlong, ok_bind,
    if_pos hinterface, List.drop_left' (length_marshal header)]

/-- The answer is framed with the lengths that it needs. -/
theorem handlePNIORequest_connect {s : RPCServer} {header : RPCHeader} {body : Bytes}
    {addr : UDPAddr} {argsMax : UInt32} {blocks : List PNIOBlock} {m : ARManager}
    {respBlocks : Bytes} {status : PNIOStatus} (hop : header.opNum = rpcOpConnect)
    (hparse : parsePNIORequestBody body (isLittleEndian header.dataRep) = .ok (argsMax, blocks))
    (hconnect : handleConnect s.arMgr blocks addr header.activityUUID =
      .ok (m, respBlocks, status)) :
    handlePNIORequest s header body addr = .ok ({ s with arMgr := m },
      .respond (sendResponse s header status respBlocks (isLittleEndian header.dataRep))) := by
  rw [handlePNIORequest, if_pos hop, hparse, attempt_ok, ok_bind]
  dsimp only
  rw [hconnect]
  rfl

/-- The device takes the request and stores the relationship. -/
theorem handlePacket_connect [DatagramSocket] (s : RPCServer) (params : ConnectParams)
    (hname : params.stationName.length < 65484) (addr : UDPAddr) {seqNum : UInt32} {pkt : Bytes}
    (hsent : sendRPC seqNum rpcOpConnect params.arUUID (connectBlocks params) = some pkt) :
    ∃ s' expected header, handlePacket s pkt addr = .ok (s', .respond (sendResponse s header
        pnioStatusOK (marshalBlocks (responseSpecs params s.arMgr.nextFrameID s.arMgr.localMAC))
        true)) ∧
      s'.arMgr.ars.lookup params.arUUID =
        some (connectedAR params s.arMgr.nextFrameID addr (newActivityUUID seqNum) expected) := by
  rw [sendRPC, Option.ite_none_right_eq_some, Option.some_inj] at hsent
  obtain ⟨hsize, rfl⟩ := hsent
  have hmax := DatagramSocket.maxDatagram_lt
  have hspecs : ∀ spec ∈ connectSpecs params, spec.2.length + 2 < 65536 := by
    intro spec hspec
    have hle := length_le_marshalBlocks hspec
    rw [← connectBlocks_eq] at hle
    simp [frameBlocks] at hsize
    omega
  have hblocks : (connectBlocks params).length < 2 ^ 32 := by
    simp [frameBlocks] at hsize
    omega
  obtain ⟨argsMax, hparse⟩ := parsePNIORequestBody_frameBlocks
    (ordered true (putUint 4 65536)) (by simp) true hblocks
  rw [connectBlocks_eq, parsePNIOBlocks_marshalBlocks _ hspecs, ok_bind, ← connectBlocks_eq]
    at hparse
  generalize frameBlocks (ordered true (putUint 4 65536)) true (connectBlocks params) = body
    at hparse
  obtain ⟨m', expected, hconnect, hlookup⟩ :=
    handleConnect_connect s.arMgr params hname addr (newActivityUUID seqNum)
  refine ⟨{ s with arMgr := m' }, expected,
    rpcHeader seqNum rpcOpConnect params.arUUID body.length, ?_, hlookup⟩
  exact (handlePacket_marshal s body addr rfl rfl rfl).trans
    (handlePNIORequest_connect rfl hparse hconnect)

/-! ## The response at the controller, read back -/

/-- The controller takes the blocks out of an answer with the status OK. -/
theorem receiveRPC_marshal {header : RPCHeader} (htype : header.packetType = rpcPTypeResponse)
    {blocks : Bytes} (hblocks : blocks.length < 2 ^ 32) :
    receiveRPC (header.marshal ++ marshalPNIOResponseBody pnioStatusOK blocks true) =
      .ok blocks := by
  obtain ⟨body, hbody⟩ : ∃ body, body = marshalPNIOResponseBody pnioStatusOK blocks true :=
    ⟨_, rfl⟩
  have h0 := At.start hbody
  have hlength := h0.length
  rw [marshalPNIOResponseBody, frameBlocks, PNIOStatus.marshal] at h0 hlength
  simp only [List.append_assoc, List.cons_append, List.nil_append] at h0
  simp at hlength
  have h1 := h0.tail
  have h2 := h1.tail
  have h3 := h2.tail
  have h4 := h3.tail
  have h8 := h4.next ((length_ordered _ _).trans (length_putUint 4 _))
  have h12 := h8.next ((length_ordered _ _).trans (length_putUint 4 _))
  have h16 := h12.next ((length_ordered _ _).trans (length_putUint 4 _))
  have h20 := h16.next ((length_ordered _ _).trans (length_putUint 4 _))
  have hrest : (sliceFrom body 20 : Outcome ResponseError _) = .ok blocks := h20.sliceFrom
  have hcount : (UInt32.ofNat blocks.length).toNat = blocks.length :=
    UInt32.toNat_ofNat_of_lt' hblocks
  nth_rewrite 1 [← hcount] at h4
  have hlong : 80 ≤ (header.marshal ++ body).length := by
    rw [List.length_append, length_marshal]
    omega
  rw [← hbody, receiveRPC, parseRPCHeader_marshal, attempt_ok, ok_bind]
  dsimp only
  rw [if_neg (not_not.mpr htype), sliceFrom_header hlong, ok_bind,
    List.drop_left' (length_marshal header), if_neg (by omega), h0.index, ok_bind, h1.index,
    ok_bind, h2.index, ok_bind, h3.index, ok_bind]
  rw [if_neg (not_not.mpr rfl), h4.uint32In rfl, ok_bind, hrest, ok_bind, hcount,
    if_neg (lt_irrefl _)]
  rfl

section

variable (result : ConnectResult)

/-- The controller takes the frame ID of an IOCR block. -/
theorem takeResult_iocr (iocrType iocrRef frameID : UInt16) :
    takeResult result (blockOf blockTypeIOCRBlockRes 1 0
      (putUint 2 iocrType.toNat ++ putUint 2 iocrRef.toNat ++ putUint 2 frameID.toNat)) =
      .ok (if iocrType = iocrTypeInput then { result with inputFrameID := frameID }
        else result) := by
  obtain ⟨data, hdata⟩ : ∃ data, data = putUint 2 iocrType.toNat ++ putUint 2 iocrRef.toNat ++
    putUint 2 frameID.toNat := ⟨_, rfl⟩
  have h0 := At.start hdata
  have hlength := h0.length
  simp at hlength
  rw [List.append_assoc] at h0
  have h2 := h0.next (length_putUint 2 _)
  have h4 := h2.next (length_putUint 2 _)
  rw [← List.append_nil (putUint 2 frameID.toNat)] at h4
  rw [← hdata, takeResult, blockOf, if_pos rfl, if_pos hlength.le, h0.uint16 rfl, ok_bind,
    h4.uint16 rfl, ok_bind]
  split <;> rfl

/-- It takes the session key of the AR block. -/
theorem takeResult_ar (arType sessionKey : UInt16) (arUUID : UUID) (mac : HardwareAddr) :
    takeResult result (blockOf blockTypeARBlockRes 1 0
      (putUint 2 arType.toNat ++ arUUID.val ++ putUint 2 sessionKey.toNat ++ mac.val)) =
      .ok { result with sessionKey := sessionKey } := by
  obtain ⟨data, hdata⟩ : ∃ data, data = putUint 2 arType.toNat ++ arUUID.val ++
    putUint 2 sessionKey.toNat ++ mac.val := ⟨_, rfl⟩
  have h0 := At.start hdata
  have hlength := h0.length
  simp [arUUID.property, mac.property] at hlength
  simp only [List.append_assoc] at h0
  have h2 := h0.next (length_putUint 2 _)
  have h18 := h2.next arUUID.property
  have hlong : 20 ≤ data.length := by omega
  have hne : blockTypeARBlockRes ≠ blockTypeIOCRBlockRes := by decide
  rw [← hdata, takeResult, blockOf, if_neg hne, if_pos rfl, if_pos hlong, h18.uint16 rfl]
  rfl

theorem takeResult_other {type : UInt16} (hiocr : type ≠ blockTypeIOCRBlockRes)
    (har : type ≠ blockTypeARBlockRes) (data : Bytes) :
    takeResult result (blockOf type 1 0 data) = .ok result := by
  rw [takeResult, blockOf, if_neg hiocr, if_neg har]

end

/-- The controller reads the response. -/
theorem connectResult_sendResponse (s : RPCServer) (params : ConnectParams) (header : RPCHeader)
    (frameID : UInt16) (deviceMAC : Bytes) :
    connectResult (sendResponse s header pnioStatusOK
      (marshalBlocks (responseSpecs params frameID deviceMAC)) true) =
      .ok ⟨frameID, 0x0001⟩ := by
  have hlength : (marshalBlocks (responseSpecs params frameID deviceMAC)).length < 2 ^ 32 := by
    have huuid := params.arUUID.property
    have hmac := (FixedBytes.copy 6 deviceMAC).property
    simp [marshalBlocks, responseSpecs, length_marshalPNIOBlock, align4, huuid, hmac]
  have hparse := parsePNIOBlocks_marshalBlocks (responseSpecs params frameID deviceMAC)
    fun spec hspec => by
      have := (responseSpecs_mod params frameID deviceMAC spec hspec).2
      omega
  have halarm : blockTypeAlarmCRBlockRes ≠ blockTypeIOCRBlockRes ∧
      blockTypeAlarmCRBlockRes ≠ blockTypeARBlockRes := by decide
  have hdiff : blockTypeModuleDiffBlock ≠ blockTypeIOCRBlockRes ∧
      blockTypeModuleDiffBlock ≠ blockTypeARBlockRes := by decide
  rw [connectResult, sendResponse, receiveRPC_marshal rfl hlength, ok_bind, hparse, attempt_ok,
    ok_bind]
  simp only [responseSpecs, List.map_cons, List.map_nil, List.foldlM_cons, List.foldlM_nil]
  rw [takeResult_ar, ok_bind, takeResult_iocr, ok_bind, takeResult_iocr, ok_bind,
    takeResult_other _ halarm.1 halarm.2, ok_bind, takeResult_other _ hdiff.1 hdiff.2, ok_bind]
  rfl

/-! ## The handshake -/

/-- What a Connect request leads to: the device stores a relationship with the identity,
the data lengths, the output frame ID and the cycle time of the request, and the
controller gets the session key and the input frame ID of that relationship. -/
def Established (params : ConnectParams) (s : RPCServer) (result : ConnectResult) : Prop :=
  ∃ ar input output, s.arMgr.ars.lookup params.arUUID = some ar ∧
    ar.arUUID = params.arUUID ∧ ar.initiatorMAC = params.localMAC ∧
    ar.inputIOCR = some input ∧ ar.outputIOCR = some output ∧
    input.dataLength = params.inputDataLen ∧ output.dataLength = params.outputDataLen ∧
    output.frameID = params.outputFrameID ∧
    (ar.cyclePeriod : Int) = params.cycleTimeMs * 1000000 ∧
    result.sessionKey = ar.sessionKey ∧ result.inputFrameID = input.frameID

/-- The cycle of the device is the one that was asked for. -/
theorem cyclePeriod_connectedAR (params : ConnectParams) (frameID : UInt16) (addr : UDPAddr)
    (activityUUID : UUID) (expected : Option ExpectedSubmoduleReq) (hpos : 0 < params.cycleTimeMs)
    (hle : params.cycleTimeMs ≤ 65535) :
    ((connectedAR params frameID addr activityUUID expected).cyclePeriod : Int) =
      params.cycleTimeMs * 1000000 := by
  have hratio : ((reductionRatio params.cycleTimeMs).toNat : Int) = params.cycleTimeMs := by
    rw [reductionRatio]
    split
    · rw [UInt16.toNat_ofNat']
      omega
    · have hone : params.cycleTimeMs = 1 := by omega
      rw [hone]
      rfl
  have hperiod : (connectedAR params frameID addr activityUUID expected).cyclePeriod =
      32 * (reductionRatio params.cycleTimeMs).toNat * 31250 := rfl
  rw [hperiod]
  omega

/-- Every Connect request that the controller can send is answered, and both sides agree
on what was established. -/
theorem connect_established [DatagramSocket] (s : RPCServer) (addr : UDPAddr) (seqNum : UInt32)
    (params : ConnectParams) (hname : params.stationName.length < 240) (requested : Int)
    (hcycle : params.cycleTimeMs = subscribedCycleTime requested) (hle : requested ≤ 65535)
    (pkt : Bytes)
    (hsent : sendRPC seqNum rpcOpConnect params.arUUID (connectBlocks params) = some pkt) :
    ∃ s' resp result, handlePacket s pkt addr = .ok (s', .respond resp) ∧
      connectResult resp = .ok result ∧ Established params s' result := by
  obtain ⟨hpos, hmax⟩ : 0 < params.cycleTimeMs ∧ params.cycleTimeMs ≤ 65535 := by
    rw [hcycle, subscribedCycleTime]
    split <;> omega
  obtain ⟨s', expected, header, hhandle, hlookup⟩ :=
    handlePacket_connect s params (by omega) addr hsent
  refine ⟨s', _, _, hhandle, connectResult_sendResponse s params header _ _, ?_⟩
  exact ⟨_, _, _, hlookup, rfl, rfl, rfl, rfl, rfl, rfl, rfl,
    cyclePeriod_connectedAR params _ _ _ _ hpos hmax, rfl, rfl⟩

/-- A request with a station name of five bytes and one input submodule. -/
def sampleParams : ConnectParams where
  arUUID := .copy 16 [1, 2, 3]
  localMAC := .copy 6 [2, 0, 0, 0, 0, 1]
  stationName := [112, 108, 99, 45, 49]
  inputDataLen := 8
  outputDataLen := 0
  outputFrameID := 0xC010
  cycleTimeMs := 250
  slots := [⟨1, 0x10, [⟨1, 0x20, 8, 0, []⟩]⟩]

theorem connect_established_sample :
    letI := udp
    ∃ pkt, sendRPC 1 rpcOpConnect sampleParams.arUUID (connectBlocks sampleParams) = some pkt ∧
      ∃ s' resp result, handlePacket ⟨{ localMAC := [2, 0, 0, 0, 0, 9] }, 0⟩ pkt
          ⟨[192, 168, 0, 1], 40000⟩ = .ok (s', .respond resp) ∧
        connectResult resp = .ok result ∧ Established sampleParams s' result := by
  let _ := udp
  obtain ⟨pkt, hsent⟩ : ∃ pkt,
      sendRPC 1 rpcOpConnect sampleParams.arUUID (connectBlocks sampleParams) = some pkt :=
    Option.isSome_iff_exists.mp (by decide +kernel)
  exact ⟨pkt, hsent,
    connect_established _ _ 1 sampleParams (by decide) 250 rfl (by decide) pkt hsent⟩

end ProfinetConnect
