import Tentacle.ProfinetRpc

/-!
# Application relationships of the device

The device keeps one application relationship for each AR UUID. A Connect request
carries an AR block, IOCR blocks, an alarm block and the expected submodules; the
device stores the negotiated relationship and answers with the frame IDs.
-/

namespace ProfinetAr

open GoValues GoSlices BigEndian ProfinetBlocks ProfinetRpc

inductive ARState where
  | closed
  | connected
  | parameterize
  | waitPrmEnd
  | waitAppReady
  | data
  deriving DecidableEq, Repr

structure UDPAddr where
  ip : Bytes
  port : Nat
  deriving DecidableEq, Repr

structure IOCRInfo where
  iocrType : UInt16
  iocrReference : UInt16
  frameID : UInt16
  dataLength : UInt16
  sendClockFactor : UInt16
  reductionRatio : UInt16
  watchdogFactor : UInt16
  dataHoldFactor : UInt16
  apis : List IOCRAPIEntry
  deriving DecidableEq, Repr

structure AlarmCRInfo where
  alarmCRType : UInt16
  localAlarmRef : UInt16
  remoteAlarmRef : UInt16
  maxAlarmDataLen : UInt16
  deriving DecidableEq, Repr

structure AR where
  arUUID : UUID
  arType : UInt16
  sessionKey : UInt16
  initiatorMAC : HardwareAddr
  initiatorAddr : UDPAddr
  activityUUID : UUID
  state : ARState
  inputIOCR : Option IOCRInfo := none
  outputIOCR : Option IOCRInfo := none
  alarmCR : Option AlarmCRInfo := none
  expectedSubmodules : Option ExpectedSubmoduleReq := none
  deriving DecidableEq, Repr

/-- The period of the cyclic sender in nanoseconds, by `CyclicHandler.Start`. -/
def AR.cyclePeriod (ar : AR) : Nat :=
  match ar.inputIOCR with
  | some iocr => iocr.sendClockFactor.toNat * iocr.reductionRatio.toNat * 31250
  | none => 1000000

structure ARManager where
  localMAC : Bytes
  ars : GoMap UUID AR := ∅
  nextFrameID : UInt16 := 0xC001
  deriving DecidableEq

def allocFrameID (m : ARManager) : UInt16 × ARManager :=
  let next := m.nextFrameID + 1
  (m.nextFrameID, { m with nextFrameID := if 0xF7FF < next then 0xC001 else next })

/-! ## The response blocks -/

def marshalARBlockRes (arType : UInt16) (arUUID : UUID) (sessionKey : UInt16)
    (deviceMAC : Bytes) : Bytes :=
  marshalPNIOBlock blockTypeARBlockRes 1 0
    (putUint 2 arType.toNat ++ arUUID.val ++ putUint 2 sessionKey.toNat ++
      (FixedBytes.copy 6 deviceMAC).val)

def marshalIOCRBlockRes (iocrType iocrRef frameID : UInt16) : Bytes :=
  marshalPNIOBlock blockTypeIOCRBlockRes 1 0
    (putUint 2 iocrType.toNat ++ putUint 2 iocrRef.toNat ++ putUint 2 frameID.toNat)

def marshalAlarmCRBlockRes (alarmCRType localAlarmRef maxAlarmDataLen : UInt16) : Bytes :=
  marshalPNIOBlock blockTypeAlarmCRBlockRes 1 0
    (putUint 2 alarmCRType.toNat ++ putUint 2 localAlarmRef.toNat ++
      putUint 2 maxAlarmDataLen.toNat)

def marshalModuleDiffBlock (numAPIs : UInt16) : Bytes :=
  marshalPNIOBlock blockTypeModuleDiffBlock 1 0 (putUint 2 numAPIs.toNat)

/-! ## Connect -/

/-- What the loop over the blocks of a Connect request has found. -/
structure ConnectBlocks where
  ar : Option ARBlockReq := none
  iocrs : List IOCRBlockReq := []
  alarm : Option AlarmCRBlockReq := none
  expected : Option ExpectedSubmoduleReq := none
  deriving DecidableEq, Repr

def connectError : PNIOStatus := ⟨0xDE, 0x81, 0x01, 0x00⟩

/-- One round of that loop. An AR block that cannot be parsed ends the request, any
other such block is skipped. -/
def takeBlock (seen : ConnectBlocks) (b : PNIOBlock) : Outcome PNIOStatus ConnectBlocks :=
  if b.type = blockTypeARBlockReq then do
    match ← (parseARBlockReq b.data).attempt with
    | .error _ => .err connectError
    | .ok parsed => return { seen with ar := some parsed }
  else if b.type = blockTypeIOCRBlockReq then do
    match ← (parseIOCRBlockReq b.data).attempt with
    | .error _ => return seen
    | .ok parsed => return { seen with iocrs := seen.iocrs ++ [parsed] }
  else if b.type = blockTypeAlarmCRBlockReq then do
    match ← (parseAlarmCRBlockReq b.data).attempt with
    | .error _ => return seen
    | .ok parsed => return { seen with alarm := some parsed }
  else if b.type = blockTypeExpectedSubmoduleReq then do
    match ← (parseExpectedSubmoduleReq b.data).attempt with
    | .error _ => return seen
    | .ok parsed => return { seen with expected := some parsed }
  else return seen

def iocrTypeInput : UInt16 := 0x0001
def iocrTypeOutput : UInt16 := 0x0002

def iocrInfo (iocr : IOCRBlockReq) (frameID : UInt16) : IOCRInfo where
  iocrType := iocr.iocrType
  iocrReference := iocr.iocrReference
  frameID := frameID
  dataLength := iocr.dataLength
  sendClockFactor := iocr.sendClockFactor
  reductionRatio := iocr.reductionRatio
  watchdogFactor := iocr.watchdogFactor
  dataHoldFactor := iocr.dataHoldFactor
  apis := iocr.apis

/-- The manager, the new relationship and the response while the response is built. -/
structure Reply where
  manager : ARManager
  ar : AR
  respBuf : Bytes

/-- The device assigns the frame ID of an input relationship; that of an output
relationship is the controller's. -/
def answerIOCR (r : Reply) (iocr : IOCRBlockReq) : Reply :=
  if iocr.iocrType = iocrTypeInput then
    let (frameID, manager) := allocFrameID r.manager
    { manager := manager
      ar := { r.ar with inputIOCR := some (iocrInfo iocr frameID) }
      respBuf := r.respBuf ++ marshalIOCRBlockRes iocr.iocrType iocr.iocrReference frameID }
  else if iocr.iocrType = iocrTypeOutput then
    { r with
      ar := { r.ar with outputIOCR := some (iocrInfo iocr iocr.frameID) }
      respBuf := r.respBuf ++ marshalIOCRBlockRes iocr.iocrType iocr.iocrReference iocr.frameID }
  else r

def answerAlarm (r : Reply) : Option AlarmCRBlockReq → Reply
  | none => r
  | some alarm =>
    { r with
      ar := { r.ar with
        alarmCR := some {
          alarmCRType := alarm.alarmCRType
          remoteAlarmRef := alarm.localAlarmRef
          localAlarmRef := 0x0001
          maxAlarmDataLen := alarm.maxAlarmDataLen } }
      respBuf := r.respBuf ++
        marshalAlarmCRBlockRes alarm.alarmCRType 0x0001 alarm.maxAlarmDataLen }

/-- The part of `HandleConnect` behind the loop, with the AR block that was found. -/
def createAR (m : ARManager) (seen : ConnectBlocks) (arBlock : ARBlockReq) (addr : UDPAddr)
    (activityUUID : UUID) : ARManager × Bytes :=
  let ar : AR := {
    arUUID := arBlock.arUUID
    arType := arBlock.arType
    sessionKey := arBlock.sessionKey
    initiatorMAC := arBlock.cmInitiatorMAC
    initiatorAddr := addr
    activityUUID := activityUUID
    state := .connected
    expectedSubmodules := seen.expected }
  let start : Reply := {
    manager := m
    ar := ar
    respBuf := marshalARBlockRes arBlock.arType arBlock.arUUID arBlock.sessionKey m.localMAC }
  let r := answerAlarm (seen.iocrs.foldl answerIOCR start) seen.alarm
  ({ r.manager with ars := r.manager.ars.insert arBlock.arUUID r.ar },
    padTo4 (r.respBuf ++ marshalModuleDiffBlock 0))

def handleConnect (m : ARManager) (blocks : List PNIOBlock) (addr : UDPAddr)
    (activityUUID : UUID) : Outcome Empty (ARManager × Bytes × PNIOStatus) := do
  match ← (blocks.foldlM takeBlock {}).attempt with
  | .error status => return (m, [], status)
  | .ok seen =>
    match seen.ar with
    | none => return (m, [], connectError)
    | some arBlock =>
      let (m, respBuf) := createAR m seen arBlock addr activityUUID
      return (m, respBuf, pnioStatusOK)

/-! ## The server -/

structure RPCServer where
  arMgr : ARManager
  bootTime : UInt32

/-- What the server does about a datagram: nothing, a packet that it sends back, or a
request for the handlers of the other operations or of the endpoint mapper. -/
inductive Reaction where
  | ignore
  | respond (pkt : Bytes)
  | handle (header : RPCHeader) (blocks : List PNIOBlock)
  | lookup (header : RPCHeader) (body : Bytes)
  deriving DecidableEq, Repr

/-- The packet of `sendResponse`, with the idempotent flag of the request. -/
def sendResponse (s : RPCServer) (reqHeader : RPCHeader) (status : PNIOStatus)
    (responseBlocks : Bytes) (le : Bool) : Bytes :=
  let body := marshalPNIOResponseBody status responseBlocks le
  let flags := rpcFlagLastFrag ||| rpcFlagNoFack
  let resp : RPCHeader := {
    rpcVersion := rpcVersionCL
    packetType := rpcPTypeResponse
    flags1 :=
      if reqHeader.flags1 &&& rpcFlagIdempotent ≠ 0 then flags ||| rpcFlagIdempotent else flags
    dataRep := reqHeader.dataRep
    serialHigh := reqHeader.serialHigh
    objectUUID := reqHeader.objectUUID
    interfaceUUID := reqHeader.interfaceUUID
    activityUUID := reqHeader.activityUUID
    serverBootTime := s.bootTime
    interfaceVersion := reqHeader.interfaceVersion
    sequenceNum := reqHeader.sequenceNum
    opNum := reqHeader.opNum
    interfaceHint := 0xFFFF
    activityHint := 0xFFFF
    fragmentLen := .ofNat body.length
    serialLow := reqHeader.serialLow }
  resp.marshal ++ body

/-- The operations but Connect, which all begin by parsing the body. -/
def otherOps : List UInt16 := [rpcOpRelease, rpcOpRead, rpcOpWrite, rpcOpControl, rpcOpReadImplicit]

def handlePNIORequest (s : RPCServer) (header : RPCHeader) (body : Bytes) (addr : UDPAddr) :
    Outcome Empty (RPCServer × Reaction) :=
  let le := isLittleEndian header.dataRep
  if header.opNum = rpcOpConnect then do
    match ← (parsePNIORequestBody body le).attempt with
    | .error _ => return (s, .respond (sendResponse s header connectError [] le))
    | .ok (_, blocks) =>
      let (m, respBlocks, status) ← handleConnect s.arMgr blocks addr header.activityUUID
      return ({ s with arMgr := m }, .respond (sendResponse s header status respBlocks le))
  else if header.opNum ∈ otherOps then do
    match ← (parsePNIORequestBody body le).attempt with
    | .error _ => return (s, .respond (sendResponse s header connectError [] le))
    | .ok (_, blocks) => return (s, .handle header blocks)
  else return (s, .ignore)

def handlePacket (s : RPCServer) (data : Bytes) (addr : UDPAddr) :
    Outcome Empty (RPCServer × Reaction) := do
  match ← (parseRPCHeader data).attempt with
  | .error _ => return (s, .ignore)
  | .ok header =>
    if header.rpcVersion ≠ rpcVersionCL then return (s, .ignore)
    else if header.packetType ≠ rpcPTypeRequest then return (s, .ignore)
    else
      let body ← sliceFrom data rpcHeaderSize
      if header.interfaceUUID = uuidPNIOInterface then handlePNIORequest s header body addr
      else if header.interfaceUUID = uuidEndpointMapper then return (s, .lookup header body)
      else return (s, .ignore)

end ProfinetAr
