import Tentacle.ProfinetDcp

/-!
# Assignment over discovery

A controller assigns the station name and the IP suite with Set requests and reads them
back with Get and Identify requests. The responder takes the frames one after another:
each block of a Set request is applied or refused on its own, and the answer names every
block with the error code it got. The network is reconfigured after the answer is sent,
once for a request.
-/

namespace ProfinetDcp

open GoValues GoSlices BigEndian Outcome ProfinetBlocks

def frameIDDCPGetSet : UInt16 := 0xFEFD

def dcpServiceGet : UInt8 := 0x03
def dcpServiceSet : UInt8 := 0x04

def dcpOptionControl : UInt8 := 0x05
def dcpSubOptionControlResponse : UInt8 := 0x04

def DCPFrame.isSetRequest (f : DCPFrame) : Bool :=
  f.frameID = frameIDDCPGetSet ∧ f.serviceID = dcpServiceSet ∧
    f.serviceType = dcpServiceTypeRequest

def DCPFrame.isGetRequest (f : DCPFrame) : Bool :=
  f.frameID = frameIDDCPGetSet ∧ f.serviceID = dcpServiceGet ∧
    f.serviceType = dcpServiceTypeRequest

def dcpBlockControlResponse (option subOption errorCode : UInt8) : DCPBlock where
  option := dcpOptionControl
  subOption := dcpSubOptionControlResponse
  data := [option, subOption, errorCode]

/-! ## Set requests -/

def DCPResponder.setIP (r : DCPResponder) (ip mask gateway : IP) : DCPResponder :=
  { r with
    ip := ip
    mask := mask
    gateway := gateway
    ipSet := ip ≠ ipv4Zero
    ipSet_eq := rfl }

def DCPResponder.setStationName (r : DCPResponder) (name : Bytes) : DCPResponder :=
  { r with stationName := name }

/-- The arguments of the call of `onIPSet`. -/
structure DeferredIPSet where
  ip : IP
  mask : IP
  gw : IP
  permanent : Bool
  deriving DecidableEq, Repr

/-- What the loop of `handleSet` carries; `names` are the calls of `onNameSet`. -/
structure SetLoop where
  r : DCPResponder
  respBlocks : List DCPBlock := []
  names : List Bytes := []
  deferred : Option DeferredIPSet := none

def SetLoop.respond (s : SetLoop) (block : DCPBlock) (errorCode : UInt8) : SetLoop :=
  { s with
    respBlocks := s.respBlocks ++
      [dcpBlockControlResponse block.option block.subOption errorCode] }

/-- The name without the block qualifier. -/
def nameData (data : Bytes) : Outcome Empty Bytes :=
  if 2 ≤ data.length then sliceFrom data 2 else .ok data

/-- One round of the loop of `handleSet`. -/
def takeSetBlock (s : SetLoop) (block : DCPBlock) : Outcome Empty SetLoop :=
  if block.option = dcpOptionIP ∧ block.subOption = dcpSubOptionIPSuite then
    if block.data.length < 14 then .ok (s.respond block 0x03)
    else do
      let qualifier ← index block.data 1
      match ← (parseIPSuiteBlock (← sliceFrom block.data 2)).attempt with
      | .error _ => return s.respond block 0x03
      | .ok (ip, mask, gw) =>
        return { s.respond block 0x00 with
          r := s.r.setIP ip mask gw
          deferred := some ⟨ip, mask, gw, qualifier &&& 0x01 ≠ 0⟩ }
  else if block.option = dcpOptionDeviceProperties ∧
      block.subOption = dcpSubOptionDevNameOfStation then do
    let name ← nameData block.data
    return { s.respond block 0x00 with
      r := s.r.setStationName name
      names := s.names ++ [name] }
  else if block.option = dcpOptionDHCP then
    .ok { s.respond block 0x00 with
      r := s.r.setIP ipv4Zero ipv4Zero ipv4Zero
      deferred := some ⟨ipv4Zero, ipv4Zero, ipv4Zero, true⟩ }
  else .ok (s.respond block 0x02)

def setResponse (xid : UInt32) (respBlocks : List DCPBlock) : DCPFrame where
  frameID := frameIDDCPGetSet
  serviceID := dcpServiceSet
  serviceType := dcpServiceTypeResponse
  xid := xid
  blocks := respBlocks

/-! ## Get requests -/

def getIPSuite (r : DCPResponder) : DCPBlock :=
  dcpBlockIPSuite r.ip r.mask r.gateway (if r.ipSet then dcpBlockInfoIPSet else 0)

/-- What one requested block adds to the answer of `handleGet`. -/
def getBlocks (r : DCPResponder) (block : DCPBlock) : List DCPBlock :=
  if block.option = dcpOptionDeviceProperties ∧
      block.subOption = dcpSubOptionDevNameOfStation then
    [dcpBlockNameOfStation r.stationName]
  else if block.option = dcpOptionDeviceProperties ∧ block.subOption = dcpSubOptionDevVendor then
    [dcpBlockVendor r.vendorName]
  else if block.option = dcpOptionDeviceProperties ∧ block.subOption = dcpSubOptionDevID then
    [dcpBlockDeviceID r.vendorID r.deviceID]
  else if block.option = dcpOptionDeviceProperties ∧ block.subOption = dcpSubOptionDevRole then
    [dcpBlockDeviceRole deviceRoleIODevice]
  else if block.option = dcpOptionDeviceProperties ∧
      block.subOption = dcpSubOptionDevInstance then
    [dcpBlockDeviceInstance 0x00 0x01]
  else if block.option = dcpOptionIP ∧ block.subOption = dcpSubOptionIPSuite then
    [getIPSuite r]
  else if block.option = dcpOptionAllSelector then
    [dcpBlockNameOfStation r.stationName, dcpBlockVendor r.vendorName,
      dcpBlockDeviceID r.vendorID r.deviceID, dcpBlockDeviceRole deviceRoleIODevice,
      dcpBlockDeviceInstance 0x00 0x01, getIPSuite r]
  else []

def handleGet (r : DCPResponder) (req : DCPFrame) : DCPFrame where
  frameID := frameIDDCPGetSet
  serviceID := dcpServiceGet
  serviceType := dcpServiceTypeResponse
  xid := req.xid
  blocks := req.blocks.flatMap (getBlocks r)

/-! ## The device on the network -/

/-- The responder with what it did: the payloads it sent, and the calls of its two callbacks. -/
structure DCPDevice where
  r : DCPResponder
  sent : List Bytes := []
  names : List Bytes := []
  applied : List DeferredIPSet := []

/-- A failed write is logged and nothing more. -/
def DCPDevice.send [EthernetLink] (d : DCPDevice) (frame : DCPFrame) : DCPDevice :=
  { d with sent := d.sent ++ (sendDCPResponse frame).toList }

def handleSet [EthernetLink] (d : DCPDevice) (req : DCPFrame) : Outcome Empty DCPDevice := do
  let s ← req.blocks.foldlM takeSetBlock { r := d.r }
  let d := { d with r := s.r, names := d.names ++ s.names }.send (setResponse req.xid s.respBlocks)
  return { d with applied := d.applied ++ s.deferred.toList }

def handleDCPFrame [EthernetLink] (localMAC : HardwareAddr) (d : DCPDevice) (f : DCPFrame) :
    Outcome Empty DCPDevice :=
  if f.isIdentifyRequest then
    match handleIdentify d.r localMAC f with
    | some resp => .ok (d.send resp)
    | none => .ok d
  else if f.isSetRequest then handleSet d f
  else if f.isGetRequest then .ok (d.send (handleGet d.r f))
  else .ok d

def handleFrame [EthernetLink] (localMAC : HardwareAddr) (d : DCPDevice) (payload : Bytes) :
    Outcome Empty DCPDevice := do
  match ← (parseDCPFrame payload).attempt with
  | .error _ => return d
  | .ok f => handleDCPFrame localMAC d f

def startDCP (cfg : DCPResponderConfig) : DCPDevice where
  r := newDCPResponder cfg

/-- The payloads that the frame loop hands to the responder, in the order of their arrival. -/
def runFrames [EthernetLink] (localMAC : HardwareAddr) (d : DCPDevice) (payloads : List Bytes) :
    Outcome Empty DCPDevice :=
  payloads.foldlM (handleFrame localMAC) d

/-! ## What a block assigns -/

/-- The name that a block assigns, after the qualifier if there is room for one. -/
def nameOf (block : DCPBlock) : Option Bytes :=
  if block.option = dcpOptionDeviceProperties ∧
      block.subOption = dcpSubOptionDevNameOfStation then
    some (if 2 ≤ block.data.length then block.data.drop 2 else block.data)
  else none

/-- The four bytes at a position of an IP suite. -/
def addressAt (data : Bytes) (i : Nat) : IP := .copy 4 ((data.drop i).take 4)

/-- The IP suite that a block assigns; every block of the DHCP option clears it. -/
def suiteOf (block : DCPBlock) : Option DeferredIPSet :=
  if block.option = dcpOptionIP ∧ block.subOption = dcpSubOptionIPSuite then
    if 14 ≤ block.data.length then
      some ⟨addressAt block.data 2, addressAt block.data 6, addressAt block.data 10,
        block.data.getD 1 0 &&& 0x01 ≠ 0⟩
    else none
  else if block.option = dcpOptionDHCP then some ⟨ipv4Zero, ipv4Zero, ipv4Zero, true⟩
  else none

/-- No error for a block that assigns something, 3 for an IP suite that is too short, and 2 for
every other block. -/
def errorCode (block : DCPBlock) : UInt8 :=
  if (nameOf block).isSome ∨ (suiteOf block).isSome then 0x00
  else if block.option = dcpOptionIP ∧ block.subOption = dcpSubOptionIPSuite then 0x03
  else 0x02

def setAnswer (block : DCPBlock) : DCPBlock :=
  dcpBlockControlResponse block.option block.subOption (errorCode block)

def DCPResponder.setSuite (r : DCPResponder) (suite : DeferredIPSet) : DCPResponder :=
  r.setIP suite.ip suite.mask suite.gw

def assignBlock (r : DCPResponder) (block : DCPBlock) : DCPResponder :=
  let r := (nameOf block).elim r r.setStationName
  (suiteOf block).elim r r.setSuite

/-- The addresses are read from behind the two bytes of the qualifier. -/
theorem parseIPSuiteBlock_drop {data : Bytes} (h : 14 ≤ data.length) :
    parseIPSuiteBlock (data.drop 2) =
      .ok (addressAt data 2, addressAt data 6, addressAt data 10) := by
  have hlength : (data.drop 2).length = data.length - 2 := List.length_drop
  rw [parseIPSuiteBlock, if_neg (by omega), slice_window (n := 4) rfl (by omega), ok_bind,
    slice_window (n := 4) rfl (by omega), ok_bind, slice_window (n := 4) rfl (by omega), ok_bind]
  simp only [List.drop_drop]
  rfl

/-- Every block is applied or refused, and the loop goes on. -/
theorem takeSetBlock_eq (s : SetLoop) (block : DCPBlock) :
    takeSetBlock s block = .ok {
      r := assignBlock s.r block
      respBlocks := s.respBlocks ++ [setAnswer block]
      names := s.names ++ (nameOf block).toList
      deferred := (suiteOf block).or s.deferred } := by
  unfold takeSetBlock
  by_cases hip : block.option = dcpOptionIP ∧ block.subOption = dcpSubOptionIPSuite
  · have hname : nameOf block = none := by simp [nameOf, hip.1, dcpOptionIP,
      dcpOptionDeviceProperties]
    rw [if_pos hip]
    by_cases hshort : block.data.length < 14
    · have hsuite : suiteOf block = none := by
        rw [suiteOf, if_pos hip, if_neg (by omega)]
      rw [if_pos hshort]
      simp [SetLoop.respond, assignBlock, setAnswer, errorCode, hname, hsuite, hip]
    · have hsuite : suiteOf block = some ⟨addressAt block.data 2, addressAt block.data 6,
          addressAt block.data 10, block.data.getD 1 0 &&& 0x01 ≠ 0⟩ := by
        rw [suiteOf, if_pos hip, if_pos (by omega)]
      have hqualifier : (index block.data 1 : Outcome Empty UInt8) =
          .ok (block.data.getD 1 0) := by
        have hlt : 1 < block.data.length := by omega
        simp [index, hlt]
      have hfrom : (sliceFrom block.data 2 : Outcome Empty Bytes) = .ok (block.data.drop 2) := by
        simp [sliceFrom]
        omega
      rw [if_neg hshort, hqualifier, ok_bind, hfrom, ok_bind,
        parseIPSuiteBlock_drop (by omega), attempt_ok, ok_bind]
      simp [SetLoop.respond, assignBlock, DCPResponder.setSuite, setAnswer, errorCode, hname,
        hsuite]
  · rw [if_neg hip]
    by_cases hdev : block.option = dcpOptionDeviceProperties ∧
        block.subOption = dcpSubOptionDevNameOfStation
    · have hsuite : suiteOf block = none := by
        rw [suiteOf, if_neg hip, if_neg (by rw [hdev.1]; decide)]
      have hname : nameOf block =
          some (if 2 ≤ block.data.length then block.data.drop 2 else block.data) := by
        rw [nameOf, if_pos hdev]
      have hread : nameData block.data =
          .ok (if 2 ≤ block.data.length then block.data.drop 2 else block.data) := by
        unfold nameData
        split
        next h =>
          simp [sliceFrom]
          omega
        next h => rfl
      rw [if_pos hdev, hread, ok_bind]
      simp [SetLoop.respond, assignBlock, setAnswer, errorCode, hname, hsuite]
    · have hname : nameOf block = none := by rw [nameOf, if_neg hdev]
      rw [if_neg hdev]
      by_cases hdhcp : block.option = dcpOptionDHCP
      · have hsuite : suiteOf block = some ⟨ipv4Zero, ipv4Zero, ipv4Zero, true⟩ := by
          rw [suiteOf, if_neg hip, if_pos hdhcp]
        rw [if_pos hdhcp]
        simp [SetLoop.respond, assignBlock, DCPResponder.setSuite, setAnswer, errorCode, hname,
          hsuite]
      · have hsuite : suiteOf block = none := by rw [suiteOf, if_neg hip, if_neg hdhcp]
        rw [if_neg hdhcp]
        simp [SetLoop.respond, assignBlock, setAnswer, errorCode, hname, hsuite, hip]

/-- The last thing that one of the blocks assigns. -/
def latest {α : Type} (assigns : DCPBlock → Option α) (blocks : List DCPBlock) : Option α :=
  (blocks.filterMap assigns).getLast?

theorem latest_cons {α : Type} (assigns : DCPBlock → Option α) (block : DCPBlock)
    (blocks : List DCPBlock) :
    latest assigns (block :: blocks) = (latest assigns blocks).or (assigns block) := by
  cases h : assigns block <;> simp [latest, h, List.getLast?_cons]

theorem latest_snoc {α : Type} (assigns : DCPBlock → Option α) (blocks : List DCPBlock)
    (block : DCPBlock) :
    latest assigns (blocks ++ [block]) = (assigns block).or (latest assigns blocks) := by
  simp [latest]

/-- The blocks of a request are assigned one by one, and each is answered. -/
theorem foldlM_takeSetBlock (blocks : List DCPBlock) (s : SetLoop) :
    blocks.foldlM takeSetBlock s = .ok {
      r := blocks.foldl assignBlock s.r
      respBlocks := s.respBlocks ++ blocks.map setAnswer
      names := s.names ++ blocks.filterMap nameOf
      deferred := (latest suiteOf blocks).or s.deferred } := by
  induction blocks generalizing s with
  | nil => simp [latest]
  | cons block blocks ih =>
    rw [List.foldlM_cons, takeSetBlock_eq, ok_bind, ih, latest_cons]
    cases hname : nameOf block <;> simp [hname, Option.or_assoc]

/-! ## The last assignment wins -/

/-- The responder with the last name and the last suite among the blocks. -/
def assignedTo (start : DCPResponder) (blocks : List DCPBlock) : DCPResponder :=
  let r := start.setStationName ((latest nameOf blocks).getD start.stationName)
  (latest suiteOf blocks).elim r r.setSuite

/-- A name and a suite are assigned independently. -/
theorem foldl_assignBlock (start : DCPResponder) (blocks : List DCPBlock) :
    blocks.foldl assignBlock start = assignedTo start blocks := by
  induction blocks using List.reverseRecOn with
  | nil => rfl
  | append_singleton blocks block ih =>
    rw [List.foldl_append, ih, List.foldl_cons, List.foldl_nil, assignedTo, assignedTo,
      latest_snoc, latest_snoc, assignBlock]
    cases nameOf block <;> cases suiteOf block <;> cases latest suiteOf blocks <;> rfl

/-! ## Whole runs -/

/-- Inside the frame every block can be read. -/
theorem dcpBlocks_ok (data : Bytes) {stop : Nat} (h : stop ≤ data.length) (offset : Nat) :
    ∃ blocks, dcpBlocks data stop offset = .ok blocks := by
  rw [dcpBlocks]
  split
  next hheader =>
    rw [index_ok (by omega), ok_bind, index_ok (by omega), ok_bind,
      uint16_ok (by omega) (by omega), ok_bind]
    dsimp only
    generalize (UInt16.ofNat (uint ((data.drop (offset + 2)).take 2))).toNat = blockLen
    split
    next => exact ⟨[], rfl⟩
    next hin =>
      obtain ⟨blocks, hblocks⟩ := dcpBlocks_ok data h (offset + 4 + blockLen + blockLen % 2)
      have hlength : ((data.take (offset + 4 + blockLen)).drop (offset + 4)).length =
          (List.replicate blockLen (0 : UInt8)).length := by
        rw [List.length_drop, List.length_take, List.length_replicate]
        omega
      rw [makeSlice_ok, ok_bind, slice_ok (by omega) (by omega), ok_bind,
        copyFrom_of_length hlength, ok_bind, hblocks]
      exact ⟨_, rfl⟩
  next => exact ⟨[], rfl⟩
  termination_by stop - offset

/-- No bytes make the parser of frames panic. -/
theorem parseDCPFrame_safe (data : Bytes) : (parseDCPFrame data).Safe := by
  unfold parseDCPFrame
  split
  next => trivial
  next h =>
    rw [uint16_ok rfl (by omega), ok_bind, index_ok (by omega), ok_bind, index_ok (by omega),
      ok_bind, uint32_ok rfl (by omega), ok_bind, uint16_ok rfl (by omega), ok_bind,
      uint16_ok rfl (by omega), ok_bind]
    obtain ⟨blocks, hblocks⟩ := dcpBlocks_ok data (Nat.min_le_right (12 +
      (UInt16.ofNat (uint ((data.drop 10).take 2))).toNat) data.length) 12
    rw [hblocks]
    trivial

/-- The blocks of a payload that is a Set request. -/
def setRequest (payload : Bytes) : Option DCPFrame :=
  match parseDCPFrame payload with
  | .ok f => if f.isSetRequest then some f else none
  | _ => none

/-- The blocks of the Set requests among the payloads. -/
def setBlocks (payloads : List Bytes) : List DCPBlock :=
  (payloads.filterMap setRequest).flatMap DCPFrame.blocks

/-- The frame that answers a frame, sent or not. -/
def answerTo (localMAC : HardwareAddr) (r : DCPResponder) (f : DCPFrame) : Option DCPFrame :=
  if f.isIdentifyRequest then handleIdentify r localMAC f
  else if f.isSetRequest then some (setResponse f.xid (f.blocks.map setAnswer))
  else if f.isGetRequest then some (handleGet r f)
  else none

theorem isSetRequest_of_isIdentifyRequest {f : DCPFrame} (h : f.isIdentifyRequest) :
    f.isSetRequest = false := by
  simp only [DCPFrame.isIdentifyRequest, decide_eq_true_eq] at h
  simp [DCPFrame.isSetRequest, h.1, frameIDDCPIdentReq, frameIDDCPGetSet]

/-- What a frame does to the device. -/
theorem handleDCPFrame_eq [EthernetLink] (localMAC : HardwareAddr) (d : DCPDevice) (f : DCPFrame) :
    handleDCPFrame localMAC d f = .ok {
      r := assignedTo d.r (if f.isSetRequest then f.blocks else [])
      sent := d.sent ++ ((answerTo localMAC d.r f).bind sendDCPResponse).toList
      names := d.names ++ (if f.isSetRequest then f.blocks else []).filterMap nameOf
      applied := d.applied ++
        (latest suiteOf (if f.isSetRequest then f.blocks else [])).toList } := by
  unfold handleDCPFrame answerTo
  split
  next hidentify =>
    rw [isSetRequest_of_isIdentifyRequest hidentify]
    cases handleIdentify d.r localMAC f <;> simp [DCPDevice.send, latest, assignedTo] <;> rfl
  next =>
    split
    next hset =>
      rw [handleSet, foldlM_takeSetBlock, ok_bind, foldl_assignBlock]
      simp [DCPDevice.send]
    next =>
      split
      next => simp [DCPDevice.send, latest, assignedTo]; rfl
      next => simp [latest, assignedTo]; rfl

def answerToPayload (localMAC : HardwareAddr) (r : DCPResponder) (payload : Bytes) :
    Option DCPFrame :=
  match parseDCPFrame payload with
  | .ok f => answerTo localMAC r f
  | _ => none

/-- The suite that a request leaves to be applied to the network, once it is answered. -/
def suiteOfRequest (f : DCPFrame) : Option DeferredIPSet := latest suiteOf f.blocks

/-- What a payload does to the device. -/
def afterPayload [EthernetLink] (localMAC : HardwareAddr) (d : DCPDevice) (payload : Bytes) :
    DCPDevice where
  r := assignedTo d.r (setBlocks [payload])
  sent := d.sent ++ ((answerToPayload localMAC d.r payload).bind sendDCPResponse).toList
  names := d.names ++ (setBlocks [payload]).filterMap nameOf
  applied := d.applied ++ ([payload].filterMap setRequest).filterMap suiteOfRequest

theorem handleFrame_eq [EthernetLink] (localMAC : HardwareAddr) (d : DCPDevice) (payload : Bytes) :
    handleFrame localMAC d payload = .ok (afterPayload localMAC d payload) := by
  have hsafe := parseDCPFrame_safe payload
  unfold handleFrame afterPayload answerToPayload setBlocks
  cases hparse : parseDCPFrame payload with
  | ok f =>
    rw [attempt_ok, ok_bind]
    dsimp only
    rw [handleDCPFrame_eq]
    cases hset : f.isSetRequest with
    | false => simp [setRequest, hparse, hset, latest]
    | true =>
      cases hsuite : suiteOfRequest f <;> rw [suiteOfRequest] at hsuite <;>
        simp [setRequest, hparse, hset, suiteOfRequest, hsuite]
  | err e => simp [Outcome.attempt, setRequest, hparse, latest, assignedTo]; rfl
  | panic p => simp [hparse] at hsafe

theorem assignedTo_append (r : DCPResponder) (front back : List DCPBlock) :
    assignedTo r (front ++ back) = assignedTo (assignedTo r front) back := by
  rw [← foldl_assignBlock, ← foldl_assignBlock, ← foldl_assignBlock, List.foldl_append]

/-- The device after a run, but for what it sent. -/
theorem runFrames_eq [EthernetLink] (localMAC : HardwareAddr) (d : DCPDevice)
    (payloads : List Bytes) :
    ∃ d', runFrames localMAC d payloads = .ok d' ∧ d'.r = assignedTo d.r (setBlocks payloads) ∧
      d'.names = d.names ++ (setBlocks payloads).filterMap nameOf ∧
      d'.applied = d.applied ++ (payloads.filterMap setRequest).filterMap suiteOfRequest := by
  induction payloads generalizing d with
  | nil => exact ⟨d, rfl, rfl, by simp [setBlocks], by simp⟩
  | cons payload payloads ih =>
    obtain ⟨d', hrun, hr, hnames, happlied⟩ := ih (afterPayload localMAC d payload)
    have hblocks : setBlocks (payload :: payloads) = setBlocks [payload] ++ setBlocks payloads := by
      rw [setBlocks, setBlocks, setBlocks, ← List.flatMap_append, ← List.filterMap_append,
        List.singleton_append]
    refine ⟨d', ?_, ?_, ?_, ?_⟩
    · rw [runFrames, List.foldlM_cons, handleFrame_eq, ok_bind]
      exact hrun
    · rw [hr, hblocks, assignedTo_append]
      rfl
    · rw [hnames, hblocks, List.filterMap_append, ← List.append_assoc]
      rfl
    · rw [happlied, afterPayload, List.append_assoc, ← List.filterMap_append,
        ← List.filterMap_append, List.singleton_append]

/-- Whatever arrives, the responder does not panic; its vendor and its IDs stay, its name and its IP
suite are the last ones that a Set request assigned, every assigned name was passed on, and the
network is reconfigured once for a request that assigns a suite, to the last of it. -/
theorem runFrames_assigned [EthernetLink] (cfg : DCPResponderConfig) (localMAC : HardwareAddr)
    (payloads : List Bytes) :
    ∃ d, runFrames localMAC (startDCP cfg) payloads = .ok d ∧
      d.r = assignedTo (newDCPResponder cfg) (setBlocks payloads) ∧
      d.names = (setBlocks payloads).filterMap nameOf ∧
      d.applied = (payloads.filterMap setRequest).filterMap suiteOfRequest := by
  obtain ⟨d, hrun, hr, hnames, happlied⟩ := runFrames_eq localMAC (startDCP cfg) payloads
  exact ⟨d, hrun, hr, hnames, happlied⟩

/-! ## The answers on the wire -/

/-- The frame was sent and is read back as it is, unless it is too long to be sent. -/
def Answered [EthernetLink] (d d' : DCPDevice) (resp : DCPFrame) : Prop :=
  if 12 + (resp.blocks.flatMap marshalDCPBlock).length ≤ EthernetLink.maxPayload then
    ∃ wire, d'.sent = d.sent ++ [wire] ∧ parseDCPFrame wire = .ok resp
  else d'.sent = d.sent

/-- What is answered is sent, if it fits a frame. -/
theorem answered_of_sent [EthernetLink] {d d' : DCPDevice} {resp : DCPFrame}
    (h : d'.sent = d.sent ++ (sendDCPResponse resp).toList) : Answered d d' resp := by
  have hlength : (marshalDCPFrame resp).length =
      12 + (resp.blocks.flatMap marshalDCPBlock).length := by
    simp only [marshalDCPFrame, List.length_append, length_putUint, List.length_singleton]
  unfold Answered
  split
  next hfits =>
    have hsend : sendDCPResponse resp = some (marshalDCPFrame resp ++
        List.replicate (46 - (marshalDCPFrame resp).length) 0) := by
      rw [sendDCPResponse, sendFrame, if_pos (by omega)]
    refine ⟨_, by rw [h, hsend]; rfl, parseDCPFrame_marshalDCPFrame resp _ ?_⟩
    have hmax := EthernetLink.maxPayload_lt
    omega
  next hlong =>
    have hsend : sendDCPResponse resp = none := by
      rw [sendDCPResponse, sendFrame, if_neg (by omega)]
    rw [h, hsend, Option.toList_none, List.append_nil]

/-- A payload after a run meets what the run assigned. -/
theorem runFrames_snoc [EthernetLink] (cfg : DCPResponderConfig) (localMAC : HardwareAddr)
    (payloads : List Bytes) (payload : Bytes) :
    ∃ d, runFrames localMAC (startDCP cfg) payloads = .ok d ∧
      runFrames localMAC (startDCP cfg) (payloads ++ [payload]) =
        .ok (afterPayload localMAC d payload) ∧
      d.r = assignedTo (newDCPResponder cfg) (setBlocks payloads) := by
  obtain ⟨d, hrun, hr, -, -⟩ := runFrames_eq localMAC (startDCP cfg) payloads
  refine ⟨d, hrun, ?_, hr⟩
  rw [runFrames] at hrun
  rw [runFrames, List.foldlM_append, hrun, ok_bind, List.foldlM_cons, handleFrame_eq]
  rfl

/-- The answer to a payload, if there is one, is sent. -/
theorem answered_afterPayload [EthernetLink] {localMAC : HardwareAddr} {d : DCPDevice}
    {payload : Bytes} {resp : DCPFrame}
    (h : answerToPayload localMAC d.r payload = some resp) :
    Answered d (afterPayload localMAC d payload) resp := by
  apply answered_of_sent
  simp only [afterPayload, h, Option.bind_some]

/-- An answer takes eight bytes for each block. -/
theorem length_setAnswers (blocks : List DCPBlock) :
    ((blocks.map setAnswer).flatMap marshalDCPBlock).length = 8 * blocks.length := by
  induction blocks with
  | nil => rfl
  | cons block blocks ih =>
    rw [List.map_cons, List.flatMap_cons, List.length_append, ih, length_marshalDCPBlock,
      List.length_cons]
    simp [setAnswer, dcpBlockControlResponse]
    omega

/-- After any run, a Set request is answered with its transaction and, block by block, with whether
the block was applied; but an answer that is longer than a frame is not sent, and the request is
applied without one. -/
theorem set_answered [EthernetLink] (cfg : DCPResponderConfig) (localMAC : HardwareAddr)
    (payloads : List Bytes) {payload : Bytes} {f : DCPFrame}
    (hparse : parseDCPFrame payload = .ok f) (hset : f.isSetRequest) :
    ∃ d d', runFrames localMAC (startDCP cfg) payloads = .ok d ∧
      runFrames localMAC (startDCP cfg) (payloads ++ [payload]) = .ok d' ∧
      d'.r = assignedTo d.r f.blocks ∧
      if 12 + 8 * f.blocks.length ≤ EthernetLink.maxPayload then
        ∃ wire, d'.sent = d.sent ++ [wire] ∧
          parseDCPFrame wire = .ok (setResponse f.xid (f.blocks.map setAnswer))
      else d'.sent = d.sent := by
  obtain ⟨d, hrun, hnext, -⟩ := runFrames_snoc cfg localMAC payloads payload
  have hidentify : f.isIdentifyRequest = false := by
    by_contra h
    rw [isSetRequest_of_isIdentifyRequest (Bool.not_eq_false _ ▸ h)] at hset
    exact Bool.false_ne_true hset
  refine ⟨d, _, hrun, hnext, ?_, ?_⟩
  · simp [afterPayload, setBlocks, setRequest, hparse, hset]
  · have hanswer : answerToPayload localMAC d.r payload =
        some (setResponse f.xid (f.blocks.map setAnswer)) := by
      simp [answerToPayload, answerTo, hparse, hset, hidentify]
    have hlength := length_setAnswers f.blocks
    have hsent := answered_afterPayload hanswer
    rw [Answered, setResponse, hlength] at hsent
    exact hsent

/-- Names the station `a`. -/
def nameRequest : DCPFrame where
  frameID := frameIDDCPGetSet
  serviceID := dcpServiceSet
  serviceType := dcpServiceTypeRequest
  xid := 1
  blocks := [⟨dcpOptionDeviceProperties, dcpSubOptionDevNameOfStation, [0, 0, 0x61]⟩]

def unnamed : DCPResponderConfig where
  stationName := []
  vendorName := []
  vendorID := 0
  deviceID := 0

theorem set_answered_nameRequest :
    letI := ethernet
    ∃ d d', runFrames ⟨[0, 0, 0, 0, 0, 1], rfl⟩ (startDCP unnamed) [] = .ok d ∧
      runFrames ⟨[0, 0, 0, 0, 0, 1], rfl⟩ (startDCP unnamed) [marshalDCPFrame nameRequest] =
        .ok d' ∧
      d'.r = assignedTo d.r nameRequest.blocks ∧
      ∃ wire, d'.sent = d.sent ++ [wire] ∧ parseDCPFrame wire =
        .ok (setResponse 1 [dcpBlockControlResponse 0x02 0x02 0x00]) := by
  let _ := ethernet
  have hparse : parseDCPFrame (marshalDCPFrame nameRequest) = .ok nameRequest := by
    have h := parseDCPFrame_marshalDCPFrame nameRequest [] (by decide)
    rwa [List.append_nil] at h
  exact set_answered unnamed ⟨[0, 0, 0, 0, 0, 1], rfl⟩ [] hparse rfl

theorem setBlocks_of_not_isSetRequest {payload : Bytes} {f : DCPFrame}
    (hparse : parseDCPFrame payload = .ok f) (h : f.isSetRequest = false) :
    setBlocks [payload] = [] := by
  simp [setBlocks, setRequest, hparse, h]

theorem not_isSetRequest_of_isGetRequest {f : DCPFrame} (h : f.isGetRequest) :
    f.isIdentifyRequest = false ∧ f.isSetRequest = false := by
  simp only [DCPFrame.isGetRequest, decide_eq_true_eq] at h
  simp [DCPFrame.isIdentifyRequest, DCPFrame.isSetRequest, h.1, h.2.1, frameIDDCPIdentReq,
    frameIDDCPGetSet, dcpServiceGet, dcpServiceSet]

/-- After any run, a Get request is answered from the last assigned name and suite, and so is an
Identify request if its filter lets the device through under that name. -/
theorem assigned_readBack [EthernetLink] (cfg : DCPResponderConfig) (localMAC : HardwareAddr)
    (payloads : List Bytes) {payload : Bytes} {f : DCPFrame}
    (hparse : parseDCPFrame payload = .ok f) :
    ∃ d d', runFrames localMAC (startDCP cfg) payloads = .ok d ∧
      runFrames localMAC (startDCP cfg) (payloads ++ [payload]) = .ok d' ∧
      let r := assignedTo (newDCPResponder cfg) (setBlocks payloads)
      (f.isGetRequest → d'.r = r ∧ Answered d d' (handleGet r f)) ∧
      (f.isIdentifyRequest → d'.r = r ∧
        (∀ resp ∈ handleIdentify r localMAC f, Answered d d' resp) ∧
        (handleIdentify r localMAC f = none → d'.sent = d.sent)) := by
  obtain ⟨d, hrun, hnext, hr⟩ := runFrames_snoc cfg localMAC payloads payload
  refine ⟨d, _, hrun, hnext, ?_, ?_⟩
  · intro hget
    obtain ⟨hidentify, hset⟩ := not_isSetRequest_of_isGetRequest hget
    have hblocks := setBlocks_of_not_isSetRequest hparse hset
    rw [← hr]
    refine ⟨by rw [afterPayload, hblocks]; rfl, answered_afterPayload ?_⟩
    simp [answerToPayload, answerTo, hparse, hset, hidentify, hget]
  · intro hidentify
    have hblocks := setBlocks_of_not_isSetRequest hparse
      (isSetRequest_of_isIdentifyRequest hidentify)
    have hanswer : answerToPayload localMAC d.r payload = handleIdentify d.r localMAC f := by
      simp [answerToPayload, answerTo, hparse, hidentify]
    rw [← hr]
    refine ⟨by rw [afterPayload, hblocks]; rfl, ?_, ?_⟩
    · intro resp hresp
      exact answered_afterPayload (hanswer.trans hresp)
    · intro hnone
      simp [afterPayload, hanswer, hnone]

theorem assigned_readBack_identifyAll :
    letI := ethernet
    ∃ d d', runFrames ⟨[0, 0, 0, 0, 0, 1], rfl⟩ (startDCP unnamed)
        [marshalDCPFrame nameRequest] = .ok d ∧
      runFrames ⟨[0, 0, 0, 0, 0, 1], rfl⟩ (startDCP unnamed)
        [marshalDCPFrame nameRequest, marshalDCPFrame identifyAll] = .ok d' ∧
      let r := assignedTo (newDCPResponder unnamed) (setBlocks [marshalDCPFrame nameRequest])
      d'.r = r ∧ ∀ resp ∈ handleIdentify r ⟨[0, 0, 0, 0, 0, 1], rfl⟩ identifyAll,
        Answered d d' resp := by
  let _ := ethernet
  have hparse : parseDCPFrame (marshalDCPFrame identifyAll) = .ok identifyAll := by
    have h := parseDCPFrame_marshalDCPFrame identifyAll [] (by decide)
    rwa [List.append_nil] at h
  obtain ⟨d, d', hrun, hnext, -, hidentify⟩ :=
    assigned_readBack unnamed ⟨[0, 0, 0, 0, 0, 1], rfl⟩ [marshalDCPFrame nameRequest] hparse
  exact ⟨d, d', hrun, hnext, (hidentify rfl).1, (hidentify rfl).2.1⟩

end ProfinetDcp
