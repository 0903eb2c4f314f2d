import Tentacle.ProfinetBlocks

/-!
# Discovery

A DCP frame is a header and a list of blocks, each padded to an even length. The device
answers an Identify request with its name, its IDs and its IP suite, every block of
which begins with two bytes of block information. The controller skips them for the
name and the IDs, but not for the IP suite, so that it reads the addresses two bytes
too early.
-/

namespace ProfinetDcp

open GoValues GoSlices BigEndian Outcome ProfinetBlocks

def frameIDDCPIdentReq : UInt16 := 0xFEFE
def frameIDDCPIdentResp : UInt16 := 0xFEFF

def dcpServiceIdentify : UInt8 := 0x05
def dcpServiceTypeRequest : UInt8 := 0x00
def dcpServiceTypeResponse : UInt8 := 0x01

def dcpOptionIP : UInt8 := 0x01
def dcpOptionDeviceProperties : UInt8 := 0x02
def dcpOptionDHCP : UInt8 := 0x03
def dcpOptionAllSelector : UInt8 := 0xFF

def dcpSubOptionIPSuite : UInt8 := 0x02
def dcpSubOptionDevVendor : UInt8 := 0x01
def dcpSubOptionDevNameOfStation : UInt8 := 0x02
def dcpSubOptionDevID : UInt8 := 0x03
def dcpSubOptionDevRole : UInt8 := 0x04
def dcpSubOptionDevOptions : UInt8 := 0x05
def dcpSubOptionDevAlias : UInt8 := 0x06
def dcpSubOptionDevInstance : UInt8 := 0x07

def dcpBlockInfoIPNotSet : UInt16 := 0x0000
def dcpBlockInfoIPSet : UInt16 := 0x0001

def deviceRoleIODevice : UInt8 := 0x01

/-! ## Frames -/

structure DCPBlock where
  option : UInt8
  subOption : UInt8
  data : Bytes
  deriving DecidableEq, Repr

structure DCPFrame where
  frameID : UInt16
  serviceID : UInt8
  serviceType : UInt8
  xid : UInt32
  responseDelay : UInt16 := 0
  blocks : List DCPBlock
  deriving DecidableEq, Repr

/-- `DCP frame too short: %d bytes` and `IP suite block too short: %d bytes`. -/
inductive DCPError where
  | frameTooShort (got : Nat)
  | ipSuiteTooShort (got : Nat)
  deriving DecidableEq, Repr

/-- The loop over the blocks up to the end of the DCP data. -/
def dcpBlocks (data : Bytes) (stop offset : Nat) : Outcome DCPError (List DCPBlock) :=
  if offset + 4 ≤ stop then do
    let option ← index data offset
    let subOption ← index data (offset + 1)
    let blockLen := (← uint16 data (offset + 2) (offset + 4)).toNat
    if stop < offset + 4 + blockLen then return []
    else
      let payload ← makeSlice 0 blockLen
      let payload ← copyFrom payload 0 (← slice data (offset + 4) (offset + 4 + blockLen))
      let blocks ← dcpBlocks data stop (offset + 4 + blockLen + blockLen % 2)
      return ⟨option, subOption, payload⟩ :: blocks
  else .ok []
  termination_by stop - offset

def parseDCPFrame (data : Bytes) : Outcome DCPError DCPFrame :=
  if data.length < 12 then .err (.frameTooShort data.length)
  else do
    let frameID ← uint16 data 0 2
    let serviceID ← index data 2
    let serviceType ← index data 3
    let xid ← uint32 data 4 8
    let responseDelay ← uint16 data 8 10
    let dcpDataLen ← uint16 data 10 12
    let blocks ← dcpBlocks data (min (12 + dcpDataLen.toNat) data.length) 12
    return {
      frameID := frameID
      serviceID := serviceID
      serviceType := serviceType
      xid := xid
      responseDelay := responseDelay
      blocks := blocks }

def marshalDCPBlock (block : DCPBlock) : Bytes :=
  [block.option] ++ [block.subOption] ++ putUint 2 (UInt16.ofNat block.data.length).toNat ++
    block.data ++ List.replicate (block.data.length % 2) 0

def marshalDCPFrame (f : DCPFrame) : Bytes :=
  let blockData := f.blocks.flatMap marshalDCPBlock
  putUint 2 f.frameID.toNat ++ [f.serviceID] ++ [f.serviceType] ++ putUint 4 f.xid.toNat ++
    putUint 2 f.responseDelay.toNat ++ putUint 2 (UInt16.ofNat blockData.length).toNat ++ blockData

/-! ## The responder of the device -/

/-- An IPv4 address. -/
abbrev IP := FixedBytes 4

def ipv4Zero : IP := ⟨[0, 0, 0, 0], rfl⟩

/-- The state of the responder; every place that sets the address sets the flag with it. -/
structure DCPResponder where
  stationName : Bytes
  vendorName : Bytes
  vendorID : UInt16
  deviceID : UInt16
  ip : IP
  mask : IP
  gateway : IP
  ipSet : Bool
  ipSet_eq : ipSet = decide (ip ≠ ipv4Zero)

structure DCPResponderConfig where
  stationName : Bytes
  vendorName : Bytes
  vendorID : UInt16
  deviceID : UInt16
  ip : Option IP := none
  mask : Option IP := none
  gateway : Option IP := none

def newDCPResponder (cfg : DCPResponderConfig) : DCPResponder where
  stationName := cfg.stationName
  vendorName := cfg.vendorName
  vendorID := cfg.vendorID
  deviceID := cfg.deviceID
  ip := cfg.ip.getD ipv4Zero
  mask := cfg.mask.getD ipv4Zero
  gateway := cfg.gateway.getD ipv4Zero
  ipSet := cfg.ip.getD ipv4Zero ≠ ipv4Zero
  ipSet_eq := rfl

def dcpBlockNameOfStation (name : Bytes) : DCPBlock where
  option := dcpOptionDeviceProperties
  subOption := dcpSubOptionDevNameOfStation
  data := putUint 2 (0 : UInt16).toNat ++ name

def dcpBlockVendor (vendor : Bytes) : DCPBlock where
  option := dcpOptionDeviceProperties
  subOption := dcpSubOptionDevVendor
  data := putUint 2 (0 : UInt16).toNat ++ vendor

def dcpBlockDeviceID (vendorID deviceID : UInt16) : DCPBlock where
  option := dcpOptionDeviceProperties
  subOption := dcpSubOptionDevID
  data := putUint 2 (0 : UInt16).toNat ++ putUint 2 vendorID.toNat ++ putUint 2 deviceID.toNat

def dcpBlockDeviceRole (role : UInt8) : DCPBlock where
  option := dcpOptionDeviceProperties
  subOption := dcpSubOptionDevRole
  data := [0x00, 0x00, role, 0x00]

def dcpBlockDeviceInstance (high low : UInt8) : DCPBlock where
  option := dcpOptionDeviceProperties
  subOption := dcpSubOptionDevInstance
  data := [0x00, 0x00, high, low]

def dcpBlockIPSuite (ip mask gateway : IP) (blockInfo : UInt16) : DCPBlock where
  option := dcpOptionIP
  subOption := dcpSubOptionIPSuite
  data := putUint 2 blockInfo.toNat ++ ip.val ++ mask.val ++ gateway.val

def dcpBlockDHCPClientID (mac : HardwareAddr) : DCPBlock where
  option := dcpOptionDHCP
  subOption := 0x3D
  data := putUint 2 (0 : UInt16).toNat ++ [0x01] ++ mac.val

def dcpBlockDeviceOptions (options : List DCPBlock) : DCPBlock where
  option := dcpOptionDeviceProperties
  subOption := dcpSubOptionDevOptions
  data := putUint 2 (0 : UInt16).toNat ++ options.flatMap fun opt => [opt.option, opt.subOption]

def DCPFrame.isIdentifyRequest (f : DCPFrame) : Bool :=
  f.frameID = frameIDDCPIdentReq ∧ f.serviceID = dcpServiceIdentify ∧
    f.serviceType = dcpServiceTypeRequest

/-- Whether a filter block lets the device through. -/
def matchesBlock (stationName : Bytes) (vendorID deviceID : UInt16) (block : DCPBlock) : Bool :=
  if block.option = dcpOptionAllSelector ∧ block.subOption = 0xFF then true
  else if block.option = dcpOptionDeviceProperties ∧
      block.subOption = dcpSubOptionDevNameOfStation then
    block.data = stationName
  else if block.option = dcpOptionDeviceProperties ∧ block.subOption = dcpSubOptionDevID then
    4 ≤ block.data.length ∧ UInt16.ofNat (uint (block.data.take 2)) = vendorID ∧
      UInt16.ofNat (uint ((block.data.drop 2).take 2)) = deviceID
  else if block.option = dcpOptionDeviceProperties ∧ block.subOption = dcpSubOptionDevAlias then
    false
  else true

def DCPFrame.matchesFilter (f : DCPFrame) (stationName : Bytes) (vendorID deviceID : UInt16) :
    Bool :=
  f.isIdentifyRequest && f.blocks.all (matchesBlock stationName vendorID deviceID)

def identifyBlocks (r : DCPResponder) (localMAC : HardwareAddr) : List DCPBlock :=
  let ipBlockInfo := if r.ipSet then dcpBlockInfoIPSet else dcpBlockInfoIPNotSet
  let blocks := [
    dcpBlockNameOfStation r.stationName,
    dcpBlockVendor r.vendorName,
    dcpBlockDeviceID r.vendorID r.deviceID,
    dcpBlockDeviceRole deviceRoleIODevice,
    dcpBlockDeviceInstance 0x00 0x01,
    dcpBlockIPSuite r.ip r.mask r.gateway ipBlockInfo,
    dcpBlockDHCPClientID localMAC]
  blocks ++ [dcpBlockDeviceOptions blocks]

/-- The answer to an Identify request, if the filter lets it through. -/
def handleIdentify (r : DCPResponder) (localMAC : HardwareAddr) (req : DCPFrame) :
    Option DCPFrame :=
  if req.matchesFilter r.stationName r.vendorID r.deviceID then
    some {
      frameID := frameIDDCPIdentResp
      serviceID := dcpServiceIdentify
      serviceType := dcpServiceTypeResponse
      xid := req.xid
      blocks := identifyBlocks r localMAC }
  else none

/-- The network interface. The write of a frame with a larger payload fails. -/
class EthernetLink where
  maxPayload : Nat
  maxPayload_lt : maxPayload < 65536

@[reducible] def ethernet : EthernetLink := ⟨1500, by decide⟩

/-- The payload that `SendFrame` puts on the wire, padded to the least payload of a frame. -/
def sendFrame [EthernetLink] (payload : Bytes) : Option Bytes :=
  if payload.length ≤ EthernetLink.maxPayload then
    some (payload ++ List.replicate (46 - payload.length) 0)
  else none

def sendDCPResponse [EthernetLink] (frame : DCPFrame) : Option Bytes :=
  sendFrame (marshalDCPFrame frame)

/-! ## The client of the controller -/

structure DiscoveredDevice where
  mac : HardwareAddr
  stationName : Bytes := []
  vendorID : UInt16 := 0
  deviceID : UInt16 := 0
  ip : Option IP := none
  mask : Option IP := none
  gateway : Option IP := none
  deriving DecidableEq, Repr

def parseIPSuiteBlock (data : Bytes) : Outcome DCPError (IP × IP × IP) :=
  if data.length < 12 then .err (.ipSuiteTooShort data.length)
  else do
    let ip ← slice data 0 4
    let mask ← slice data 4 8
    let gateway ← slice data 8 12
    return (.copy 4 ip, .copy 4 mask, .copy 4 gateway)

/-- One round of the loop of `parseDCPResponse`. -/
def takeDCPBlock (dev : DiscoveredDevice) (block : DCPBlock) : Outcome DCPError DiscoveredDevice :=
  if block.option = dcpOptionDeviceProperties ∧
      block.subOption = dcpSubOptionDevNameOfStation then
    if 2 ≤ block.data.length then do
      return { dev with stationName := ← sliceFrom block.data 2 }
    else .ok dev
  else if block.option = dcpOptionDeviceProperties ∧ block.subOption = dcpSubOptionDevID then
    if 6 ≤ block.data.length then do
      return { dev with
        vendorID := ← uint16 block.data 2 4
        deviceID := ← uint16 block.data 4 6 }
    else .ok dev
  else if block.option = dcpOptionIP ∧ block.subOption = dcpSubOptionIPSuite then do
    match ← (parseIPSuiteBlock block.data).attempt with
    | .error _ => return { dev with ip := none, mask := none, gateway := none }
    | .ok (ip, mask, gateway) =>
      return { dev with ip := some ip, mask := some mask, gateway := some gateway }
  else .ok dev

def parseDCPResponse (frame : DCPFrame) (srcMAC : HardwareAddr) :
    Outcome DCPError DiscoveredDevice :=
  frame.blocks.foldlM takeDCPBlock { mac := srcMAC }

/-- What the controller makes of a received payload. -/
def discover (payload : Bytes) (srcMAC : HardwareAddr) : Outcome DCPError DiscoveredDevice := do
  parseDCPResponse (← parseDCPFrame payload) srcMAC

/-! ## The frame is read back -/

theorem length_marshalDCPBlock (block : DCPBlock) :
    (marshalDCPBlock block).length = 4 + block.data.length + block.data.length % 2 := by
  simp [marshalDCPBlock]
  omega

/-- Blocks that are written one behind the other are read back. -/
theorem dcpBlocks_marshal (blocks : List DCPBlock) {data rest : Bytes} {stop offset : Nat}
    (hblocks : ∀ block ∈ blocks, block.data.length < 65536)
    (h : At data offset (blocks.flatMap marshalDCPBlock ++ rest))
    (hstop : offset + (blocks.flatMap marshalDCPBlock).length = stop) :
    dcpBlocks data stop offset = .ok blocks := by
  induction blocks generalizing offset with
  | nil =>
    have hend : offset + 0 = stop := hstop
    rw [dcpBlocks, if_neg (by omega)]
  | cons block blocks ih =>
    have hlen : (UInt16.ofNat block.data.length).toNat = block.data.length :=
      UInt16.toNat_ofNat_of_lt' (hblocks block (by simp))
    rw [List.flatMap_cons, List.append_assoc] at h
    rw [List.flatMap_cons, List.length_append, length_marshalDCPBlock] at hstop
    have hnext := ih (fun b hb => hblocks b (by simp [hb])) (h.next (length_marshalDCPBlock block))
      (by omega)
    rw [← Nat.add_assoc, ← Nat.add_assoc] at hnext
    rw [marshalDCPBlock] at h
    simp only [List.append_assoc, List.cons_append, List.nil_append] at h
    have h1 := h.tail
    have h2 := h1.tail
    have h4 := h2.next (length_putUint 2 _)
    rw [dcpBlocks, if_pos (by omega), h.index, ok_bind, h1.index, ok_bind, h2.uint16 rfl, ok_bind]
    dsimp only
    rw [hlen, if_neg (by omega), makeSlice_ok, ok_bind, h4.slice rfl, ok_bind,
      copyFrom_of_length (by simp), ok_bind, hnext]
    rfl

/-- A frame comes back from its bytes, also with padding behind them. -/
theorem parseDCPFrame_marshalDCPFrame (f : DCPFrame) (padding : Bytes)
    (h : (f.blocks.flatMap marshalDCPBlock).length < 65536) :
    parseDCPFrame (marshalDCPFrame f ++ padding) = .ok f := by
  have hlen : (UInt16.ofNat (f.blocks.flatMap marshalDCPBlock).length).toNat =
      (f.blocks.flatMap marshalDCPBlock).length := UInt16.toNat_ofNat_of_lt' h
  have hblocks : ∀ block ∈ f.blocks, block.data.length < 65536 := by
    intro block hblock
    have hle := length_le_flatMap marshalDCPBlock hblock
    rw [length_marshalDCPBlock] at hle
    omega
  obtain ⟨data, hdata⟩ : ∃ data, data = marshalDCPFrame f ++ padding := ⟨_, rfl⟩
  have h0 := At.start hdata
  have hlength := h0.length
  rw [marshalDCPFrame] at h0 hlength
  simp only [List.append_assoc, List.cons_append, List.nil_append] at h0
  simp only [List.length_append, length_putUint, List.length_singleton] at hlength
  have h2 := h0.next (length_putUint 2 _)
  have h3 := h2.tail
  have h4 := h3.tail
  have h8 := h4.next (length_putUint 4 _)
  have h10 := h8.next (length_putUint 2 _)
  have h12 := h10.next (length_putUint 2 _)
  have hread := dcpBlocks_marshal f.blocks hblocks h12 rfl
  have hstop : min (12 + (f.blocks.flatMap marshalDCPBlock).length) data.length =
      0 + 2 + 1 + 1 + 4 + 2 + 2 + (f.blocks.flatMap marshalDCPBlock).length := by omega
  rw [← hdata, parseDCPFrame, if_neg (by omega), h0.uint16 rfl, ok_bind, h2.index, ok_bind,
    h3.index, ok_bind, h4.uint32 rfl, ok_bind, h8.uint16 rfl, ok_bind, h10.uint16 rfl, ok_bind,
    hlen, hstop, hread]
  rfl

/-- What is sent is the frame with some padding behind it. -/
theorem sendFrame_eq_some [EthernetLink] {payload wire : Bytes}
    (h : sendFrame payload = some wire) :
    ∃ padding, wire = payload ++ padding := by
  rw [sendFrame] at h
  split at h
  next => exact ⟨_, (Option.some.inj h).symm⟩
  next => cases h

/-- A frame whose blocks take less than 65536 bytes is read back as it is, whatever padding follows
it; so it is as `SendFrame` puts it on the wire. -/
theorem frame_roundTrip [EthernetLink] (f : DCPFrame)
    (h : (f.blocks.flatMap marshalDCPBlock).length < 65536) :
    (∀ padding, parseDCPFrame (marshalDCPFrame f ++ padding) = .ok f) ∧
      ∀ wire, sendDCPResponse f = some wire → parseDCPFrame wire = .ok f := by
  refine ⟨fun padding => parseDCPFrame_marshalDCPFrame f padding h, ?_⟩
  intro wire hsend
  obtain ⟨padding, rfl⟩ := sendFrame_eq_some hsend
  exact parseDCPFrame_marshalDCPFrame f padding h

/-- Two blocks, of which the first has an odd length. -/
def oddFrame : DCPFrame where
  frameID := frameIDDCPIdentResp
  serviceID := dcpServiceIdentify
  serviceType := dcpServiceTypeResponse
  xid := 7
  blocks := [⟨dcpOptionDeviceProperties, dcpSubOptionDevNameOfStation, [0, 0, 0x61]⟩,
    ⟨dcpOptionIP, dcpSubOptionIPSuite, []⟩]

theorem frame_roundTrip_oddFrame :
    parseDCPFrame (marshalDCPFrame oddFrame ++ [0, 0, 0]) = .ok oddFrame :=
  (@frame_roundTrip ethernet oddFrame (by decide)).1 [0, 0, 0]

/-! ## The agreement -/

def responseLength (r : DCPResponder) : Nat :=
  102 + (r.stationName.length + r.stationName.length % 2) +
    (r.vendorName.length + r.vendorName.length % 2)

/-- The blocks of an answer have the length that it says. -/
theorem length_identifyBlocks (r : DCPResponder) (localMAC : HardwareAddr) :
    12 + ((identifyBlocks r localMAC).flatMap marshalDCPBlock).length = responseLength r := by
  have hip := r.ip.property
  have hmask := r.mask.property
  have hgateway := r.gateway.property
  have hmac := localMAC.property
  simp [identifyBlocks, length_marshalDCPBlock, dcpBlockNameOfStation, dcpBlockVendor,
    dcpBlockDeviceID, dcpBlockDeviceRole, dcpBlockDeviceInstance, dcpBlockIPSuite,
    dcpBlockDHCPClientID, dcpBlockDeviceOptions, responseLength, hip, hmask, hgateway, hmac]
  omega

section

variable (dev : DiscoveredDevice) {block : DCPBlock} {info : Bytes}

/-- The block of the name gives the name, without the two bytes in front. -/
theorem takeDCPBlock_name {name : Bytes} (hoption : block.option = dcpOptionDeviceProperties)
    (hsub : block.subOption = dcpSubOptionDevNameOfStation) (hinfo : info.length = 2)
    (hdata : block.data = info ++ name) :
    takeDCPBlock dev block = .ok { dev with stationName := name } := by
  have h0 := At.start hdata
  have hlength := h0.length
  rw [List.length_append] at hlength
  have hname : (sliceFrom block.data 2 : Outcome DCPError _) = .ok name :=
    (h0.next hinfo).sliceFrom
  rw [takeDCPBlock, if_pos ⟨hoption, hsub⟩, if_pos (by omega), hname]
  rfl

theorem takeDCPBlock_deviceID {vendorID deviceID : UInt16}
    (hoption : block.option = dcpOptionDeviceProperties)
    (hsub : block.subOption = dcpSubOptionDevID) (hinfo : info.length = 2)
    (hdata : block.data = info ++ (putUint 2 vendorID.toNat ++ (putUint 2 deviceID.toNat ++ []))) :
    takeDCPBlock dev block =
      .ok { dev with
        vendorID := vendorID
        deviceID := deviceID } := by
  have h0 := At.start hdata
  have hlength := h0.length
  simp only [List.length_append, length_putUint, List.length_nil] at hlength
  have h2 := h0.next hinfo
  have h4 := h2.next (length_putUint 2 _)
  have hname : ¬(block.option = dcpOptionDeviceProperties ∧
      block.subOption = dcpSubOptionDevNameOfStation) := by
    rw [hsub]
    exact fun h => absurd h.2 (by decide)
  rw [takeDCPBlock, if_neg hname, if_pos ⟨hoption, hsub⟩, if_pos (by omega), h2.uint16 rfl,
    ok_bind, h4.uint16 rfl]
  rfl

/-- The twelve bytes of the addresses are taken from the beginning of the block. -/
theorem takeDCPBlock_ipSuite {ip mask gateway rest : Bytes} (hoption : block.option = dcpOptionIP)
    (hsub : block.subOption = dcpSubOptionIPSuite) (hip : ip.length = 4) (hmask : mask.length = 4)
    (hgateway : gateway.length = 4) (hdata : block.data = ip ++ (mask ++ (gateway ++ rest))) :
    takeDCPBlock dev block =
      .ok { dev with
        ip := some ⟨ip, hip⟩
        mask := some ⟨mask, hmask⟩
        gateway := some ⟨gateway, hgateway⟩ } := by
  have h0 := At.start hdata
  have hlength := h0.length
  simp only [List.length_append] at hlength
  have h4 := h0.next hip
  have h8 := h4.next hmask
  have hparse : parseIPSuiteBlock block.data =
      .ok (⟨ip, hip⟩, ⟨mask, hmask⟩, ⟨gateway, hgateway⟩) := by
    rw [parseIPSuiteBlock, if_neg (by omega), h0.slice (by rw [hip]), ok_bind,
      h4.slice (by rw [hmask]), ok_bind, h8.slice (by rw [hgateway]), ok_bind]
    rw [FixedBytes.copy_val ⟨ip, hip⟩, FixedBytes.copy_val ⟨mask, hmask⟩,
      FixedBytes.copy_val ⟨gateway, hgateway⟩]
    rfl
  have hproperties : block.option ≠ dcpOptionDeviceProperties := by
    rw [hoption]
    decide
  rw [takeDCPBlock, if_neg fun h => hproperties h.1, if_neg fun h => hproperties h.1,
    if_pos ⟨hoption, hsub⟩, hparse]
  rfl

theorem takeDCPBlock_other {s : UInt8} (hsub : block.subOption = s)
    (hs : s ≠ dcpSubOptionDevNameOfStation ∧ s ≠ dcpSubOptionDevID) :
    takeDCPBlock dev block = .ok dev := by
  rw [← hsub] at hs
  rw [takeDCPBlock, if_neg fun h => hs.1 h.2, if_neg fun h => hs.2 h.2, if_neg fun h => hs.1 h.2]

end

/-- The address that is read two bytes too early: the last two bytes of what stands before
the address, and its first two. -/
def readEarly (before address : IP) : IP :=
  ⟨before.val.drop 2 ++ address.val.take 2, by
    have hbefore := before.property
    have haddress := address.property
    simp [hbefore, haddress]⟩

/-- The block information, as the last two bytes of an address. -/
def blockInfo (r : DCPResponder) : IP :=
  if r.ip = ipv4Zero then ipv4Zero else ⟨[0, 0, 0, 1], rfl⟩

/-- The info of the address says whether it is set. -/
theorem putUint_ipBlockInfo (r : DCPResponder) :
    putUint 2 (if r.ipSet then dcpBlockInfoIPSet else dcpBlockInfoIPNotSet).toNat =
      (blockInfo r).val.drop 2 := by
  rw [r.ipSet_eq, blockInfo]
  by_cases h : r.ip = ipv4Zero
  · rw [if_pos h, if_neg (by simpa using h)]
    rfl
  · rw [if_neg h, if_pos (by simpa using h)]
    rfl

/-- What the controller makes of the answer. -/
def readDevice (r : DCPResponder) (srcMAC : HardwareAddr) : DiscoveredDevice where
  mac := srcMAC
  stationName := r.stationName
  vendorID := r.vendorID
  deviceID := r.deviceID
  ip := some (readEarly (blockInfo r) r.ip)
  mask := some (readEarly r.ip r.mask)
  gateway := some (readEarly r.mask r.gateway)

/-- The block of the addresses, cut where a reader that starts two bytes early cuts it. -/
theorem data_dcpBlockIPSuite (r : DCPResponder) :
    (dcpBlockIPSuite r.ip r.mask r.gateway
      (if r.ipSet then dcpBlockInfoIPSet else dcpBlockInfoIPNotSet)).data =
      (readEarly (blockInfo r) r.ip).val ++ ((readEarly r.ip r.mask).val ++
        ((readEarly r.mask r.gateway).val ++ r.gateway.val.drop 2)) := by
  rw [dcpBlockIPSuite]
  dsimp only
  rw [putUint_ipBlockInfo]
  simp only [readEarly, List.append_assoc]
  rw [← List.append_assoc (r.ip.val.take 2), List.take_append_drop,
    ← List.append_assoc (r.mask.val.take 2), List.take_append_drop, List.take_append_drop]

/-- An answer is read as the device that sent it, with the address read too early. -/
theorem parseDCPResponse_identifyBlocks (r : DCPResponder) (localMAC srcMAC : HardwareAddr)
    {frame : DCPFrame} (h : frame.blocks = identifyBlocks r localMAC) :
    parseDCPResponse frame srcMAC = .ok (readDevice r srcMAC) := by
  have hid : (dcpBlockDeviceID r.vendorID r.deviceID).data =
      putUint 2 (0 : UInt16).toNat ++
        (putUint 2 r.vendorID.toNat ++ (putUint 2 r.deviceID.toNat ++ [])) := by
    rw [List.append_nil, ← List.append_assoc]
    rfl
  rw [parseDCPResponse, h, identifyBlocks]
  simp only [List.cons_append, List.nil_append, List.foldlM_cons, List.foldlM_nil]
  rw [takeDCPBlock_name _ rfl rfl (length_putUint 2 _) rfl, ok_bind,
    takeDCPBlock_other _ (s := dcpSubOptionDevVendor) rfl (by decide), ok_bind,
    takeDCPBlock_deviceID _ rfl rfl (length_putUint 2 _) hid, ok_bind,
    takeDCPBlock_other _ (s := dcpSubOptionDevRole) rfl (by decide), ok_bind,
    takeDCPBlock_other _ (s := dcpSubOptionDevInstance) rfl (by decide), ok_bind,
    takeDCPBlock_ipSuite _ rfl rfl (readEarly _ _).property (readEarly _ _).property
      (readEarly _ _).property (data_dcpBlockIPSuite r), ok_bind,
    takeDCPBlock_other _ (s := 0x3D) rfl (by decide), ok_bind,
    takeDCPBlock_other _ (s := dcpSubOptionDevOptions) rfl (by decide), ok_bind]
  rfl

/-- The payload of the answer, and what the controller makes of it. -/
theorem discover_response [EthernetLink] {r : DCPResponder} {localMAC : HardwareAddr}
    (srcMAC : HardwareAddr) {req : DCPFrame} {payload : Bytes}
    (h : (handleIdentify r localMAC req).bind sendDCPResponse = some payload) :
    discover payload srcMAC = .ok (readDevice r srcMAC) := by
  obtain ⟨frame, hframe, hsend⟩ := Option.bind_eq_some_iff.mp h
  rw [handleIdentify, Option.ite_none_right_eq_some] at hframe
  rw [sendDCPResponse, sendFrame, Option.ite_none_right_eq_some] at hsend
  obtain ⟨-, hframe⟩ := hframe
  obtain ⟨hsize, hsend⟩ := hsend
  have hblocks : frame.blocks = identifyBlocks r localMAC := by
    rw [← Option.some.inj hframe]
  have hlength : (frame.blocks.flatMap marshalDCPBlock).length < 65536 := by
    have hmax := EthernetLink.maxPayload_lt
    simp [marshalDCPFrame] at hsize
    simp
    omega
  rw [← Option.some.inj hsend, discover, parseDCPFrame_marshalDCPFrame frame _ hlength, ok_bind,
    parseDCPResponse_identifyBlocks r localMAC srcMAC hblocks]

/-- The device is known to the controller as it is. -/
def Recovers (dev : DiscoveredDevice) (r : DCPResponder) : Prop :=
  dev.stationName = r.stationName ∧ dev.vendorID = r.vendorID ∧ dev.deviceID = r.deviceID ∧
    dev.ip = some r.ip ∧ dev.mask = some r.mask ∧ dev.gateway = some r.gateway

/-- Every answer that the device sends makes it known to the controller as it is. -/
def Agrees [EthernetLink] (r : DCPResponder) (localMAC srcMAC : HardwareAddr) : Prop :=
  ∀ req payload, (handleIdentify r localMAC req).bind sendDCPResponse = some payload →
    ∃ dev, discover payload srcMAC = .ok dev ∧ Recovers dev r

/-- The request without a filter. -/
def identifyAll : DCPFrame where
  frameID := frameIDDCPIdentReq
  serviceID := dcpServiceIdentify
  serviceType := dcpServiceTypeRequest
  xid := 1
  blocks := [⟨dcpOptionAllSelector, 0xFF, []⟩]

theorem identifyAll_matchesFilter (stationName : Bytes) (vendorID deviceID : UInt16) :
    identifyAll.matchesFilter stationName vendorID deviceID = true := by
  rfl

/-- A device whose answer fits into a frame is read as `readDevice` says. -/
theorem agrees_iff_recovers [EthernetLink] {r : DCPResponder} (localMAC srcMAC : HardwareAddr)
    (h : responseLength r ≤ EthernetLink.maxPayload) :
    Agrees r localMAC srcMAC ↔ Recovers (readDevice r srcMAC) r := by
  constructor
  · intro hagrees
    have hsend : ∃ payload,
        (handleIdentify r localMAC identifyAll).bind sendDCPResponse = some payload := by
      rw [handleIdentify, if_pos (identifyAll_matchesFilter _ _ _), Option.bind_some,
        sendDCPResponse, sendFrame, if_pos]
      · exact ⟨_, rfl⟩
      · rw [← length_identifyBlocks r localMAC] at h
        simp only [marshalDCPFrame, List.length_append, length_putUint, List.length_singleton]
        omega
    obtain ⟨payload, hsend⟩ := hsend
    obtain ⟨dev, hdev, hrecovers⟩ := hagrees identifyAll payload hsend
    rw [discover_response srcMAC hsend] at hdev
    rwa [Outcome.ok.inj hdev]
  · intro hrecovers req payload hsend
    exact ⟨_, discover_response srcMAC hsend, hrecovers⟩

/-- Nothing is sent where the answer is longer than a frame. -/
theorem response_of_too_long [EthernetLink] {r : DCPResponder} (localMAC : HardwareAddr)
    (req : DCPFrame) (h : EthernetLink.maxPayload < responseLength r) :
    (handleIdentify r localMAC req).bind sendDCPResponse = none := by
  rw [handleIdentify]
  split
  · rw [← length_identifyBlocks r localMAC] at h
    rw [Option.bind_some, sendDCPResponse, sendFrame, if_neg]
    simp only [marshalDCPFrame, List.length_append, length_putUint, List.length_singleton]
    omega
  · rfl

/-- An address that is read early is right when both its halves are what stands before it. -/
theorem readEarly_eq_iff {before address : IP} :
    readEarly before address = address ↔
      address.val = before.val.drop 2 ++ before.val.drop 2 := by
  obtain ⟨before, hbefore⟩ := before
  obtain ⟨address, haddress⟩ := address
  match before, address with
  | [b0, b1, b2, b3], [a0, a1, a2, a3] =>
    simp only [readEarly, Subtype.mk.injEq, List.drop, List.take, List.cons_append,
      List.nil_append, List.cons.injEq, and_true]
    constructor
    · rintro ⟨rfl, rfl, rfl, rfl⟩
      exact ⟨rfl, rfl, rfl, rfl⟩
    · rintro ⟨rfl, rfl, rfl, rfl⟩
      exact ⟨rfl, rfl, rfl, rfl⟩

/-- The three addresses that come out right although they are read early. -/
def ReadsRight (r : DCPResponder) : Prop :=
  (r.ip = ipv4Zero ∨ r.ip = ⟨[0, 1, 0, 1], rfl⟩) ∧ r.mask = r.ip ∧ r.gateway = r.ip

/-- The device is recovered exactly if reading too early does no harm. -/
theorem recovers_iff (r : DCPResponder) (srcMAC : HardwareAddr) :
    Recovers (readDevice r srcMAC) r ↔ ReadsRight r := by
  have hread : Recovers (readDevice r srcMAC) r ↔ readEarly (blockInfo r) r.ip = r.ip ∧
      readEarly r.ip r.mask = r.mask ∧ readEarly r.mask r.gateway = r.gateway := by
    simp [Recovers, readDevice]
  rw [hread, readEarly_eq_iff, readEarly_eq_iff, readEarly_eq_iff]
  constructor
  · rintro ⟨hip, hmask, hgateway⟩
    by_cases hzero : r.ip = ipv4Zero
    · rw [hzero] at hmask
      rw [hmask] at hgateway
      exact ⟨Or.inl hzero, Subtype.ext (by rw [hmask, hzero]; rfl),
        Subtype.ext (by rw [hgateway, hzero]; rfl)⟩
    · rw [blockInfo, if_neg hzero] at hip
      rw [hip] at hmask
      rw [hmask] at hgateway
      exact ⟨Or.inr (Subtype.ext hip), Subtype.ext (by rw [hmask, hip]; rfl),
        Subtype.ext (by rw [hgateway, hip]; rfl)⟩
  · rintro ⟨hip, hmask, hgateway⟩
    rw [hgateway, hmask]
    obtain hip | hip := hip
    · rw [blockInfo, if_pos hip, hip]
      exact ⟨rfl, rfl, rfl⟩
    · rw [blockInfo, if_neg (by rw [hip]; decide), hip]
      exact ⟨rfl, rfl, rfl⟩

/-- The controller recovers a device exactly when its answer is not sent, being longer than a frame,
or when its three addresses are all `0.0.0.0` or all `0.1.0.1`. -/
theorem agrees_iff_readsRight [EthernetLink] (r : DCPResponder) (localMAC srcMAC : HardwareAddr) :
    Agrees r localMAC srcMAC ↔ EthernetLink.maxPayload < responseLength r ∨ ReadsRight r := by
  by_cases h : EthernetLink.maxPayload < responseLength r
  · refine iff_of_true (fun req payload hsend => ?_) (Or.inl h)
    rw [response_of_too_long localMAC req h] at hsend
    cases hsend
  · rw [agrees_iff_recovers localMAC srcMAC (Nat.le_of_not_lt h), recovers_iff]
    exact ⟨Or.inr, fun hor => hor.resolve_left h⟩

/-- A device `pump` at `192.168.0.10/24`, behind `192.168.0.1`. -/
def pump : DCPResponder :=
  newDCPResponder {
    stationName := [0x70, 0x75, 0x6D, 0x70]
    vendorName := []
    vendorID := 0x0493
    deviceID := 1
    ip := some ⟨[192, 168, 0, 10], rfl⟩
    mask := some ⟨[255, 255, 255, 0], rfl⟩
    gateway := some ⟨[192, 168, 0, 1], rfl⟩ }

/-- The controller takes the address of the device to be `0.1.192.168`. -/
theorem not_agrees_pump :
    letI := ethernet
    ¬Agrees pump ⟨[2, 0, 0, 0, 0, 1], rfl⟩ ⟨[2, 0, 0, 0, 0, 1], rfl⟩ := by
  let _ := ethernet
  rw [agrees_iff_recovers _ _ (by decide), recovers_iff]
  rintro ⟨hip | hip, -⟩
  · exact absurd hip (by decide)
  · exact absurd hip (by decide)

end ProfinetDcp
