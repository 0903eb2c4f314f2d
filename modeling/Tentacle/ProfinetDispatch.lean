import Tentacle.Locks
import Tentacle.ProfinetCyclic
import Tentacle.Subjects

/-!
# Frame dispatch of the controller

The frame loop of the scanner locks the scanner and, one after another, its devices, and
hands a cyclic frame to each device that is connected. A device that the frame is for
calls back into the scanner, which locks the same device again. Such a frame stops the
loop for ever; every other frame passes.
-/

namespace ProfinetDispatch

open GoValues BigEndian IeeeFloat Locks ProfinetBlocks ProfinetDcp ProfinetExpected
  ProfinetIoData ProfinetCyclic

def protocolName : String := "profinetcontroller"

/-- The mutexes: of the scanner, of a device, and `inputMu` of its cyclic exchange. -/
inductive Mutex where
  | scanner
  | device (deviceID : String)
  | cyclicInput (deviceID : String)
  deriving DecidableEq, Repr

/-! ## The state of the scanner -/

/-- A cyclic exchange. Its callback is `handleInputData` for the device it has captured. -/
structure ControllerCyclic where
  inputFrameID : UInt16
  lastInputRx : Int
  onInputData : String

structure DeviceState where
  deviceID : String
  subscribers : GoMap String (GoMap String ControllerTag) := ∅
  cyclic : Option ControllerCyclic := none
  lastValues : GoMap String Value := ∅
  allTags : GoMap String ControllerTag := ∅

/-- The callback goes to the device that holds it. -/
def DeviceState.Wired (dev : DeviceState) (deviceID : String) : Prop :=
  ∀ cc, dev.cyclic = some cc → cc.onInputData = deviceID

structure InputMessage where
  subject : String
  moduleID : String
  deviceID : String
  variableID : String
  value : Value
  timestamp : Int
  datatype : String

/-- The responses that wait for `sendAndCollect`, at most sixteen. -/
structure DCPClient where
  respCh : List (DCPFrame × HardwareAddr) := []

structure Scanner where
  moduleID : String
  devices : GoMap String DeviceState := ∅
  dcpClient : Option DCPClient := none
  published : List InputMessage := []
  wired : ∀ id dev, devices.lookup id = some dev → dev.Wired id

def newScanner (moduleID : String) : Scanner where
  moduleID := moduleID
  wired := by simp

def Scanner.setDevice (s : Scanner) (deviceID : String) (dev : DeviceState)
    (h : dev.Wired deviceID) : Scanner :=
  { s with
    devices := s.devices.insert deviceID dev
    wired := forall_lookup_insert s.wired h }

def Scanner.deleteDevice (s : Scanner) (deviceID : String) : Scanner :=
  { s with
    devices := s.devices.erase deviceID
    wired := forall_lookup_erase s.wired deviceID }

/-- The order in which a map is iterated, which may be any. -/
abbrev Iteration := { shuffle : List String → List String // ∀ keys, (shuffle keys).Perm keys }

/-! ## What the other goroutines do -/

structure SubscribeRequest where
  subscriberID : String
  deviceID : String
  stationName : String
  interfaceName : String
  slots : List SlotSubscription

structure UnsubscribeRequest where
  subscriberID : String
  deviceID : String
  tagIDs : List String := []

structure Reply where
  success : Bool
  error : String := ""
  deriving DecidableEq, Repr

def rebuildDeviceTags (iteration : Iteration) (dev : DeviceState) : DeviceState :=
  { dev with
    allTags := (iteration.val dev.subscribers.keys).foldl (fun all subscriberID =>
      match dev.subscribers.lookup subscriberID with
      | some tags => tags.entries.foldl (fun all e => all.insert e.1 e.2) all
      | none => all) ∅ }

/-- The transport of the interface is open, or the request fails with this error. -/
def handleSubscribe (iteration : Iteration) (transport : Option String) (s : Scanner)
    (req : SubscribeRequest) : Scanner × Reply :=
  if req.deviceID = "" ∨ req.stationName = "" then
    (s, ⟨false, "deviceId and stationName are required"⟩)
  else if req.interfaceName = "" then (s, ⟨false, "interfaceName is required"⟩)
  else
    match transport with
    | some error => (s, ⟨false, error⟩)
    | none =>
      let s := { s with dcpClient := some (s.dcpClient.getD {}) }
      match h : s.devices.lookup req.deviceID with
      | some dev =>
        let subscribers := dev.subscribers.insert req.subscriberID (tagIndex req.slots)
        (s.setDevice req.deviceID (rebuildDeviceTags iteration { dev with
          subscribers := subscribers }) (s.wired req.deviceID dev h), ⟨true, ""⟩)
      | none =>
        (s.setDevice req.deviceID (rebuildDeviceTags iteration {
          deviceID := req.deviceID
          subscribers := AList.singleton req.subscriberID (tagIndex req.slots) })
          (fun _ h => by cases h), ⟨true, ""⟩)

/-- What is left of the subscribers after the request. -/
def remainingSubscribers (dev : DeviceState) (req : UnsubscribeRequest) :
    GoMap String (GoMap String ControllerTag) :=
  if req.tagIDs = [] then dev.subscribers.erase req.subscriberID
  else
    match dev.subscribers.lookup req.subscriberID with
    | none => dev.subscribers
    | some tags =>
      let tags := req.tagIDs.foldl (fun tags tagID => tags.erase tagID) tags
      if tags.keys = [] then dev.subscribers.erase req.subscriberID
      else dev.subscribers.insert req.subscriberID tags

def handleUnsubscribe (iteration : Iteration) (s : Scanner) (req : UnsubscribeRequest) :
    Scanner × Reply :=
  match h : s.devices.lookup req.deviceID with
  | none => (s, ⟨true, ""⟩)
  | some dev =>
    let subscribers := remainingSubscribers dev req
    if subscribers.keys = [] then (s.deleteDevice req.deviceID, ⟨true, ""⟩)
    else
      (s.setDevice req.deviceID (rebuildDeviceTags iteration { dev with
        subscribers := subscribers }) (s.wired req.deviceID dev h), ⟨true, ""⟩)

/-- The third step of `deviceLoop`: the callback captures the device. -/
def startCyclic (s : Scanner) (deviceID : String) (inputFrameID : UInt16) (now : Int) : Scanner :=
  match s.devices.lookup deviceID with
  | none => s
  | some dev =>
    let cyclic : ControllerCyclic := {
      inputFrameID := inputFrameID
      lastInputRx := now
      onInputData := deviceID }
    s.setDevice deviceID { dev with cyclic := some cyclic }
      (fun cc hcc => by rw [← Option.some.inj hcc])

def disconnectDevice (s : Scanner) (deviceID : String) : Scanner :=
  match s.devices.lookup deviceID with
  | none => s
  | some dev => s.setDevice deviceID { dev with cyclic := none } (fun _ h => by cases h)

/-- The devices and the transport are gone. -/
def stop (s : Scanner) : Scanner :=
  { s with
    devices := ∅
    wired := by simp }

/-! ## What the frame loop does -/

/-- A frame as `RecvFrame` returns it, the time, and the orders in which the maps are
iterated while it is dispatched. -/
structure ReceivedFrame where
  payload : Bytes
  srcMAC : HardwareAddr
  now : Int
  deviceOrder : Iteration
  tagOrder : Iteration

def frameIDOf (payload : Bytes) : UInt16 := UInt16.ofNat (uint (payload.take 2))

def isDCPFrame (frameID : UInt16) : Bool := 0xFEFC ≤ frameID ∧ frameID ≤ 0xFEFF

def isRTCyclicFrame (frameID : UInt16) : Bool := 0x0100 ≤ frameID ∧ frameID ≤ 0xF7FF

def handleResponse (c : DCPClient) (payload : Bytes) (srcMAC : HardwareAddr) : DCPClient :=
  match parseDCPFrame payload with
  | .ok frame =>
    if frame.serviceType = dcpServiceTypeResponse ∧ c.respCh.length < 16 then
      { c with respCh := c.respCh ++ [(frame, srcMAC)] }
    else c
  | _ => c

/-- Whether `json.Marshal` takes the value; it refuses a number that is not finite. -/
def marshals : Value → Bool
  | .float32 x => x.Finite
  | .float64 x => x.Finite
  | _ => true

section

-- `fmt.Sprintf("%v", v)`
variable (sprint : Value → String)

/-- One round of the loop of `handleInputData`: the last values, and what is published. -/
def unpackTag (moduleID : String) (dev : DeviceState) (now : Int) (data : Bytes)
    (r : GoMap String Value × List InputMessage) (tagID : String) :
    GoMap String Value × List InputMessage :=
  match dev.allTags.lookup tagID with
  | none => r
  | some tag =>
    if tag.direction ≠ "input" then r
    else
      match unpackTagValue tag data with
      | none => r
      | some val =>
        if (r.1.lookup tagID).map sprint = some (sprint val) then r
        else
          let lastValues := r.1.insert tagID val
          if marshals val then
            (lastValues, r.2 ++ [{
              subject := Subjects.data protocolName (Subjects.sanitizeForSubject dev.deviceID)
                (Subjects.sanitizeForSubject tagID)
              moduleID := moduleID
              deviceID := dev.deviceID
              variableID := tagID
              value := val
              timestamp := now
              datatype := tag.datatype }])
          else (lastValues, r.2)

/-- The body of `handleInputData`, under the lock of the device. -/
def publishInputs (f : ReceivedFrame) (s : Scanner) (deviceID : String) (data : Bytes) : Scanner :=
  match h : s.devices.lookup deviceID with
  | none => s
  | some dev =>
    let (lastValues, messages) := (f.tagOrder.val dev.allTags.keys).foldl
      (unpackTag sprint s.moduleID dev f.now data) (dev.lastValues, [])
    let s := s.setDevice deviceID { dev with lastValues := lastValues } (s.wired deviceID dev h)
    { s with published := s.published ++ messages }

def handleInputData (f : ReceivedFrame) (deviceID : String) (data : Bytes) :
    Goroutine Scanner Mutex Unit :=
  withLock (.device deviceID) (write fun s => publishInputs sprint f s deviceID data)

/-- The time of the last input frame, under `inputMu`. -/
def touchInput (s : Scanner) (deviceID : String) (now : Int) : Scanner :=
  match h : s.devices.lookup deviceID with
  | none => s
  | some dev =>
    s.setDevice deviceID { dev with
        cyclic := dev.cyclic.map fun cc => { cc with lastInputRx := now } } (by
      intro cc hcc
      obtain ⟨cc', hcc', rfl⟩ := Option.map_eq_some_iff.mp hcc
      exact s.wired deviceID dev h cc' hcc')

/-- `HandleInputFrame` of the cyclic exchange of a device. -/
def handleInput (f : ReceivedFrame) (deviceID : String) (cc : ControllerCyclic) :
    Goroutine Scanner Mutex Unit :=
  match handleInputFrame cc.inputFrameID f.payload with
  | none => pure ()
  | some data => do
    withLock (.cyclicInput deviceID) (write fun s => touchInput s deviceID f.now)
    handleInputData sprint f cc.onInputData data

def dispatchDevice (f : ReceivedFrame) (deviceID : String) : Goroutine Scanner Mutex Unit := do
  let s ← memory
  match s.devices.lookup deviceID with
  | none => pure ()
  | some dev =>
    withLock (.device deviceID)
      (match dev.cyclic with
      | none => pure ()
      | some cc => handleInput sprint f deviceID cc)

/-- One round of `frameLoop`. -/
def dispatchFrame (f : ReceivedFrame) : Goroutine Scanner Mutex Unit := do
  let s ← memory
  if f.payload.length < 2 then pure ()
  else
    let frameID := frameIDOf f.payload
    if isDCPFrame frameID then
      write fun s => { s with
        dcpClient := s.dcpClient.map fun c => handleResponse c f.payload f.srcMAC }
    else if isRTCyclicFrame frameID then
      withLock .scanner ((f.deviceOrder.val s.devices.keys).forM (dispatchDevice sprint f))
    else pure ()

/-! ## Runs -/

/-- A frame, or what another goroutine does between two frames. -/
inductive Event where
  | frame (f : ReceivedFrame)
  | subscribe (iteration : Iteration) (transport : Option String) (req : SubscribeRequest)
  | unsubscribe (iteration : Iteration) (req : UnsubscribeRequest)
  | connected (deviceID : String) (inputFrameID : UInt16) (now : Int)
  | disconnected (deviceID : String)
  | stopped

/-- The other goroutines hold their own mutexes, and give them back between two frames. -/
def step : Event → Goroutine Scanner Mutex Unit
  | .frame f => dispatchFrame sprint f
  | .subscribe iteration transport req =>
    write fun s => (handleSubscribe iteration transport s req).1
  | .unsubscribe iteration req => write fun s => (handleUnsubscribe iteration s req).1
  | .connected deviceID inputFrameID now => write fun s => startCyclic s deviceID inputFrameID now
  | .disconnected deviceID => write fun s => disconnectDevice s deviceID
  | .stopped => write stop

def frameLoop (events : List Event) : Goroutine Scanner Mutex Unit := events.forM (step sprint)

/-! ## The mutex that is locked twice -/

/-- The frame is for a connected device. -/
def ForDevice (s : Scanner) (payload : Bytes) (deviceID : String) : Prop :=
  ∃ dev cc, s.devices.lookup deviceID = some dev ∧ dev.cyclic = some cc ∧
    cc.inputFrameID = frameIDOf payload

/-- A cyclic frame with the input frame ID of a connected device. -/
def Delivered (s : Scanner) (payload : Bytes) : Prop :=
  2 ≤ payload.length ∧ isRTCyclicFrame (frameIDOf payload) ∧
    ∃ deviceID, ForDevice s payload deviceID

variable {sprint} {f : ReceivedFrame} {s : Scanner} {held : List Mutex} {deviceID : String}

theorem handleInputFrame_eq_none {inputFrameID : UInt16} {payload : Bytes}
    (h : inputFrameID ≠ frameIDOf payload) : handleInputFrame inputFrameID payload = none := by
  rw [handleInputFrame]
  split
  · rfl
  · exact if_pos (Ne.symm h)

/-- A device that the frame is not for gives it back. -/
theorem dispatchDevice_returns (h : ¬ForDevice s f.payload deviceID)
    (hheld : .device deviceID ∉ held) : Returns (dispatchDevice sprint f deviceID) held s s := by
  apply returns_memory_bind
  split
  · exact returns_pure
  next dev hdev =>
    apply Returns.withLock hheld
    split
    · exact returns_pure
    next cc hcc =>
      have hne : cc.inputFrameID ≠ frameIDOf f.payload := fun hid => h ⟨dev, cc, hdev, hcc, hid⟩
      rw [handleInput, handleInputFrame_eq_none hne]
      exact returns_pure

/-- A device that the frame is for locks itself again in its callback. -/
theorem dispatchDevice_blocks (h : ForDevice s f.payload deviceID)
    (hlength : 2 ≤ f.payload.length) (hheld : .cyclicInput deviceID ∉ held) :
    Blocks (dispatchDevice sprint f deviceID) held s := by
  obtain ⟨dev, cc, hdev, hcc, hid⟩ := h
  have hdata : handleInputFrame cc.inputFrameID f.payload = some (f.payload.drop 2) := by
    rw [handleInputFrame, if_neg (by omega), if_neg (by rw [hid, frameIDOf]; simp)]
  apply blocks_memory_bind
  rw [hdev]
  dsimp only
  apply Blocks.withLock
  rw [hcc]
  dsimp only
  rw [handleInput, hdata]
  dsimp only
  have hinput : .cyclicInput deviceID ∉ Mutex.device deviceID :: held := by simp [hheld]
  apply (Returns.withLock hinput (returns_write _)).bind_blocks
  rw [s.wired deviceID dev hdev cc hcc]
  exact blocks_withLock_of_mem _ List.mem_cons_self

theorem not_isDCPFrame {frameID : UInt16} (h : isRTCyclicFrame frameID) :
    ¬isDCPFrame frameID = true := by
  simp only [isRTCyclicFrame, isDCPFrame, decide_eq_true_eq, UInt16.le_iff_toNat_le] at h ⊢
  rintro ⟨hlow, -⟩
  have hle := hlow.trans h.2
  exact absurd hle (by decide)

theorem mem_order (h : ForDevice s f.payload deviceID) :
    deviceID ∈ f.deviceOrder.val s.devices.keys := by
  obtain ⟨dev, cc, hdev, -⟩ := h
  rw [(f.deviceOrder.property _).mem_iff, ← AList.mem_keys, ← AList.lookup_isSome, hdev]
  rfl

/-- A frame for a connected device stops the loop. -/
theorem dispatchFrame_blocks (h : Delivered s f.payload) :
    Blocks (dispatchFrame sprint f) [] s := by
  obtain ⟨hlength, hcyclic, deviceID, hdevice⟩ := h
  apply blocks_memory_bind
  rw [if_neg (by omega), if_neg (not_isDCPFrame hcyclic), if_pos hcyclic]
  refine Blocks.withLock (blocks_forM (P := ForDevice s f.payload) ?_ ?_
    ⟨deviceID, mem_order hdevice, hdevice⟩)
  · intro other _ hother
    exact dispatchDevice_returns hother (by simp)
  · intro other _ hother
    exact dispatchDevice_blocks hother hlength (by simp)

/-- Every other frame passes. -/
theorem dispatchFrame_returns (h : ¬Delivered s f.payload) :
    ∃ t, Returns (dispatchFrame sprint f) [] s t := by
  simp only [dispatchFrame]
  split
  · exact ⟨s, returns_pure⟩
  next hlength =>
    split
    · exact ⟨_, returns_memory_bind (returns_write _)⟩
    · split
      next hcyclic =>
        refine ⟨s, returns_memory_bind (Returns.withLock (by simp)
          (returns_forM fun deviceID _ => ?_))⟩
        exact dispatchDevice_returns
          (fun hdevice => h ⟨by omega, hcyclic, deviceID, hdevice⟩) (by simp)
      · exact ⟨s, returns_pure⟩

/-- A step that is not such a frame. -/
def Passes (s : Scanner) : Event → Prop
  | .frame f => ¬Delivered s f.payload
  | _ => True

theorem step_returns {e : Event} (h : Passes s e) : ∃ t, Returns (step sprint e) [] s t := by
  cases e with
  | frame f => exact dispatchFrame_returns h
  | _ => exact ⟨_, rfl⟩

theorem step_blocks {e : Event} (h : ¬Passes s e) : Blocks (step sprint e) [] s := by
  cases e with
  | frame f => exact dispatchFrame_blocks (not_not.mp h)
  | _ => exact absurd trivial h

theorem frameLoop_cons {e : Event} {t : Scanner} (h : Returns (step sprint e) [] s t)
    (events : List Event) :
    frameLoop sprint (e :: events) (s, []) = frameLoop sprint events (t, []) :=
  h.bind_apply fun _ => frameLoop sprint events

/-- A run blocks at the first step that does not pass. -/
theorem blocks_frameLoop_iff (s : Scanner) (events : List Event) :
    Blocks (frameLoop sprint events) [] s ↔ ∃ before e after t,
      events = before ++ e :: after ∧ Returns (frameLoop sprint before) [] s t ∧ ¬Passes t e := by
  induction events generalizing s with
  | nil =>
    constructor
    · intro h
      exact absurd h returns_pure.not_blocks
    · rintro ⟨before, e, after, t, hsplit, -⟩
      simp at hsplit
  | cons e events ih =>
    by_cases h : Passes s e
    · obtain ⟨t, ht⟩ : ∃ t, Returns (step sprint e) [] s t := step_returns h
      rw [Blocks, frameLoop_cons ht]
      change Blocks (frameLoop sprint events) [] t ↔ _
      rw [ih]
      constructor
      · rintro ⟨before, e', after, u, rfl, hreturns, hpasses⟩
        refine ⟨e :: before, e', after, u, rfl, ?_, hpasses⟩
        rw [Returns, frameLoop_cons ht]
        exact hreturns
      · rintro ⟨before, e', after, u, hsplit, hreturns, hpasses⟩
        cases before with
        | nil =>
          obtain ⟨rfl, rfl⟩ := List.cons.inj hsplit
          obtain rfl : s = u := returns_pure.unique hreturns
          exact absurd h hpasses
        | cons e'' before =>
          obtain ⟨rfl, rfl⟩ := List.cons.inj hsplit
          rw [Returns, frameLoop_cons ht] at hreturns
          exact ⟨before, e', after, u, rfl, hreturns, hpasses⟩
    · refine iff_of_true ?_ ⟨[], e, events, s, rfl, returns_pure, h⟩
      exact (step_blocks h).bind fun _ => frameLoop sprint events

/-- The frame loop never locks a mutex that it holds exactly in the runs in which no
cyclic frame comes with the input frame ID of a device that is connected then. -/
theorem not_blocks_frameLoop_iff (sprint : Value → String) (s : Scanner) (events : List Event) :
    ¬Blocks (frameLoop sprint events) [] s ↔ ∀ before f after t,
      events = before ++ .frame f :: after → Returns (frameLoop sprint before) [] s t →
        ¬Delivered t f.payload := by
  rw [blocks_frameLoop_iff]
  constructor
  · intro h before f after t hsplit hreturns hdelivered
    exact h ⟨before, .frame f, after, t, hsplit, hreturns, not_not.mpr hdelivered⟩
  · rintro h ⟨before, e, after, t, hsplit, hreturns, hpasses⟩
    cases e with
    | frame f => exact hpasses (h before f after t hsplit hreturns)
    | _ => exact hpasses trivial

end

/-! ## One device -/

def anyOrder : Iteration := ⟨id, fun _ => .refl _⟩

/-- A device is subscribed and connected, and its first input frame arrives. -/
def firstFrame : List Event :=
  [.subscribe anyOrder none {
      subscriberID := "gateway"
      deviceID := "pump"
      stationName := "pump"
      interfaceName := "eth1"
      slots := [] },
    .connected "pump" 0xC001 0,
    .frame {
      payload := [0xC0, 0x01, 0x80, 0x00, 0x00, 0x35, 0x00]
      srcMAC := ⟨[2, 0, 0, 0, 0, 1], rfl⟩
      now := 1
      deviceOrder := anyOrder
      tagOrder := anyOrder }]

/-- The frame loop waits for the mutex of the device, which it holds. -/
theorem blocks_firstFrame :
    Blocks (frameLoop (fun _ => "") firstFrame) [] (newScanner "profinetcontroller") :=
  ⟨.device "pump", rfl⟩

end ProfinetDispatch
