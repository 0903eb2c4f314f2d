import Tentacle.ProfinetDispatch
import Tentacle.ProfinetSafety
import Tentacle.Runs

/-!
# Cyclic exchange of the device

The device keeps any number of application relationships but one cyclic handler. Whatever
relationship starts its exchange replaces the handler, and whatever relationship is
released stops it, also when the handler is that of another relationship. A run is an
interleaving of the requests of all controllers with the goroutines that they start.
-/

namespace ProfinetDevice

open GoValues GoSlices BigEndian Outcome Runs ProfinetBlocks ProfinetRpc ProfinetAr
open ProfinetDispatch (frameIDOf isDCPFrame isRTCyclicFrame)

def controlCmdPrmEnd : UInt16 := 0x0001
def controlCmdApplicationReady : UInt16 := 0x0002
def controlCmdRelease : UInt16 := 0x0003
def controlCmdDone : UInt16 := 0x0004

def marshalIODControlRes (arUUID : UUID) (sessionKey controlCmd : UInt16) : Bytes :=
  marshalPNIOBlock blockTypeIODControlRes 1 0
    (arUUID.val ++ putUint 2 sessionKey.toNat ++ putUint 2 0 ++ putUint 2 controlCmd.toNat ++
      putUint 2 0 ++ [0, 0, 0, 0])

/-! ## The device -/

/-- A cyclic handler: which one it is, and the relationship it was made for. -/
structure CyclicHandler where
  number : Nat
  ar : AR
  deriving DecidableEq, Repr

/-- The device and the goroutines that it has under way: those of `applicationReady`, those
on the way into `onCyclicStart`, and the handlers whose `Start` has not begun (`created`)
or sends (`running`). A panic in any goroutine ends the process. -/
structure Device where
  arMgr : ARManager
  up : Bool := true
  readying : List UUID := []
  starting : List AR := []
  cyclic : Option CyclicHandler := none
  created : List CyclicHandler := []
  running : List CyclicHandler := []
  handlers : Nat := 0
  deriving DecidableEq

def newDevice (localMAC : Bytes) : Device where
  arMgr := { localMAC := localMAC }

def Device.setAR (d : Device) (arUUID : UUID) (ar : AR) : Device :=
  { d with arMgr := { d.arMgr with ars := d.arMgr.ars.insert arUUID ar } }

def Device.deleteAR (d : Device) (arUUID : UUID) : Device :=
  { d with arMgr := { d.arMgr with ars := d.arMgr.ars.erase arUUID } }

/-- `CyclicHandler.Stop`. A handler whose `Start` has not begun has no cancel function yet
and is not stopped. -/
def Device.stopHandler (d : Device) : Device :=
  match d.cyclic with
  | none => d
  | some h => { d with running := d.running.erase h }

def onCyclicStart (d : Device) (ar : AR) : Device :=
  let h : CyclicHandler := ⟨d.handlers, ar⟩
  { d.stopHandler with
    cyclic := some h
    created := h :: d.created
    handlers := d.handlers + 1 }

def onCyclicStop (d : Device) : Device := { d.stopHandler with cyclic := none }

/-- `time.NewTicker` panics for a period that is not positive. -/
def newTicker (period : Nat) : Except String Nat :=
  if 0 < period then .ok period else .error "non-positive interval for NewTicker"

/-- The goroutine of `CyclicHandler.Start` up to its loop. -/
def startSender (d : Device) (h : CyclicHandler) : Device :=
  match newTicker h.ar.cyclePeriod with
  | .ok _ => { d with created := d.created.erase h, running := h :: d.running }
  | .error _ => { d with up := false }

/-! ## The requests -/

def notFound : PNIOStatus := ⟨0xDE, 0x81, 0x04, 0x00⟩

/-- The first 16 bytes of a control block. -/
def blockARUUID (b : PNIOBlock) : UUID := .copy 16 (b.data.take 16)

/-- The relationship that a Release request is for, under its key. -/
def findReleased (m : ARManager) (blocks : List PNIOBlock) (objectUUID : UUID) :
    Option (UUID × AR) :=
  match m.ars.lookup objectUUID with
  | some ar => some (objectUUID, ar)
  | none => blocks.findSome? fun b =>
      if b.type = blockTypeIODControlReq ∧ 16 ≤ b.data.length then
        (m.ars.lookup (blockARUUID b)).map fun ar => (blockARUUID b, ar)
      else none

def handleRelease (d : Device) (blocks : List PNIOBlock) (objectUUID : UUID) :
    Device × Bytes × PNIOStatus :=
  match findReleased d.arMgr blocks objectUUID with
  | none => (d, [], notFound)
  | some (arUUID, ar) =>
    ((onCyclicStop d).deleteAR arUUID, marshalIODControlRes arUUID ar.sessionKey controlCmdDone,
      pnioStatusOK)

/-- The relationship with the UUID, or the only one that there is. -/
def findAR (m : ARManager) (objectUUID : UUID) : Option (UUID × AR) :=
  match m.ars.lookup objectUUID with
  | some ar => some (objectUUID, ar)
  | none =>
    match m.ars.entries with
    | [e] => some (e.1, e.2)
    | _ => none

def handleWrite (d : Device) (blocks : List PNIOBlock) (objectUUID : UUID) :
    Device × Bytes × PNIOStatus :=
  let respBuf := (blocks.filter fun b => b.type = blockTypeIODWriteReqHeader).flatMap fun b =>
    marshalPNIOBlock blockTypeIODWriteResHeader 1 0 b.data
  match findAR d.arMgr objectUUID with
  | none => (d, respBuf, pnioStatusOK)
  | some (arUUID, ar) =>
    if ar.state = .connected then
      (d.setAR arUUID { ar with state := .parameterize }, respBuf, pnioStatusOK)
    else (d, respBuf, pnioStatusOK)

def controlCmdOf (b : PNIOBlock) : UInt16 := .ofNat (uint ((b.data.drop 20).take 2))

def sessionKeyOf (b : PNIOBlock) : UInt16 := .ofNat (uint ((b.data.drop 16).take 2))

/-- The block is one that `HandleControl` does not pass over. -/
def isControlBlock (b : PNIOBlock) : Bool :=
  (b.type = blockTypeIODControlReq ∨ b.type = blockTypeARRPCBlockReq) ∧ 22 ≤ b.data.length

/-- One round of the loop of `HandleControl`: the device and what is added to the response,
or the status with which the request ends. -/
def controlBlock (d : Device) (b : PNIOBlock) : Except PNIOStatus (Device × Bytes) :=
  if !isControlBlock b then .ok (d, [])
  else
    match d.arMgr.ars.lookup (blockARUUID b) with
    | none => .error notFound
    | some ar =>
      let done := marshalIODControlRes (blockARUUID b) (sessionKeyOf b) controlCmdDone
      if controlCmdOf b = controlCmdPrmEnd then
        let d := d.setAR (blockARUUID b) { ar with state := .waitAppReady }
        .ok ({ d with readying := blockARUUID b :: d.readying }, done)
      else if controlCmdOf b = controlCmdApplicationReady then .ok (d, done)
      else if controlCmdOf b = controlCmdRelease then
        .ok ((onCyclicStop d).deleteAR (blockARUUID b), done)
      else .ok (d, [])

def handleControl (d : Device) : List PNIOBlock → Bytes → Device × Bytes × PNIOStatus
  | [], respBuf => (d, respBuf, pnioStatusOK)
  | b :: blocks, respBuf =>
    match controlBlock d b with
    | .error status => (d, [], status)
    | .ok (d', resp) => handleControl d' blocks (respBuf ++ resp)

/-- `applicationReady` up to the unlock before `onCyclicStart`. -/
def applicationReady (d : Device) (arUUID : UUID) : Device :=
  match d.arMgr.ars.lookup arUUID with
  | none => d
  | some ar =>
    if ar.state = .waitAppReady then
      let ar := { ar with state := .data }
      { d.setAR arUUID ar with starting := ar :: d.starting }
    else d

/-! ## The steps -/

/-- The requests, a Control request block by block, and the steps of the goroutines. -/
inductive Event where
  | connect (blocks : List PNIOBlock) (addr : UDPAddr) (activityUUID : UUID)
  | write (blocks : List PNIOBlock) (objectUUID : UUID)
  | control (b : PNIOBlock)
  | release (blocks : List PNIOBlock) (objectUUID : UUID)
  | ready (arUUID : UUID)
  | start (ar : AR)
  | send (h : CyclicHandler)

def perform (d : Device) : Event → Option Device
  | .connect blocks addr activityUUID =>
    match handleConnect d.arMgr blocks addr activityUUID with
    | .ok (m, _, _) => some { d with arMgr := m }
    | .err e => e.elim
    | .panic _ => some { d with up := false }
  | .write blocks objectUUID => some (handleWrite d blocks objectUUID).1
  | .control b =>
    match controlBlock d b with
    | .ok (d', _) => some d'
    | .error _ => some d
  | .release blocks objectUUID => some (handleRelease d blocks objectUUID).1
  | .ready arUUID =>
    if arUUID ∈ d.readying then
      some (applicationReady { d with readying := d.readying.erase arUUID } arUUID)
    else none
  | .start ar =>
    if ar ∈ d.starting then
      some (onCyclicStart { d with starting := d.starting.erase ar } ar)
    else none
  | .send h => if h ∈ d.created then some (startSender d h) else none

def step (d : Device) (e : Event) : Option Device := if d.up then perform d e else none

/-- The handler to which `frameLoop` gives a frame and whose `HandleOutputFrame` takes it. -/
def outputHandler (d : Device) (payload : Bytes) : Option CyclicHandler :=
  if payload.length < 2 then none
  else if isDCPFrame (frameIDOf payload) then none
  else if isRTCyclicFrame (frameIDOf payload) then
    d.cyclic.filter fun h => h.ar.outputIOCR.any fun iocr => iocr.frameID = frameIDOf payload
  else none

/-! ## What a step does to the exchange -/

/-- The relationship is in DATA. -/
def InData (d : Device) (ar : AR) : Prop :=
  d.arMgr.ars.lookup ar.arUUID = some ar ∧ ar.state = .data

/-- Each relationship is kept under its own UUID. -/
def Keyed (d : Device) : Prop := ∀ uuid ar, d.arMgr.ars.lookup uuid = some ar → ar.arUUID = uuid

/-- The sender of the handler is on, or about to begin. -/
def Device.On (d : Device) (h : CyclicHandler) : Prop := h ∈ d.created ∨ h ∈ d.running

/-- The step leaves the exchange as it is. A relationship that it brings into DATA waits
for its start. -/
structure Quiet (d d' : Device) : Prop where
  up : d'.up = d.up
  cyclic : d'.cyclic = d.cyclic
  on : ∀ h, d'.On h ↔ d.On h
  starting : ∀ ar ∈ d.starting, ar ∈ d'.starting
  inData : ∀ ar, InData d' ar → InData d ar ∨ ar ∈ d'.starting
  keyed : Keyed d → Keyed d'

/-- The step stops the exchange and forgets the relationship. -/
structure Releases (d d' : Device) (arUUID : UUID) (ar : AR) : Prop where
  found : d.arMgr.ars.lookup arUUID = some ar
  up : d'.up = d.up
  cyclic : d'.cyclic = none
  starting : d'.starting = d.starting
  ars : d'.arMgr.ars = d.arMgr.ars.erase arUUID

theorem Quiet.refl (d : Device) : Quiet d d :=
  ⟨rfl, rfl, fun _ => Iff.rfl, fun _ h => h, fun _ h => .inl h, id⟩

theorem stopHandler_up (d : Device) : d.stopHandler.up = d.up := by
  rw [Device.stopHandler]
  split <;> rfl

theorem stopHandler_starting (d : Device) : d.stopHandler.starting = d.starting := by
  rw [Device.stopHandler]
  split <;> rfl

theorem stopHandler_arMgr (d : Device) : d.stopHandler.arMgr = d.arMgr := by
  rw [Device.stopHandler]
  split <;> rfl

/-- To stop the exchange and to delete the relationship is to release it. -/
theorem releases_onCyclicStop {d : Device} {arUUID : UUID} {ar : AR}
    (h : d.arMgr.ars.lookup arUUID = some ar) :
    Releases d ((onCyclicStop d).deleteAR arUUID) arUUID ar where
  found := h
  up := stopHandler_up d
  cyclic := rfl
  starting := stopHandler_starting d
  ars := congrArg (fun m => m.ars.erase arUUID) (stopHandler_arMgr d)

/-- A relationship is stored that is not in DATA. -/
theorem quiet_of_insert {d d' : Device} {arUUID : UUID} {ar : AR} (hup : d'.up = d.up)
    (hcyclic : d'.cyclic = d.cyclic) (hon : ∀ h, d'.On h ↔ d.On h)
    (hstarting : ∀ ar ∈ d.starting, ar ∈ d'.starting)
    (hars : d'.arMgr.ars = d.arMgr.ars.insert arUUID ar)
    (hstate : ar.state = .data → ar ∈ d'.starting) (huuid : Keyed d → ar.arUUID = arUUID) :
    Quiet d d' where
  up := hup
  cyclic := hcyclic
  on := hon
  starting := hstarting
  inData := by
    intro b hb
    rw [InData, hars] at hb
    by_cases hkey : b.arUUID = arUUID
    · rw [hkey, AList.lookup_insert, Option.some.injEq] at hb
      exact .inr (hb.1 ▸ hstate (hb.1 ▸ hb.2))
    · rw [AList.lookup_insert_ne hkey] at hb
      exact .inl hb
  keyed := by
    intro hkeyed uuid b hb
    rw [hars] at hb
    exact forall_lookup_insert hkeyed (huuid hkeyed) uuid b hb

theorem quiet_setAR {d : Device} {arUUID : UUID} {ar : AR} {state : ARState}
    (hlookup : d.arMgr.ars.lookup arUUID = some ar) (hstate : state ≠ .data) :
    Quiet d (d.setAR arUUID { ar with state := state }) :=
  quiet_of_insert rfl rfl (fun _ => Iff.rfl) (fun _ h => h) rfl (fun h => absurd h hstate)
    (fun hkeyed => hkeyed arUUID ar hlookup)

/-- Each relationship of the second device is one of the first, but for its state. -/
def Stems (d d' : Device) : Prop :=
  ∀ uuid ar', d'.arMgr.ars.lookup uuid = some ar' →
    ∃ ar, d.arMgr.ars.lookup uuid = some ar ∧ ar' = { ar with state := ar'.state }

theorem Stems.refl (d : Device) : Stems d d := fun _ ar h => ⟨ar, h, rfl⟩

/-- A change of state leaves the rest of the relationship. -/
theorem stems_setAR {d d' : Device} {arUUID : UUID} {ar : AR} {state : ARState}
    (hlookup : d.arMgr.ars.lookup arUUID = some ar)
    (hars : d'.arMgr.ars = d.arMgr.ars.insert arUUID { ar with state := state }) : Stems d d' := by
  intro uuid ar' h
  rw [hars] at h
  by_cases hkey : uuid = arUUID
  · rw [hkey, AList.lookup_insert, Option.some.injEq] at h
    subst h
    exact ⟨ar, hkey ▸ hlookup, rfl⟩
  · rw [AList.lookup_insert_ne hkey] at h
    exact ⟨ar', h, rfl⟩

/-- A release leaves the other relationships as they are. -/
theorem Releases.stems {d d' : Device} {arUUID : UUID} {ar : AR} (h : Releases d d' arUUID ar) :
    Stems d d' := by
  intro uuid ar' hlookup
  rw [h.ars] at hlookup
  by_cases hkey : uuid = arUUID
  · rw [hkey, AList.lookup_erase] at hlookup
    cases hlookup
  · rw [AList.lookup_erase_ne hkey] at hlookup
    exact ⟨ar', hlookup, rfl⟩

theorem findAR_lookup {m : ARManager} {objectUUID : UUID} {r : UUID × AR}
    (h : findAR m objectUUID = some r) : m.ars.lookup r.1 = some r.2 := by
  rw [findAR] at h
  split at h
  next ar hlookup =>
    cases h
    exact hlookup
  next =>
    split at h
    next e hentries =>
      cases h
      apply (mem_entries_iff m.ars e.1 e.2).mp
      rw [hentries]
      exact List.mem_singleton_self _
    next => cases h

/-- A relationship that is found for its release is stored. -/
theorem findReleased_lookup {m : ARManager} {blocks : List PNIOBlock} {objectUUID : UUID}
    {r : UUID × AR} (h : findReleased m blocks objectUUID = some r) :
    m.ars.lookup r.1 = some r.2 := by
  rw [findReleased] at h
  split at h
  next ar hlookup =>
    cases h
    exact hlookup
  next =>
    obtain ⟨b, -, hb⟩ := List.exists_of_findSome?_eq_some h
    split at hb
    next =>
      obtain ⟨ar, hlookup, rfl⟩ := Option.map_eq_some_iff.mp hb
      exact hlookup
    next => cases hb

/-- A write leaves the exchange as it is. -/
theorem quiet_handleWrite (d : Device) (blocks : List PNIOBlock) (objectUUID : UUID) :
    Quiet d (handleWrite d blocks objectUUID).1 := by
  rw [handleWrite]
  split
  next => exact .refl d
  next arUUID ar hfind =>
    split
    next => exact quiet_setAR (findAR_lookup hfind) (by decide)
    next => exact .refl d

theorem quiet_applicationReady {d : Device} (arUUID : UUID) :
    Quiet d (applicationReady d arUUID) := by
  rw [applicationReady]
  split
  next => exact .refl d
  next ar hlookup =>
    split
    next =>
      exact quiet_of_insert rfl rfl (fun _ => Iff.rfl) (fun _ h => .tail _ h) rfl
        (fun _ => .head _) (fun hkeyed => hkeyed arUUID ar hlookup)
    next => exact .refl d

/-- The relationship that a control block releases. -/
def controlReleased (d : Device) (b : PNIOBlock) : Option AR :=
  if isControlBlock b ∧ controlCmdOf b = controlCmdRelease then
    d.arMgr.ars.lookup (blockARUUID b)
  else none

/-- A control block releases its relationship, or leaves the exchange as it is. -/
theorem controlBlock_cases {d d' : Device} {b : PNIOBlock} {resp : Bytes}
    (h : controlBlock d b = .ok (d', resp)) :
    Quiet d d' ∧ Stems d d' ∧ controlReleased d b = none ∨
      ∃ ar, controlReleased d b = some ar ∧ Releases d d' (blockARUUID b) ar := by
  rw [controlBlock] at h
  by_cases hblock : isControlBlock b
  · rw [if_neg (by simp [hblock])] at h
    split at h
    next => cases h
    next ar hlookup =>
      dsimp only at h
      split at h
      next hcmd =>
        cases h
        have hquiet : Quiet d (d.setAR (blockARUUID b) { ar with state := .waitAppReady }) :=
          quiet_setAR hlookup (by decide)
        refine .inl ⟨⟨hquiet.up, hquiet.cyclic, hquiet.on, hquiet.starting, hquiet.inData,
          hquiet.keyed⟩, stems_setAR hlookup rfl, if_neg ?_⟩
        rw [hcmd]
        exact fun h => absurd h.2 (by decide)
      next =>
        split at h
        next hcmd =>
          cases h
          refine .inl ⟨.refl d, .refl d, if_neg ?_⟩
          rw [hcmd]
          exact fun h => absurd h.2 (by decide)
        next =>
          split at h
          next hcmd =>
            cases h
            exact .inr ⟨ar, (if_pos ⟨hblock, hcmd⟩).trans hlookup, releases_onCyclicStop hlookup⟩
          next hcmd =>
            cases h
            exact .inl ⟨.refl d, .refl d, if_neg fun h => hcmd h.2⟩
  · rw [if_pos (by simp [hblock])] at h
    cases h
    exact .inl ⟨.refl d, .refl d, if_neg fun h => hblock h.1⟩

theorem controlReleased_of_error {d : Device} {b : PNIOBlock} {status : PNIOStatus}
    (h : controlBlock d b = .error status) : controlReleased d b = none := by
  rw [controlBlock] at h
  split at h
  next => cases h
  next =>
    split at h
    next hlookup =>
      rw [controlReleased, hlookup]
      exact ite_self none
    next => exact absurd h (by split_ifs <;> simp)

/-- A block that is to release its relationship does. -/
theorem controlBlock_releases {d : Device} {b : PNIOBlock} {ar : AR}
    (h : controlReleased d b = some ar) :
    ∃ r, controlBlock d b = .ok r ∧ Releases d r.1 (blockARUUID b) ar := by
  cases hblock : controlBlock d b with
  | error status =>
    rw [controlReleased_of_error hblock] at h
    cases h
  | ok r =>
    obtain ⟨-, -, hnone⟩ | ⟨a, ha, hreleases⟩ := controlBlock_cases hblock
    · rw [hnone] at h
      cases h
    · cases ha.symm.trans h
      exact ⟨r, rfl, hreleases⟩

theorem controlBlock_up {d d' : Device} {b : PNIOBlock} {resp : Bytes}
    (h : controlBlock d b = .ok (d', resp)) : d'.up = d.up := by
  obtain ⟨hquiet, -⟩ | ⟨ar, -, hreleases⟩ := controlBlock_cases h
  · exact hquiet.up
  · exact hreleases.up

/-- A Control request is a run of its blocks up to the one that ends it. -/
theorem handleControl_run {d : Device} (hup : d.up) (blocks : List PNIOBlock) (respBuf : Bytes) :
    ∃ n, run step d ((blocks.take n).map .control) = some (handleControl d blocks respBuf).1 := by
  induction blocks generalizing d respBuf with
  | nil => exact ⟨0, rfl⟩
  | cons b blocks ih =>
    cases hblock : controlBlock d b with
    | error status => exact ⟨0, by simp [run, handleControl, hblock]⟩
    | ok r =>
      obtain ⟨n, hn⟩ := ih ((controlBlock_up hblock).trans hup) (respBuf ++ r.2)
      refine ⟨n + 1, ?_⟩
      have hstep : step d (.control b) = some r.1 := by
        rw [step, if_pos hup, perform, hblock]
      rw [List.take_succ_cons, List.map_cons, run, hstep, Option.bind_some, hn, handleControl,
        hblock]

/-! ## Connect -/

/-- What the loop over the blocks of a Connect request finds, if the request is accepted. -/
structure AcceptedConnect where
  blocks : List PNIOBlock
  seen : ConnectBlocks
  arBlock : ARBlockReq
  parsed : blocks.foldlM takeBlock {} = .ok seen
  found : seen.ar = some arBlock

/-- The input relationship that the response loop leaves. -/
def lastInput (iocrs : List IOCRBlockReq) : Option IOCRBlockReq :=
  (iocrs.filter fun iocr => iocr.iocrType = iocrTypeInput).getLast?

/-- The parts of a relationship that the response loop does not touch, and the factors
that it takes over. -/
structure Answers (r r' : Reply) (input : Option IOCRBlockReq) : Prop where
  ars : r'.manager.ars = r.manager.ars
  arUUID : r'.ar.arUUID = r.ar.arUUID
  state : r'.ar.state = r.ar.state
  factors : ∀ iocr, input = some iocr → ∃ info, r'.ar.inputIOCR = some info ∧
    info.sendClockFactor = iocr.sendClockFactor ∧ info.reductionRatio = iocr.reductionRatio
  noInput : input = none → r'.ar.inputIOCR = r.ar.inputIOCR

/-- The answer to an IOCR block names its frame ID. -/
theorem answers_answerIOCR (r : Reply) (iocr : IOCRBlockReq) :
    Answers r (answerIOCR r iocr) (lastInput [iocr]) := by
  rw [answerIOCR]
  split
  next hinput =>
    have hlast : lastInput [iocr] = some iocr := by simp [lastInput, hinput]
    rw [hlast]
    refine ⟨rfl, rfl, rfl, ?_, by simp⟩
    rintro _ ⟨⟩
    exact ⟨_, rfl, rfl, rfl⟩
  next hinput =>
    have hlast : lastInput [iocr] = none := by simp [lastInput, hinput]
    rw [hlast]
    split
    next => exact ⟨rfl, rfl, rfl, by simp, fun _ => rfl⟩
    next => exact ⟨rfl, rfl, rfl, by simp, fun _ => rfl⟩

theorem lastInput_cons (iocr : IOCRBlockReq) (iocrs : List IOCRBlockReq) :
    lastInput (iocr :: iocrs) = (lastInput iocrs).or (lastInput [iocr]) := by
  rw [lastInput, lastInput, lastInput, ← List.singleton_append, List.filter_append,
    List.getLast?_append]

/-- The loop over the IOCR blocks, by its rounds. -/
theorem answers_foldl (iocrs : List IOCRBlockReq) (r : Reply) :
    Answers r (iocrs.foldl answerIOCR r) (lastInput iocrs) := by
  induction iocrs generalizing r with
  | nil => exact ⟨rfl, rfl, rfl, by simp [lastInput], fun _ => rfl⟩
  | cons iocr iocrs ih =>
    have hfirst := answers_answerIOCR r iocr
    have hrest := ih (answerIOCR r iocr)
    rw [List.foldl_cons, lastInput_cons]
    refine ⟨hrest.ars.trans hfirst.ars, hrest.arUUID.trans hfirst.arUUID,
      hrest.state.trans hfirst.state, ?_, ?_⟩
    · intro last hlast
      cases hinput : lastInput iocrs with
      | some last' =>
        rw [hinput, Option.some_or] at hlast
        exact hrest.factors last (hinput.trans hlast)
      | none =>
        rw [hinput, Option.none_or] at hlast
        rw [hrest.noInput hinput]
        exact hfirst.factors last hlast
    · intro hnone
      obtain ⟨hinput, hone⟩ := Option.or_eq_none_iff.mp hnone
      exact (hrest.noInput hinput).trans (hfirst.noInput hone)

theorem answers_answerAlarm {r r' : Reply} {input : Option IOCRBlockReq}
    (h : Answers r r' input) (alarm : Option AlarmCRBlockReq) :
    Answers r (answerAlarm r' alarm) input := by
  cases alarm with
  | none => exact h
  | some alarm => exact ⟨h.ars, h.arUUID, h.state, h.factors, h.noInput⟩

/-- The factors of the relationship are those of the last input block. -/
def Clocked (seen : ConnectBlocks) (ar : AR) : Prop :=
  match lastInput seen.iocrs with
  | some iocr => ∃ info, ar.inputIOCR = some info ∧
      info.sendClockFactor = iocr.sendClockFactor ∧ info.reductionRatio = iocr.reductionRatio
  | none => ar.inputIOCR = none

theorem clocked_of_answers {r r' : Reply} {seen : ConnectBlocks}
    (h : Answers r r' (lastInput seen.iocrs)) (hnone : r.ar.inputIOCR = none) :
    Clocked seen r'.ar := by
  rw [Clocked]
  split
  next iocr hlast => exact h.factors iocr hlast
  next hlast => exact (h.noInput hlast).trans hnone

theorem createAR_stores (m : ARManager) (seen : ConnectBlocks) (arBlock : ARBlockReq)
    (addr : UDPAddr) (activityUUID : UUID) :
    ∃ ar, (createAR m seen arBlock addr activityUUID).1.ars = m.ars.insert arBlock.arUUID ar ∧
      ar.arUUID = arBlock.arUUID ∧ ar.state = .connected ∧ Clocked seen ar := by
  have hiocrs := answers_foldl seen.iocrs {
    manager := m
    ar := {
      arUUID := arBlock.arUUID
      arType := arBlock.arType
      sessionKey := arBlock.sessionKey
      initiatorMAC := arBlock.cmInitiatorMAC
      initiatorAddr := addr
      activityUUID := activityUUID
      state := .connected
      expectedSubmodules := seen.expected }
    respBuf := marshalARBlockRes arBlock.arType arBlock.arUUID arBlock.sessionKey m.localMAC }
  have hreply := answers_answerAlarm hiocrs seen.alarm
  refine ⟨_, ?_, hreply.arUUID, hreply.state, clocked_of_answers hreply rfl⟩
  exact congrArg (AList.insert _ _) hreply.ars

/-- A Connect request panics, is refused, or stores a new relationship. -/
theorem handleConnect_cases (m : ARManager) (blocks : List PNIOBlock) (addr : UDPAddr)
    (activityUUID : UUID) :
    (∃ p, handleConnect m blocks addr activityUUID = .panic p) ∨
      (∃ status, handleConnect m blocks addr activityUUID = .ok (m, [], status)) ∨
      ∃ (c : AcceptedConnect) (m' : ARManager) (resp : Bytes) (ar : AR), c.blocks = blocks ∧
        handleConnect m blocks addr activityUUID = .ok (m', resp, pnioStatusOK) ∧
        m'.ars = m.ars.insert c.arBlock.arUUID ar ∧ ar.arUUID = c.arBlock.arUUID ∧
        ar.state = .connected ∧ Clocked c.seen ar := by
  rw [handleConnect]
  cases hloop : blocks.foldlM takeBlock {} with
  | panic p => exact .inl ⟨p, rfl⟩
  | err status => exact .inr (.inl ⟨status, rfl⟩)
  | ok seen =>
    cases har : seen.ar with
    | none => exact .inr (.inl ⟨connectError, by simp [har]⟩)
    | some arBlock =>
      obtain ⟨ar, hstored⟩ := createAR_stores m seen arBlock addr activityUUID
      exact .inr (.inr ⟨⟨blocks, seen, arBlock, hloop, har⟩, _, _, ar, rfl, by simp [har]; rfl,
        hstored⟩)

/-! ## Isolation -/

/-- The device runs, and its handler is one for this relationship with its sender on. -/
def Exchanging (d : Device) (ar : AR) : Prop :=
  d.up ∧ ∃ h, d.cyclic = some h ∧ h.ar = ar ∧ d.On h

/-- An RT frame with the output frame ID of the relationship. -/
def IsOutputFrame (ar : AR) (payload : Bytes) : Prop :=
  2 ≤ payload.length ∧ isRTCyclicFrame (frameIDOf payload) ∧
    ∃ iocr, ar.outputIOCR = some iocr ∧ iocr.frameID = frameIDOf payload

/-- The event is the release of the relationship itself, or the begin of its own sender. -/
def OwnEnd (d : Device) (ar : AR) : Event → Prop
  | .control b => controlReleased d b = some ar
  | .release blocks objectUUID =>
    (findReleased d.arMgr blocks objectUUID).map Prod.snd = some ar
  | .send h => h.ar = ar
  | _ => False

/-- The event stops no exchange of a relationship in DATA but its own, and after it each
relationship in DATA whose exchange has started has it, with its output frames. -/
def Isolated (d : Device) (e : Event) : Prop :=
  ∀ d' ∈ step d e,
    (∀ ar, InData d ar → Exchanging d ar → ¬OwnEnd d ar e → Exchanging d' ar) ∧
    (d'.up → ∀ ar, InData d' ar → ar ∉ d'.starting → Exchanging d' ar ∧
      ∀ payload, IsOutputFrame ar payload → ∃ h, outputHandler d' payload = some h ∧ h.ar = ar)

/-- The event is the release or the start of another relationship, or another one is the
reason for which the process ends. -/
def StopsOther (d : Device) (ar : AR) : Event → Prop
  | .connect blocks _ _ => MeetsWrap blocks
  | .control b => ∃ a, controlReleased d b = some a ∧ a ≠ ar
  | .release blocks objectUUID =>
    ∃ a, (findReleased d.arMgr blocks objectUUID).map Prod.snd = some a ∧ a ≠ ar
  | .start a => a ∈ d.starting ∧ a ≠ ar
  | .send h => h ∈ d.created ∧ h.ar.cyclePeriod = 0 ∧ h.ar ≠ ar
  | _ => False

/-- No event of another relationship meets the handler of one in DATA. -/
def Alone (d : Device) (e : Event) : Prop :=
  d.up → ∀ h, d.cyclic = some h → InData d h.ar → ¬StopsOther d h.ar e

/-- What holds while every event meets the handler of its own relationship only. -/
structure Sound (d : Device) : Prop where
  keyed : Keyed d
  on : ∀ h, d.cyclic = some h → d.On h
  served : ∀ ar, InData d ar → ar ∈ d.starting ∨ ∃ h, d.cyclic = some h ∧ h.ar = ar

/-- A sender for a handler that has been made leaves the exchange as it is. -/
theorem quiet_startSender {d : Device} {h : CyclicHandler} (hcreated : h ∈ d.created)
    (hperiod : 0 < h.ar.cyclePeriod) : Quiet d (startSender d h) := by
  rw [startSender, newTicker, if_pos hperiod]
  refine ⟨rfl, rfl, ?_, fun _ h => h, fun _ h => .inl h, id⟩
  intro h'
  simp only [Device.On, List.mem_cons]
  by_cases hh : h' = h
  · simp [hh, hcreated]
  · simp [hh, List.mem_erase_of_ne hh]

theorem startSender_panics {d : Device} {h : CyclicHandler} (hperiod : h.ar.cyclePeriod = 0) :
    startSender d h = { d with up := false } := by
  rw [startSender, newTicker, if_neg (by omega)]

theorem step_eq {d : Device} (hup : d.up) (e : Event) : step d e = perform d e := if_pos hup

/-- A connect whose lengths wrap around stops the device. -/
theorem connect_panics {d : Device} {blocks : List PNIOBlock} (hup : d.up)
    (hwrap : MeetsWrap blocks) (addr : UDPAddr) (activityUUID : UUID) :
    step d (.connect blocks addr activityUUID) = some { d with up := false } := by
  have hunsafe : ¬(handleConnect d.arMgr blocks addr activityUUID).Safe :=
    fun h => (handleConnect_safe_iff d.arMgr blocks addr activityUUID).mp h hwrap
  obtain ⟨p, hp⟩ | ⟨status, hok⟩ | ⟨c, m, resp, ar, -, hok, -⟩ :=
    handleConnect_cases d.arMgr blocks addr activityUUID
  · rw [step_eq hup, perform, hp]
  · rw [hok] at hunsafe
    exact absurd trivial hunsafe
  · rw [hok] at hunsafe
    exact absurd trivial hunsafe

/-- A Connect request that does not panic leaves the exchange alone. -/
theorem connect_quiet {d : Device} {blocks : List PNIOBlock} (hup : d.up)
    (hwrap : ¬MeetsWrap blocks) (addr : UDPAddr) (activityUUID : UUID) :
    ∃ d', step d (.connect blocks addr activityUUID) = some d' ∧ Quiet d d' := by
  have hsafe := (handleConnect_safe_iff d.arMgr blocks addr activityUUID).mpr hwrap
  obtain ⟨p, hp⟩ | ⟨status, hok⟩ | ⟨c, m, resp, ar, -, hok, hars, huuid, hstate, -⟩ :=
    handleConnect_cases d.arMgr blocks addr activityUUID
  · rw [hp] at hsafe
    exact hsafe.elim
  · exact ⟨d, by rw [step_eq hup, perform, hok], .refl d⟩
  · refine ⟨{ d with arMgr := m }, by rw [step_eq hup, perform, hok], ?_⟩
    refine quiet_of_insert rfl rfl (fun _ => Iff.rfl) (fun _ h => h) hars ?_ fun _ => huuid
    rw [hstate]
    exact fun h => by cases h

/-- What an event can do: leave the exchange alone, end the process, release a
relationship, or start an exchange. -/
theorem step_cases {d d' : Device} {e : Event} (hup : d.up) (h : step d e = some d') :
    Quiet d d' ∨
      (d'.up = false ∧ ∀ ar, StopsOther d ar e ∨ OwnEnd d ar e) ∨
      (∃ arUUID ar, Releases d d' arUUID ar ∧ (∀ b, b ≠ ar → StopsOther d b e) ∧
        OwnEnd d ar e) ∨
      ∃ ar ∈ d.starting, e = .start ar ∧
        d' = onCyclicStart { d with starting := d.starting.erase ar } ar := by
  have hperform := h
  rw [step_eq hup] at hperform
  cases e with
  | connect blocks addr activityUUID =>
    by_cases hwrap : MeetsWrap blocks
    · rw [connect_panics hup hwrap] at h
      cases h
      exact .inr (.inl ⟨rfl, fun ar => .inl hwrap⟩)
    · obtain ⟨d'', hstep, hquiet⟩ := connect_quiet hup hwrap addr activityUUID
      rw [hstep] at h
      cases h
      exact .inl hquiet
  | write blocks objectUUID =>
    cases hperform
    exact .inl (quiet_handleWrite d blocks objectUUID)
  | control b =>
    rw [perform] at hperform
    cases hblock : controlBlock d b with
    | error status =>
      rw [hblock] at hperform
      cases hperform
      exact .inl (.refl d)
    | ok r =>
      rw [hblock] at hperform
      cases hperform
      obtain ⟨hquiet, -⟩ | ⟨ar, har, hreleases⟩ := controlBlock_cases hblock
      · exact .inl hquiet
      · exact .inr (.inr (.inl ⟨_, ar, hreleases, fun b hb => ⟨ar, har, hb.symm⟩, har⟩))
  | release blocks objectUUID =>
    cases hperform
    cases hfind : findReleased d.arMgr blocks objectUUID with
    | none =>
      rw [handleRelease, hfind]
      exact .inl (.refl d)
    | some r =>
      have hreleased : (findReleased d.arMgr blocks objectUUID).map Prod.snd = some r.2 := by
        rw [hfind, Option.map_some]
      rw [handleRelease, hfind]
      exact .inr (.inr (.inl ⟨r.1, r.2, releases_onCyclicStop (findReleased_lookup hfind),
        fun b hb => ⟨r.2, hreleased, hb.symm⟩, hreleased⟩))
  | ready arUUID =>
    obtain ⟨-, ⟨⟩⟩ := Option.ite_none_right_eq_some.mp hperform
    have hquiet := quiet_applicationReady (d := { d with
      readying := d.readying.erase arUUID }) arUUID
    exact .inl ⟨hquiet.up, hquiet.cyclic, hquiet.on, hquiet.starting, hquiet.inData, hquiet.keyed⟩
  | start ar =>
    obtain ⟨hmem, ⟨⟩⟩ := Option.ite_none_right_eq_some.mp hperform
    exact .inr (.inr (.inr ⟨ar, hmem, rfl, rfl⟩))
  | send handler =>
    obtain ⟨hmem, ⟨⟩⟩ := Option.ite_none_right_eq_some.mp hperform
    by_cases hperiod : handler.ar.cyclePeriod = 0
    · rw [startSender_panics hperiod]
      refine .inr (.inl ⟨rfl, ?_⟩)
      intro ar
      by_cases har : handler.ar = ar
      · exact .inr har
      · exact .inl ⟨hmem, hperiod, har⟩
    · exact .inl (quiet_startSender hmem (Nat.pos_of_ne_zero hperiod))

theorem Sound.exchanging {d : Device} (h : Sound d) (hup : d.up) {ar : AR} (har : InData d ar)
    (hstarting : ar ∉ d.starting) : Exchanging d ar := by
  obtain hmem | ⟨handler, hcyclic, hhandler⟩ := h.served ar har
  · exact absurd hmem hstarting
  · exact ⟨hup, handler, hcyclic, hhandler, h.on handler hcyclic⟩

/-- What leaves the exchange as it is keeps it right. -/
theorem Quiet.sound {d d' : Device} (h : Quiet d d') (hd : Sound d) : Sound d' where
  keyed := h.keyed hd.keyed
  on := by
    intro handler hcyclic
    rw [h.cyclic] at hcyclic
    exact (h.on handler).mpr (hd.on handler hcyclic)
  served := by
    intro ar har
    rw [h.cyclic]
    obtain har | hmem := h.inData ar har
    · exact (hd.served ar har).imp_left (h.starting ar)
    · exact .inl hmem

theorem Quiet.exchanging {d d' : Device} (h : Quiet d d') {ar : AR} (har : Exchanging d ar) :
    Exchanging d' ar := by
  obtain ⟨hup, handler, hcyclic, hhandler, hon⟩ := har
  exact ⟨h.up.trans hup, handler, h.cyclic.trans hcyclic, hhandler, (h.on handler).mpr hon⟩

/-- The handler of a relationship in DATA is met by its own events only. -/
theorem Alone.not_stopsOther {d : Device} {e : Event} (h : Alone d e) {ar : AR}
    (har : InData d ar) (hex : Exchanging d ar) : ¬StopsOther d ar e := by
  obtain ⟨hup, handler, hcyclic, rfl, -⟩ := hex
  exact h hup handler hcyclic har

/-- A release keeps the exchange right, if it meets no handler of another relationship. -/
theorem Releases.sound {d d' : Device} {e : Event} {arUUID : UUID} {ar : AR}
    (h : Releases d d' arUUID ar) (hother : ∀ b, b ≠ ar → StopsOther d b e) (hup : d.up)
    (hd : Sound d) (halone : Alone d e) : Sound d' where
  keyed := by
    intro uuid b hb
    rw [h.ars] at hb
    exact forall_lookup_erase hd.keyed arUUID uuid b hb
  on := by
    intro handler hcyclic
    rw [h.cyclic] at hcyclic
    cases hcyclic
  served := by
    intro b hb
    left
    have hne : b.arUUID ≠ arUUID := by
      intro hkey
      rw [InData, h.ars, hkey, AList.lookup_erase] at hb
      cases hb.1
    rw [InData, h.ars, AList.lookup_erase_ne hne] at hb
    rw [h.starting]
    by_contra hstarting
    refine halone.not_stopsOther hb (hd.exchanging hup hb hstarting) (hother b ?_)
    rintro rfl
    exact hne (hd.keyed arUUID b h.found)

/-- A start keeps the exchange right, if it meets no handler of another relationship. -/
theorem onCyclicStart_sound {d : Device} {ar : AR} (hup : d.up) (hmem : ar ∈ d.starting)
    (hd : Sound d) (halone : Alone d (.start ar)) :
    Sound (onCyclicStart { d with starting := d.starting.erase ar } ar) where
  keyed := by
    intro uuid b hb
    rw [onCyclicStart, stopHandler_arMgr] at hb
    exact hd.keyed uuid b hb
  on := by
    rintro handler ⟨⟩
    exact .inl (.head _)
  served := by
    intro b hb
    rw [InData, onCyclicStart, stopHandler_arMgr] at hb
    rw [onCyclicStart, stopHandler_starting]
    by_cases hbar : b = ar
    · exact .inr ⟨_, rfl, hbar.symm⟩
    · refine .inl ((List.mem_erase_of_ne hbar).mpr ?_)
      by_contra hstarting
      exact halone.not_stopsOther hb (hd.exchanging hup hb hstarting) ⟨hmem, Ne.symm hbar⟩

/-- What an event that meets the condition keeps. -/
theorem Sound.step {d d' : Device} {e : Event} (hd : Sound d) (hup : d.up) (halone : Alone d e)
    (h : step d e = some d') :
    (∀ ar, InData d ar → Exchanging d ar → ¬OwnEnd d ar e → Exchanging d' ar) ∧
      (d'.up → Sound d') := by
  obtain hquiet | ⟨hdown, hall⟩ | ⟨arUUID, ar, hreleases, hother, hown⟩ | ⟨ar, hmem, rfl, rfl⟩ :=
    step_cases hup h
  · exact ⟨fun ar _ hex _ => hquiet.exchanging hex, fun _ => hquiet.sound hd⟩
  · refine ⟨?_, fun hup' => ?_⟩
    · intro ar har hex hnot
      obtain hstops | hown := hall ar
      · exact absurd hstops (halone.not_stopsOther har hex)
      · exact absurd hown hnot
    · rw [hdown] at hup'
      cases hup'
  · refine ⟨?_, fun _ => hreleases.sound hother hup hd halone⟩
    intro b hb hex hnot
    refine absurd (hother b ?_) (halone.not_stopsOther hb hex)
    rintro rfl
    exact hnot hown
  · refine ⟨?_, fun _ => onCyclicStart_sound hup hmem hd halone⟩
    intro b hb hex _
    by_cases hbar : b = ar
    · exact ⟨(stopHandler_up _).trans hup, _, rfl, hbar.symm, .inl (.head _)⟩
    · exact absurd ⟨hmem, Ne.symm hbar⟩ (halone.not_stopsOther hb hex)

/-- An event of another relationship stops the exchange. -/
theorem StopsOther.step {d : Device} {e : Event} {ar : AR} (hup : d.up) (h : StopsOther d ar e) :
    ∃ d', step d e = some d' ∧ ¬Exchanging d' ar ∧ ¬OwnEnd d ar e := by
  cases e with
  | connect blocks addr activityUUID =>
    refine ⟨_, connect_panics hup h addr activityUUID, ?_, id⟩
    exact fun hex => absurd hex.1 (by simp)
  | write blocks objectUUID => exact h.elim
  | control b =>
    obtain ⟨a, ha, hne⟩ := h
    obtain ⟨r, hblock, hreleases⟩ := controlBlock_releases ha
    have hstep : ProfinetDevice.step d (.control b) = some r.1 := by
      rw [step_eq hup, perform, hblock]
    refine ⟨_, hstep, ?_, ?_⟩
    · rintro ⟨-, handler, hcyclic, -⟩
      rw [hreleases.cyclic] at hcyclic
      cases hcyclic
    · intro hown
      exact hne (Option.some.inj (ha.symm.trans hown))
  | release blocks objectUUID =>
    obtain ⟨a, ha, hne⟩ := h
    obtain ⟨r, hfind, rfl⟩ := Option.map_eq_some_iff.mp ha
    have hstep : ProfinetDevice.step d (.release blocks objectUUID) =
        some ((onCyclicStop d).deleteAR r.1) := by
      rw [step_eq hup, perform, handleRelease, hfind]
    refine ⟨_, hstep, ?_, ?_⟩
    · rintro ⟨-, handler, hcyclic, -⟩
      cases hcyclic
    · intro hown
      exact hne (Option.some.inj (ha.symm.trans hown))
  | ready arUUID => exact h.elim
  | start a =>
    refine ⟨_, (step_eq hup _).trans (if_pos h.1), ?_, id⟩
    rintro ⟨-, handler, ⟨⟩, har, -⟩
    exact h.2 har
  | send handler =>
    obtain ⟨hmem, hperiod, hne⟩ := h
    refine ⟨_, (step_eq hup _).trans (if_pos hmem), ?_, hne⟩
    rw [startSender_panics hperiod]
    exact fun hex => absurd hex.1 (by simp)

theorem StopsOther.not_isolated {d : Device} {e : Event} {ar : AR} (h : StopsOther d ar e)
    (hdata : InData d ar) (hex : Exchanging d ar) : ¬Isolated d e := by
  intro hisolated
  obtain ⟨d', hstep, hnot, hown⟩ := h.step hex.1
  exact hnot ((hisolated d' hstep).1 ar hdata hex hown)

/-- A frame of a relationship that exchanges data goes to its own handler. -/
theorem outputHandler_of_exchanging {d : Device} {ar : AR} (h : Exchanging d ar) {payload : Bytes}
    (hframe : IsOutputFrame ar payload) :
    ∃ handler, outputHandler d payload = some handler ∧ handler.ar = ar := by
  obtain ⟨-, handler, hcyclic, rfl, -⟩ := h
  obtain ⟨hlength, hrt, iocr, hiocr, hid⟩ := hframe
  refine ⟨handler, ?_, rfl⟩
  rw [outputHandler, if_neg (by omega), if_neg (ProfinetDispatch.not_isDCPFrame hrt), if_pos hrt,
    hcyclic, Option.filter_some, if_pos (by simp [hiocr, hid])]

/-- Where the device is sound, an event isolates the relationships exactly when it meets
the condition. -/
theorem isolated_iff_alone {d : Device} {e : Event} (hd : d.up → Sound d) :
    Isolated d e ↔ Alone d e := by
  constructor
  · intro h hup handler hcyclic hdata hstops
    have hex : Exchanging d handler.ar := ⟨hup, handler, hcyclic, rfl, (hd hup).on handler hcyclic⟩
    exact hstops.not_isolated hdata hex h
  · intro halone d' hstep
    have hup : d.up := (Option.ite_none_right_eq_some.mp hstep).1
    obtain ⟨hkept, hsound⟩ := (hd hup).step hup halone hstep
    refine ⟨hkept, ?_⟩
    intro hup' ar har hstarting
    have hex := (hsound hup').exchanging hup' har hstarting
    exact ⟨hex, fun payload hframe => outputHandler_of_exchanging hex hframe⟩

theorem sound_newDevice (localMAC : Bytes) : Sound (newDevice localMAC) where
  keyed := by simp [Keyed, newDevice]
  on := by simp [newDevice]
  served := by simp [InData, newDevice]

/-- In every run of requests the relationships are isolated exactly when no release and
no start of one meets the handler of another one in DATA. -/
theorem meets_isolated_iff (localMAC : Bytes) (events : List Event) :
    Meets step Isolated (newDevice localMAC) events ↔
      Meets step Alone (newDevice localMAC) events := by
  have hkept : ∀ d e d', (d.up → Sound d) → Isolated d e → step d e = some d' →
      d'.up → Sound d' := by
    intro d e d' hd hisolated hstep
    have hup : d.up := (Option.ite_none_right_eq_some.mp hstep).1
    exact ((hd hup).step hup ((isolated_iff_alone hd).mp hisolated) hstep).2
  exact meets_congr hkept (fun d e hd => isolated_iff_alone hd)
    (fun _ => sound_newDevice localMAC)

/-! ## Two controllers -/

def sampleUUID (n : UInt8) : UUID := .copy 16 (List.replicate 15 0 ++ [n])

/-- A Connect request with nothing but the AR block. -/
def sampleConnect (n : UInt8) : List PNIOBlock :=
  [⟨blockTypeARBlockReq, 54, 1, 0, [0, 1] ++ (sampleUUID n).val ++ List.replicate 34 0⟩]

def prmEndBlock (arUUID : UUID) : PNIOBlock :=
  ⟨blockTypeIODControlReq, 24, 1, 0, arUUID.val ++ [0, 0, 0, 0, 0, 1]⟩

def sampleAddr (n : UInt8) : UDPAddr := ⟨[192, 168, 0, n], 34964⟩

/-- The relationship of such a request. -/
def sampleAR (n : UInt8) (state : ARState) : AR where
  arUUID := sampleUUID n
  arType := 1
  sessionKey := 0
  initiatorMAC := .copy 6 []
  initiatorAddr := sampleAddr n
  activityUUID := .copy 16 []
  state := state

/-- One controller has brought its relationship into DATA, a second one has connected. -/
def twoControllers : List Event :=
  [.connect (sampleConnect 1) (sampleAddr 1) (.copy 16 []), .control (prmEndBlock (sampleUUID 1)),
    .ready (sampleUUID 1), .start (sampleAR 1 .data),
    .connect (sampleConnect 2) (sampleAddr 2) (.copy 16 [])]

def twoConnected : Device := (run step (newDevice []) twoControllers).getD (newDevice [])

theorem run_twoControllers : run step (newDevice []) twoControllers = some twoConnected := by
  cases hrun : run step (newDevice []) twoControllers with
  | none => exact absurd (congrArg Option.isSome hrun) (by decide)
  | some d => rw [twoConnected, hrun, Option.getD_some]

/-- The release of the second relationship stops the exchange of the first. -/
theorem not_meets_isolated_release :
    ¬Meets step Isolated (newDevice []) (twoControllers ++ [.release [] (sampleUUID 2)]) := by
  intro h
  have hdata : InData twoConnected (sampleAR 1 .data) := ⟨by decide, rfl⟩
  have hex : Exchanging twoConnected (sampleAR 1 .data) :=
    ⟨by decide, ⟨0, sampleAR 1 .data⟩, by decide, rfl, .inl (by decide)⟩
  have hstops : StopsOther twoConnected (sampleAR 1 .data) (.release [] (sampleUUID 2)) :=
    ⟨sampleAR 2 .connected, by decide, by decide⟩
  exact hstops.not_isolated hdata hex (h.last run_twoControllers)

/-! ## The period of the sender -/

/-- The request is a Connect request for the UUID. -/
def Connects (arUUID : UUID) : Event → Prop
  | .connect blocks _ _ => ∃ c : AcceptedConnect, c.blocks = blocks ∧ c.arBlock.arUUID = arUUID
  | _ => False

/-- After the request, in every run without another Connect request for its UUID, the
period is positive once the relationship is in DATA, and the ticker is created. -/
def StartsPositive (c : AcceptedConnect) : Prop :=
  ∀ (d d₁ d₂ : Device) (addr : UDPAddr) (activityUUID : UUID) (events : List Event) (ar : AR),
    step d (.connect c.blocks addr activityUUID) = some d₁ →
    (∀ e ∈ events, ¬Connects c.arBlock.arUUID e) → run step d₁ events = some d₂ →
    d₂.arMgr.ars.lookup c.arBlock.arUUID = some ar → ar.state = .data →
      0 < ar.cyclePeriod ∧ newTicker ar.cyclePeriod = .ok ar.cyclePeriod

/-- The last input block, if there is one, has both factors. -/
def AcceptedConnect.PositiveFactors (c : AcceptedConnect) : Prop :=
  ∀ iocr, lastInput c.seen.iocrs = some iocr →
    iocr.sendClockFactor ≠ 0 ∧ iocr.reductionRatio ≠ 0

/-- A write changes no relationship but in its state. -/
theorem stems_handleWrite (d : Device) (blocks : List PNIOBlock) (objectUUID : UUID) :
    Stems d (handleWrite d blocks objectUUID).1 := by
  rw [handleWrite]
  split
  next => exact .refl d
  next arUUID ar hfind =>
    split
    next => exact stems_setAR (findAR_lookup hfind) rfl
    next => exact .refl d

theorem stems_handleRelease (d : Device) (blocks : List PNIOBlock) (objectUUID : UUID) :
    Stems d (handleRelease d blocks objectUUID).1 := by
  rw [handleRelease]
  split
  next => exact .refl d
  next arUUID ar hfind => exact (releases_onCyclicStop (findReleased_lookup hfind)).stems

theorem stems_applicationReady (d : Device) (arUUID : UUID) :
    Stems d (applicationReady d arUUID) := by
  rw [applicationReady]
  split
  next => exact .refl d
  next ar hfind =>
    split
    next => exact stems_setAR hfind rfl
    next => exact .refl d

/-- Each event but a connect leaves a relationship what it was, up to its state. -/
theorem step_stems {d d' : Device} {e : Event} (h : step d e = some d') {uuid : UUID}
    (hconnects : ¬Connects uuid e) {ar' : AR} (hlookup : d'.arMgr.ars.lookup uuid = some ar') :
    ∃ ar, d.arMgr.ars.lookup uuid = some ar ∧ ar' = { ar with state := ar'.state } := by
  obtain ⟨hup, hperform⟩ := Option.ite_none_right_eq_some.mp h
  cases e with
  | connect blocks addr activityUUID =>
    rw [perform] at hperform
    obtain ⟨p, hp⟩ | ⟨status, hok⟩ | ⟨c, m, resp, ar, hblocks, hok, hars, -⟩ :=
      handleConnect_cases d.arMgr blocks addr activityUUID
    · rw [hp] at hperform
      cases hperform
      exact ⟨ar', hlookup, rfl⟩
    · rw [hok] at hperform
      cases hperform
      exact ⟨ar', hlookup, rfl⟩
    · rw [hok] at hperform
      cases hperform
      have hne : uuid ≠ c.arBlock.arUUID := fun hkey => hconnects ⟨c, hblocks, hkey.symm⟩
      dsimp only at hlookup
      rw [hars, AList.lookup_insert_ne hne] at hlookup
      exact ⟨ar', hlookup, rfl⟩
  | write blocks objectUUID =>
    cases hperform
    exact stems_handleWrite d blocks objectUUID uuid ar' hlookup
  | control b =>
    rw [perform] at hperform
    split at hperform
    next hblock =>
      cases hperform
      obtain ⟨-, hstems, -⟩ | ⟨ar, -, hreleases⟩ := controlBlock_cases hblock
      · exact hstems uuid ar' hlookup
      · exact hreleases.stems uuid ar' hlookup
    next =>
      cases hperform
      exact ⟨ar', hlookup, rfl⟩
  | release blocks objectUUID =>
    cases hperform
    exact stems_handleRelease d blocks objectUUID uuid ar' hlookup
  | ready arUUID =>
    obtain ⟨-, ⟨⟩⟩ := Option.ite_none_right_eq_some.mp hperform
    exact stems_applicationReady { d with readying := d.readying.erase arUUID } arUUID uuid ar'
      hlookup
  | start ar =>
    obtain ⟨-, ⟨⟩⟩ := Option.ite_none_right_eq_some.mp hperform
    rw [onCyclicStart, stopHandler_arMgr] at hlookup
    exact ⟨ar', hlookup, rfl⟩
  | send handler =>
    obtain ⟨-, ⟨⟩⟩ := Option.ite_none_right_eq_some.mp hperform
    rw [startSender] at hlookup
    split at hlookup
    next => exact ⟨ar', hlookup, rfl⟩
    next => exact ⟨ar', hlookup, rfl⟩

theorem run_stems {d d' : Device} {events : List Event} {uuid : UUID}
    (hconnects : ∀ e ∈ events, ¬Connects uuid e) (h : run step d events = some d') {ar' : AR}
    (hlookup : d'.arMgr.ars.lookup uuid = some ar') :
    ∃ ar, d.arMgr.ars.lookup uuid = some ar ∧ ar' = { ar with state := ar'.state } := by
  induction events generalizing d with
  | nil =>
    cases h
    exact ⟨ar', hlookup, rfl⟩
  | cons e events ih =>
    obtain ⟨d₁, hstep, hrest⟩ := Option.bind_eq_some_iff.mp h
    obtain ⟨ar₁, hlookup₁, har₁⟩ := ih (fun e he => hconnects e (.tail _ he)) hrest
    obtain ⟨ar, hlookup, har⟩ := step_stems hstep (hconnects e (.head _)) hlookup₁
    refine ⟨ar, hlookup, ?_⟩
    rw [har₁, har]

/-- The period is positive exactly when the last input block has both factors. -/
theorem cyclePeriod_pos_iff {c : AcceptedConnect} {ar : AR} (h : Clocked c.seen ar) :
    0 < ar.cyclePeriod ↔ c.PositiveFactors := by
  rw [Clocked] at h
  rw [AcceptedConnect.PositiveFactors, AR.cyclePeriod]
  cases hlast : lastInput c.seen.iocrs with
  | none =>
    rw [hlast] at h
    simp [h]
  | some iocr =>
    rw [hlast] at h
    obtain ⟨info, hinfo, hclock, hratio⟩ := h
    simp [hinfo, hclock, hratio, Nat.pos_iff_ne_zero, ← UInt16.toNat_inj]

/-- The relationship that an accepted request stores. -/
theorem AcceptedConnect.step {c : AcceptedConnect} {d d₁ : Device} {addr : UDPAddr}
    {activityUUID : UUID} (h : step d (.connect c.blocks addr activityUUID) = some d₁) :
    d₁.up = d.up ∧ ∃ ar, d₁.arMgr.ars.lookup c.arBlock.arUUID = some ar ∧ Clocked c.seen ar := by
  obtain ⟨hup, hperform⟩ := Option.ite_none_right_eq_some.mp h
  obtain ⟨ar, hars, -, -, hclock⟩ := createAR_stores d.arMgr c.seen c.arBlock addr activityUUID
  rw [perform, handleConnect, c.parsed, attempt_ok, ok_bind] at hperform
  dsimp only at hperform
  rw [c.found] at hperform
  cases hperform
  refine ⟨rfl, ar, ?_, hclock⟩
  dsimp only
  rw [hars, AList.lookup_insert]

theorem blockARUUID_prmEndBlock (arUUID : UUID) : blockARUUID (prmEndBlock arUUID) = arUUID := by
  have htake : (prmEndBlock arUUID).data.take 16 = arUUID.val := by
    rw [prmEndBlock, List.take_append_of_le_length arUUID.property.ge,
      List.take_of_length_le arUUID.property.le]
  rw [blockARUUID, htake, FixedBytes.copy_val]

/-- The command of the block is the end of the parameters. -/
theorem controlCmdOf_prmEndBlock (arUUID : UUID) :
    controlCmdOf (prmEndBlock arUUID) = controlCmdPrmEnd := by
  have hdrop : (prmEndBlock arUUID).data.drop 20 = [0, 1] := by
    rw [prmEndBlock, List.drop_append, arUUID.property,
      List.drop_of_length_le (by rw [arUUID.property]; decide)]
    rfl
  rw [controlCmdOf, hdrop]
  rfl

theorem isControlBlock_prmEndBlock (arUUID : UUID) : isControlBlock (prmEndBlock arUUID) := by
  simp [isControlBlock, prmEndBlock, arUUID.property]

/-- The end of the parameterisation brings the relationship into DATA. -/
theorem run_prmEnd {d : Device} (hup : d.up) {arUUID : UUID} {ar : AR}
    (hlookup : d.arMgr.ars.lookup arUUID = some ar) :
    ∃ d', run step d [.control (prmEndBlock arUUID), .ready arUUID] = some d' ∧
      d'.arMgr.ars.lookup arUUID = some { ar with state := .data } := by
  have hcontrol : step d (.control (prmEndBlock arUUID)) =
      some { d.setAR arUUID { ar with state := .waitAppReady } with
        readying := arUUID :: d.readying } := by
    rw [step_eq hup, perform, controlBlock, if_neg (by simp [isControlBlock_prmEndBlock]),
      blockARUUID_prmEndBlock, hlookup]
    dsimp only
    rw [if_pos (controlCmdOf_prmEndBlock arUUID)]
    rfl
  rw [run, hcontrol, Option.bind_some, run, step_eq (by exact hup), perform, if_pos (.head _),
    applicationReady]
  simp [Device.setAR, run]

theorem AcceptedConnect.enabled (c : AcceptedConnect) {d : Device} (hup : d.up) (addr : UDPAddr)
    (activityUUID : UUID) : ∃ d₁, ProfinetDevice.step d (.connect c.blocks addr activityUUID) =
      some d₁ := by
  rw [step_eq hup, perform, handleConnect, c.parsed, attempt_ok, ok_bind]
  dsimp only
  rw [c.found]
  exact ⟨_, rfl⟩

/-- A sender with a positive period had two positive factors. -/
theorem StartsPositive.positiveFactors {c : AcceptedConnect} (h : StartsPositive c) :
    c.PositiveFactors := by
  obtain ⟨d₁, hstep⟩ := c.enabled (d := newDevice []) rfl (sampleAddr 1) (.copy 16 [])
  obtain ⟨hup, ar, hlookup, hclock⟩ := c.step hstep
  obtain ⟨d₂, hrun, hdata⟩ := run_prmEnd hup hlookup
  have hclock' : Clocked c.seen { ar with state := .data } := hclock
  rw [← cyclePeriod_pos_iff hclock']
  exact (h _ d₁ d₂ _ _ _ _ hstep (by simp [Connects]) hrun hdata rfl).1

/-- The period of the cyclic sender is positive in every run exactly when the last
input block of the Connect request has a send clock factor and a reduction ratio that are
not zero. -/
theorem startsPositive_iff (c : AcceptedConnect) : StartsPositive c ↔ c.PositiveFactors := by
  constructor
  · exact StartsPositive.positiveFactors
  · intro h d d₁ d₂ addr activityUUID events ar hstep hconnects hrun hlookup _
    obtain ⟨-, ar₁, hlookup₁, hclock⟩ := c.step hstep
    obtain ⟨ar₀, hlookup₀, har⟩ := run_stems hconnects hrun hlookup
    cases hlookup₁.symm.trans hlookup₀
    have hpos : 0 < ar.cyclePeriod := by
      rw [har]
      exact (cyclePeriod_pos_iff hclock).mpr h
    exact ⟨hpos, if_pos hpos⟩

/-- An input block with the send clock factor 32 and the reduction ratio 0. -/
def zeroRatioBlock : PNIOBlock :=
  ⟨blockTypeIOCRBlockReq, 40, 1, 0, [0, 1, 0, 1, 0x88, 0x92, 0, 0, 0, 1, 0, 4, 0, 0, 0, 32, 0, 0] ++
    List.replicate 20 0⟩

def zeroRatioIOCR : IOCRBlockReq where
  iocrType := 1
  iocrReference := 1
  lt := 0x8892
  iocrProperties := 1
  dataLength := 4
  frameID := 0
  sendClockFactor := 32
  reductionRatio := 0
  phase := 0
  sequence := 0
  frameSendOffset := 0
  watchdogFactor := 0
  dataHoldFactor := 0
  iocrTagHeader := 0
  iocrMulticastMAC := .copy 6 []

/-- The AR block of such a request, as it is parsed. -/
def sampleARBlock (n : UInt8) : ARBlockReq where
  arType := 1
  arUUID := sampleUUID n
  sessionKey := 0
  cmInitiatorMAC := .copy 6 []
  cmInitiatorObjUUID := .copy 16 []
  arProperties := 0
  cmInitiatorActivityTimeout := 0
  cmInitiatorUDPRTPort := 0
  cmInitiatorStationName := []

def zeroRatio : AcceptedConnect where
  blocks := sampleConnect 1 ++ [zeroRatioBlock]
  seen := {
    ar := some (sampleARBlock 1)
    iocrs := [zeroRatioIOCR] }
  arBlock := sampleARBlock 1
  parsed := by decide
  found := rfl

theorem not_startsPositive_zeroRatio : ¬StartsPositive zeroRatio := by
  intro h
  exact (h.positiveFactors zeroRatioIOCR rfl).2 rfl

end ProfinetDevice
