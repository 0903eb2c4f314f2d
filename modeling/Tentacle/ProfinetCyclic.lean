import Mathlib.Data.List.Flatten
import Mathlib.Data.List.Nodup
import Tentacle.ProfinetAr
import Tentacle.ProfinetDcp
import Tentacle.ProfinetIoData

/-!
# Cyclic input data

The device lays the buffers of its input subslots one after another into the frame. The
controller keeps its tags in one flat map and reads each at its offset within its
subslot, as if the subslot stood at the beginning of the data. It finds the tags of the
first subslot and no others.
-/

namespace ProfinetCyclic

open GoValues GoSlices BigEndian Outcome ProfinetBlocks ProfinetAr ProfinetDcp ProfinetExpected
  ProfinetIoData

def ioxSGood : UInt8 := 0x80
def dataStatusNormal : UInt8 := 0x35

def subslotsOf (slots : List SlotConfig) : List SubslotConfig := slots.flatMap SlotConfig.subslots

/-- The subslots that `sendInputFrame` does not pass over. -/
def inputSubslots (slots : List SlotConfig) : List SubslotConfig :=
  (subslotsOf slots).filter fun sub => sub.direction.isInput

def countSubmodules (slots : List SlotConfig) (input : Bool) : Nat :=
  let count := ((subslotsOf slots).filter fun sub =>
    if input then sub.direction.isInput else sub.direction.isOutput).length
  if count = 0 then 1 else count

/-! ## The device -/

structure CyclicHandler where
  ar : AR
  slots : List SlotConfig
  inputData : Bytes
  inputIOPS : Bytes
  cycleCounter : UInt16 := 0

def newCyclicHandler (ar : AR) (slots : List SlotConfig) : CyclicHandler where
  ar := ar
  slots := slots
  inputData :=
    match ar.inputIOCR with
    | some iocr => List.replicate iocr.dataLength.toNat 0
    | none => []
  inputIOPS := List.replicate (countSubmodules slots true) 0

/-- The state of the loop over the subslots. -/
structure Gathered where
  inputData : Bytes
  inputIOPS : Bytes
  offset : Nat := 0
  iopsIdx : Nat := 0

/-- What `getInputData` returns for a subslot, by its number among the input subslots of
this cycle. Without a callback that is nothing. -/
abbrev InputSource := Nat → SubslotConfig → Outcome Empty Bytes

/-- One round of that loop. -/
def gatherSubslot (getInputData : InputSource) (g : Gathered) (sub : SubslotConfig) :
    Outcome Empty Gathered :=
  if !sub.direction.isInput then .ok g
  else do
    let data ← getInputData g.iopsIdx sub
    let inputData ←
      if 0 < data.length ∧ g.offset + data.length ≤ g.inputData.length then
        copyFrom g.inputData g.offset data
      else .ok g.inputData
    return {
      inputData := inputData
      inputIOPS :=
        if g.iopsIdx < g.inputIOPS.length then g.inputIOPS.set g.iopsIdx ioxSGood
        else g.inputIOPS
      offset := g.offset + sub.inputSize.toNat
      iopsIdx := g.iopsIdx + 1 }

def buildFrame (frameID : UInt16) (g : Gathered) (cycleCounter : UInt16) : Bytes :=
  putUint 2 frameID.toNat ++
    (g.inputData ++ (g.inputIOPS ++ (putUint 2 cycleCounter.toNat ++ [dataStatusNormal, 0x00])))

/-- The handler after a cycle, and the payload that it has put on the wire. -/
def sendInputFrame [EthernetLink] (getInputData : InputSource) (h : CyclicHandler) :
    Outcome Empty (CyclicHandler × Option Bytes) :=
  match h.ar.inputIOCR with
  | none => .ok (h, none)
  | some iocr => do
    let g ← (subslotsOf h.slots).foldlM (gatherSubslot getInputData)
      { inputData := h.inputData, inputIOPS := h.inputIOPS }
    let h' := { h with
      inputData := g.inputData
      inputIOPS := g.inputIOPS
      cycleCounter := h.cycleCounter + 1 }
    return (h', sendFrame (buildFrame iocr.frameID g h.cycleCounter))

/-- The values of the tags at each call of `GetInputBuffer` in a cycle. -/
abbrev Snapshot := Nat → GoMap String Value

def getInputBuffer (snapshot : Snapshot) : InputSource :=
  fun k sub => packInputBuffer sub (snapshot k)

def runCycles [EthernetLink] (h : CyclicHandler) (cycles : List Snapshot) :
    Outcome Empty CyclicHandler :=
  cycles.foldlM (fun h snapshot => do
    let (h', _) ← sendInputFrame (getInputBuffer snapshot) h
    return h') h

/-! ## The controller -/

/-- The tag index of `handleSubscribe`. -/
def tagIndex (slots : List SlotSubscription) : GoMap String ControllerTag :=
  (slots.flatMap fun slot => slot.subslots.flatMap SubslotSubscription.tags).foldl
    (fun m tag => m.insert tag.tagID tag) ∅

/-- The length of the input data that `NewControllerAR` asks for. -/
def inputDataLen (slots : List SlotSubscription) : UInt16 :=
  (slots.flatMap SlotSubscription.subslots).foldl (fun n sub => n + sub.inputSize) 0

/-- The data that `HandleInputFrame` passes on, if the frame is one for its relationship. -/
def handleInputFrame (inputFrameID : UInt16) (payload : Bytes) : Option Bytes :=
  if payload.length < 2 then none
  else if UInt16.ofNat (uint (payload.take 2)) ≠ inputFrameID then none
  else some (payload.drop 2)

/-! ## A layout of both sides -/

/-- Slots with tags under the offsets of their subslots. -/
structure Layout where
  slots : List SlotConfig
  wellPlaced : ∀ sub ∈ inputSubslots slots, WellPlaced sub
  tagIDs : (((subslotsOf slots).flatMap SubslotConfig.tags).map TagMapping.tagID).Nodup

variable (layout : Layout) (ar : AR) (iocr : IOCRInfo)

def Layout.subscription : List SlotSubscription := layout.slots.map SlotConfig.subscription

def Layout.dataLength : Nat := (inputDataLen layout.subscription).toNat

/-- A relationship that the controller has connected for the layout. -/
def Layout.connectedAR : AR :=
  { ar with
    inputIOCR := some { iocr with dataLength := inputDataLen layout.subscription } }

/-- The controller reads every packed integer and boolean from the payload. -/
def ReadsBack (snapshot : Snapshot) (payload : Bytes) : Prop :=
  ∃ data, handleInputFrame iocr.frameID payload = some data ∧
    ∀ before sub after, inputSubslots layout.slots = before ++ sub :: after →
      ∀ tag ∈ sub.tags, tag.source ≠ "" →
      ∀ val, (snapshot before.length).lookup tag.tagID = some val →
      ∀ p, packedValue tag.datatype val = some p →
        ∃ controllerTag, (tagIndex layout.subscription).lookup tag.tagID = some controllerTag ∧
          controllerTag.direction = "input" ∧ unpackTagValue controllerTag data = some p

/-- The device does not panic, and what it sends in any cycle can be read back. -/
def Agrees [EthernetLink] : Prop :=
  ∀ cycles snapshot,
    (runCycles (newCyclicHandler (layout.connectedAR ar iocr) layout.slots) cycles).Ensures
      fun h => (sendInputFrame (getInputBuffer snapshot) h).Ensures
        fun r => ∀ payload, r.2 = some payload → ReadsBack layout iocr snapshot payload

def inputBytes (subs : List SubslotConfig) : Nat :=
  (subs.map fun sub => sub.inputSize.toNat).sum

def Layout.frameLength : Nat := 6 + layout.dataLength + countSubmodules layout.slots true

/-- Every integer and every boolean is in a subslot at the beginning of the data. -/
def Layout.InPlace : Prop :=
  ∀ before sub after, inputSubslots layout.slots = before ++ sub :: after →
    ∀ tag ∈ sub.tags, tag.source ≠ "" → tag.datatype.isIntegerOrBool →
      inputBytes before = 0 ∧ sub.inputSize.toNat ≤ layout.dataLength

/-! ## The loop over the subslots -/

theorem foldlM_gatherSubslot_filter (F : InputSource) (subs : List SubslotConfig) (g : Gathered) :
    subs.foldlM (gatherSubslot F) g =
      (subs.filter fun sub => sub.direction.isInput).foldlM (gatherSubslot F) g := by
  induction subs generalizing g with
  | nil => rfl
  | cons sub subs ih =>
    by_cases hinput : sub.direction.isInput
    · rw [List.filter_cons, if_pos hinput, List.foldlM_cons, List.foldlM_cons]
      exact congrArg _ (funext fun g' => ih g')
    · rw [List.filter_cons, if_neg hinput, List.foldlM_cons, gatherSubslot,
        if_pos (by simp [hinput]), ok_bind, ih]

/-- A buffer is put into the data if it fits. -/
def place (b : Bytes) (lo : Nat) (src : Bytes) : Bytes :=
  if 0 < src.length ∧ lo + src.length ≤ b.length then overwrite b lo src else b

theorem length_place (b : Bytes) (lo : Nat) (src : Bytes) : (place b lo src).length = b.length := by
  rw [place]
  split
  next h => exact length_overwrite h.2
  next => rfl

theorem getElem?_place_of_lt {b src : Bytes} {lo i : Nat} (hi : i < lo) :
    (place b lo src)[i]? = b[i]? := by
  rw [place]
  split
  next h => exact getElem?_overwrite_of_not_mem h.2 (Or.inl hi)
  next => rfl

/-- The state after a round whose buffer is known. -/
def Gathered.add (g : Gathered) (sub : SubslotConfig) (data : Bytes) : Gathered where
  inputData := place g.inputData g.offset data
  inputIOPS :=
    if g.iopsIdx < g.inputIOPS.length then g.inputIOPS.set g.iopsIdx ioxSGood else g.inputIOPS
  offset := g.offset + sub.inputSize.toNat
  iopsIdx := g.iopsIdx + 1

/-- A submodule whose data are there puts them at its place. -/
theorem gatherSubslot_ok {F : InputSource} {g : Gathered} {sub : SubslotConfig} {data : Bytes}
    (hinput : sub.direction.isInput) (hdata : F g.iopsIdx sub = .ok data) :
    gatherSubslot F g sub = .ok (g.add sub data) := by
  rw [gatherSubslot, if_neg (by simp [hinput]), hdata, ok_bind]
  dsimp only
  by_cases h : 0 < data.length ∧ g.offset + data.length ≤ g.inputData.length
  · rw [if_pos h, copyFrom_ok h.2, ok_bind, Gathered.add, place, if_pos h]
    rfl
  · rw [if_neg h, ok_bind, Gathered.add, place, if_neg h]
    rfl

/-- What a part of the loop leaves as it was. -/
structure Kept (subs : List SubslotConfig) (g g' : Gathered) : Prop where
  data : g'.inputData.length = g.inputData.length
  iops : g'.inputIOPS.length = g.inputIOPS.length
  offset : g'.offset = g.offset + inputBytes subs
  index : g'.iopsIdx = g.iopsIdx + subs.length
  before : ∀ i < g.offset, g'.inputData[i]? = g.inputData[i]?

/-- A submodule changes no length, and moves the offset by its own. -/
theorem Kept.add (g : Gathered) (sub : SubslotConfig) (data : Bytes) :
    Kept [sub] g (g.add sub data) where
  data := length_place _ _ _
  iops := by
    dsimp only [Gathered.add]
    split <;> simp
  offset := by simp [Gathered.add, inputBytes]
  index := rfl
  before _ hi := getElem?_place_of_lt hi

/-- One list of submodules after the other moves the offset by both. -/
theorem Kept.trans {subs subs' : List SubslotConfig} {g g' g'' : Gathered} (h : Kept subs g g')
    (h' : Kept subs' g' g'') : Kept (subs ++ subs') g g'' where
  data := h'.data.trans h.data
  iops := h'.iops.trans h.iops
  offset := by
    rw [h'.offset, h.offset, inputBytes, inputBytes, inputBytes, List.map_append, List.sum_append,
      Nat.add_assoc]
  index := by rw [h'.index, h.index, List.length_append, Nat.add_assoc]
  before i hi := (h'.before i (by rw [h.offset]; omega)).trans (h.before i hi)

/-- The source gives every subslot as many bytes as it has, and does not panic. -/
def Fills (F : InputSource) (subs : List SubslotConfig) : Prop :=
  ∀ sub ∈ subs, sub.direction.isInput ∧
    ∀ k, (F k sub).Ensures fun data => data.length = sub.inputSize.toNat

/-- The inputs that the source has are gathered without a panic. -/
theorem ensures_gather {F : InputSource} {subs : List SubslotConfig} (h : Fills F subs)
    (g : Gathered) : (subs.foldlM (gatherSubslot F) g).Ensures (Kept subs g) := by
  induction subs generalizing g with
  | nil => exact ⟨rfl, rfl, rfl, rfl, fun _ _ => rfl⟩
  | cons sub subs ih =>
    obtain ⟨hinput, hdata⟩ := h sub (by simp)
    obtain ⟨data, hdata, -⟩ := (hdata g.iopsIdx).exists_ok
    rw [List.foldlM_cons, gatherSubslot_ok hinput hdata, ok_bind]
    exact (ih (fun other hother => h other (by simp [hother])) (g.add sub data)).imp
      fun g' hg' => (Kept.add g sub data).trans hg'

/-! ## The frame -/

theorem length_buildFrame (frameID : UInt16) (g : Gathered) (cycleCounter : UInt16) :
    (buildFrame frameID g cycleCounter).length = 6 + g.inputData.length + g.inputIOPS.length := by
  simp [buildFrame]
  omega

/-- What follows the data on the wire. -/
def trailer (g : Gathered) (cycleCounter : UInt16) : Bytes :=
  g.inputIOPS ++ (putUint 2 cycleCounter.toNat ++ [dataStatusNormal, 0x00]) ++
    List.replicate (46 - (6 + g.inputData.length + g.inputIOPS.length)) 0

/-- What is sent is received with its trailer. -/
theorem handleInputFrame_sendFrame [EthernetLink] {frameID : UInt16} {g : Gathered}
    {cycleCounter : UInt16} {payload : Bytes}
    (h : sendFrame (buildFrame frameID g cycleCounter) = some payload) :
    handleInputFrame frameID payload = some (g.inputData ++ trailer g cycleCounter) := by
  rw [sendFrame, Option.ite_none_right_eq_some, length_buildFrame] at h
  have hpayload : payload =
      putUint 2 frameID.toNat ++ (g.inputData ++ trailer g cycleCounter) := by
    rw [← Option.some.inj h.2, buildFrame, trailer]
    simp only [List.append_assoc]
  have htake : payload.take 2 = putUint 2 frameID.toNat := by
    rw [hpayload, List.take_left' (length_putUint 2 _)]
  rw [handleInputFrame, if_neg, htake, uint_putUint_of_lt frameID.toNat_lt, UInt16.ofNat_toNat,
    if_neg (by simp), hpayload, List.drop_left' (length_putUint 2 _)]
  rw [hpayload, List.length_append, length_putUint]
  omega

/-- The state of a handler of the layout, whatever it has sent. -/
structure Sized (h : CyclicHandler) : Prop where
  ar : h.ar = layout.connectedAR ar iocr
  slots : h.slots = layout.slots
  data : h.inputData.length = layout.dataLength
  iops : h.inputIOPS.length = countSubmodules layout.slots true

theorem sized_newCyclicHandler :
    Sized layout ar iocr (newCyclicHandler (layout.connectedAR ar iocr) layout.slots) where
  ar := rfl
  slots := rfl
  data := List.length_replicate ..
  iops := List.length_replicate ..

def CyclicHandler.start (h : CyclicHandler) : Gathered where
  inputData := h.inputData
  inputIOPS := h.inputIOPS

def CyclicHandler.next (h : CyclicHandler) (g : Gathered) : CyclicHandler :=
  { h with
    inputData := g.inputData
    inputIOPS := g.inputIOPS
    cycleCounter := h.cycleCounter + 1 }

variable {layout ar iocr}

theorem sendInputFrame_ok [EthernetLink] {h : CyclicHandler} (hsized : Sized layout ar iocr h)
    {F : InputSource} {g : Gathered}
    (hg : (inputSubslots layout.slots).foldlM (gatherSubslot F) h.start = .ok g) :
    sendInputFrame F h =
      .ok (h.next g, sendFrame (buildFrame iocr.frameID g h.cycleCounter)) := by
  have hiocr : h.ar.inputIOCR =
      some { iocr with dataLength := inputDataLen layout.subscription } := by
    rw [hsized.ar]
    rfl
  rw [inputSubslots, ← foldlM_gatherSubslot_filter, ← hsized.slots] at hg
  rw [sendInputFrame, hiocr]
  dsimp only
  rw [← CyclicHandler.start, hg]
  rfl

theorem fills (snapshot : Snapshot) :
    Fills (getInputBuffer snapshot) (inputSubslots layout.slots) := by
  intro sub hsub
  exact ⟨(List.mem_filter.mp hsub).2,
    fun k => length_packInputBuffer (layout.wellPlaced sub hsub) (snapshot k)⟩

theorem ensures_runCycles [EthernetLink] (cycles : List Snapshot) :
    (runCycles (newCyclicHandler (layout.connectedAR ar iocr) layout.slots) cycles).Ensures
      (Sized layout ar iocr) := by
  refine ensures_foldlM (fun snapshot _ h hsized => ?_) (sized_newCyclicHandler layout ar iocr)
  obtain ⟨g, hg, hkept⟩ := (ensures_gather (fills snapshot) h.start).exists_ok
  rw [sendInputFrame_ok hsized hg]
  exact ⟨hsized.ar, hsized.slots, hkept.data.trans hsized.data, hkept.iops.trans hsized.iops⟩

/-! ## Where the tags are found -/

/-- A tag of an input is found in the index. -/
theorem lookup_tagIndex {sub : SubslotConfig} (hsub : sub ∈ inputSubslots layout.slots)
    {tag : TagMapping} (htag : tag ∈ sub.tags) :
    (tagIndex layout.subscription).lookup tag.tagID = some tag.controllerTag := by
  have hflat : (layout.subscription.flatMap fun slot =>
      slot.subslots.flatMap SubslotSubscription.tags) =
        ((subslotsOf layout.slots).flatMap SubslotConfig.tags).map TagMapping.controllerTag := by
    simp only [Layout.subscription, SlotConfig.subscription, SubslotConfig.subscription,
      subslotsOf, List.flatMap_map, List.map_flatMap, List.flatMap_assoc]
  have hmem : tag ∈ (subslotsOf layout.slots).flatMap SubslotConfig.tags :=
    List.mem_flatMap.mpr ⟨sub, (List.mem_filter.mp hsub).1, htag⟩
  rw [tagIndex, hflat, List.foldl_map]
  exact lookup_foldl_insert TagMapping.tagID TagMapping.controllerTag layout.tagIDs ∅ hmem

/-- The bytes of the first subslot with input data stand at the beginning. -/
theorem getElem?_gather {F : InputSource} {before after : List SubslotConfig} {sub : SubslotConfig}
    (h : Fills F (before ++ sub :: after)) {g : Gathered} (hoffset : g.offset = 0)
    (hbefore : inputBytes before = 0) (hfits : sub.inputSize.toNat ≤ g.inputData.length)
    {data : Bytes} (hdata : F (g.iopsIdx + before.length) sub = .ok data)
    (hlength : data.length = sub.inputSize.toNat) :
    ((before ++ sub :: after).foldlM (gatherSubslot F) g).Ensures fun g' =>
      ∀ i < sub.inputSize.toNat, g'.inputData[i]? = data[i]? := by
  rw [List.foldlM_append]
  refine (ensures_gather (fun other hother => h other (by simp [hother])) g).bind
    fun g₁ hkept₁ => ?_
  have hoffset₁ : g₁.offset = 0 := by rw [hkept₁.offset, hoffset, hbefore]
  rw [← hkept₁.index] at hdata
  rw [List.foldlM_cons, gatherSubslot_ok (h sub (by simp)).1 hdata, ok_bind]
  refine (ensures_gather (fun other hother => h other (by simp [hother])) _).imp
    fun g' hkept i hi => ?_
  have hend : (g₁.add sub data).offset = sub.inputSize.toNat := by
    rw [Gathered.add, hoffset₁, Nat.zero_add]
  have hplace : 0 < data.length ∧ 0 + data.length ≤ g₁.inputData.length := by
    rw [hkept₁.data]
    omega
  rw [hkept.before i (by omega), Gathered.add]
  dsimp only
  rw [hoffset₁, place, if_pos hplace, getElem?_overwrite_of_mem hplace.2 (Nat.zero_le i) (by omega),
    Nat.sub_zero]

/-- Where the tags lie in their own bytes, the controller reads what the device wrote. -/
theorem readsBack_of_inPlace [EthernetLink] (h : layout.InPlace) {handler : CyclicHandler}
    (hsized : Sized layout ar iocr handler) (snapshot : Snapshot) {g : Gathered}
    (hg : (inputSubslots layout.slots).foldlM (gatherSubslot (getInputBuffer snapshot))
      handler.start = .ok g) {payload : Bytes}
    (hsend : sendFrame (buildFrame iocr.frameID g handler.cycleCounter) = some payload) :
    ReadsBack layout iocr snapshot payload := by
  refine ⟨_, handleInputFrame_sendFrame hsend, ?_⟩
  intro before sub after hsplit tag htag hsource val hval p hp
  have hsub : sub ∈ inputSubslots layout.slots := by simp [hsplit]
  obtain ⟨hbefore, hfits⟩ :=
    h before sub after hsplit tag htag hsource (isIntegerOrBool_of_packedValue hp)
  have hplaced := layout.wellPlaced sub hsub
  have hwithin := (hplaced.within tag htag hsource).1
  obtain ⟨buf, hbuf, hlength, hread⟩ :=
    (unpackTagValue_packInputBuffer hplaced _ htag hsource hval hp).exists_ok
  refine ⟨_, lookup_tagIndex hsub htag, if_neg hsource, ?_⟩
  have hfill : Fills (getInputBuffer snapshot) (inputSubslots layout.slots) := fills snapshot
  rw [hsplit] at hg hfill
  have hcall : getInputBuffer snapshot (handler.start.iopsIdx + before.length) sub = .ok buf := by
    rw [CyclicHandler.start, Nat.zero_add]
    exact hbuf
  have hdata := getElem?_gather hfill (g := handler.start) rfl hbefore
    (hfits.trans hsized.data.ge) hcall hlength
  have hkept := ensures_gather hfill handler.start
  rw [hg] at hdata hkept
  have hsize : g.inputData.length = layout.dataLength := hkept.data.trans hsized.data
  rw [← hread]
  apply unpackTagValue_congr hp (by rw [List.length_append]; omega) (by omega)
  refine window_congr fun i hi hin => ?_
  rw [List.getElem?_append_left (by omega)]
  exact hdata i (by omega)

/-! ## Where they are not found -/

/-- Two states of the loop that differ at most in bytes of the data other than one. -/
structure Same (i : Nat) (g g' : Gathered) : Prop where
  data : g.inputData.length = g'.inputData.length
  byte : g.inputData[i]? = g'.inputData[i]?
  iops : g.inputIOPS = g'.inputIOPS
  offset : g.offset = g'.offset
  index : g.iopsIdx = g'.iopsIdx

/-- Data that agree at a byte leave the frames in agreement there. -/
theorem Same.add {i : Nat} {g g' : Gathered} (h : Same i g g') (sub : SubslotConfig)
    {data data' : Bytes} (hlength : data.length = data'.length)
    (hbyte : g.offset + data.length ≤ g.inputData.length → g.offset ≤ i →
      data[i - g.offset]? = data'[i - g.offset]?) :
    Same i (g.add sub data) (g'.add sub data') where
  data := by
    dsimp only [Gathered.add]
    rw [length_place, length_place, h.data]
  byte := by
    dsimp only [Gathered.add]
    rw [place, place, ← h.offset, ← h.data, ← hlength]
    by_cases hplace : 0 < data.length ∧ g.offset + data.length ≤ g.inputData.length
    · have hplace' : g.offset + data'.length ≤ g'.inputData.length := by
        rw [← hlength, ← h.data]
        exact hplace.2
      rw [if_pos hplace, if_pos hplace]
      by_cases hi : g.offset ≤ i ∧ i < g.offset + data.length
      · rw [getElem?_overwrite_of_mem hplace.2 hi.1 hi.2,
          getElem?_overwrite_of_mem hplace' hi.1 (by omega), hbyte hplace.2 hi.1]
      · rw [getElem?_overwrite_of_not_mem hplace.2 (by omega),
          getElem?_overwrite_of_not_mem hplace' (by omega), h.byte]
    · rw [if_neg hplace, if_neg hplace, h.byte]
  iops := by
    dsimp only [Gathered.add]
    rw [h.iops, h.index]
  offset := by
    dsimp only [Gathered.add]
    rw [h.offset]
  index := by
    dsimp only [Gathered.add]
    rw [h.index]

/-- Subslots that are given the same bytes keep the states the same. -/
theorem gather_same {F F' : InputSource} {subs : List SubslotConfig} (h : Fills F subs)
    (hF : ∀ sub ∈ subs, ∀ k, F k sub = F' k sub) {i : Nat} {g g' : Gathered} (hg : Same i g g') :
    ∃ g₁ g₁', subs.foldlM (gatherSubslot F) g = .ok g₁ ∧
      subs.foldlM (gatherSubslot F') g' = .ok g₁' ∧ Same i g₁ g₁' := by
  refine foldlM_related (fun sub hsub g g' hg => ?_) hg
  obtain ⟨hinput, hdata⟩ := h sub hsub
  obtain ⟨data, hdata, -⟩ := (hdata g.iopsIdx).exists_ok
  have hdata' : F' g'.iopsIdx sub = .ok data := by
    rw [← hg.index, ← hF sub hsub, hdata]
  exact ⟨_, _, gatherSubslot_ok hinput hdata, gatherSubslot_ok hinput hdata',
    hg.add sub rfl fun _ _ => rfl⟩

theorem lookup_singleton_of_ne {tagID other : String} (h : other ≠ tagID) (val : Value) :
    (AList.singleton tagID val : GoMap String Value).lookup other = none := by
  cases hlookup : (AList.singleton tagID val : GoMap String Value).lookup other with
  | none => rfl
  | some val' => exact absurd (eq_of_lookup_singleton hlookup).1 h

theorem lookup_singleton_self (tagID : String) (val : Value) :
    (AList.singleton tagID val : GoMap String Value).lookup tagID = some val := by
  rw [← AList.insert_empty, AList.lookup_insert]

/-- A subslot without the tag does not depend on its value. -/
theorem packInputBuffer_singleton {sub : SubslotConfig} {tagID : String}
    (h : tagID ∉ sub.tags.map TagMapping.tagID) (val : Value) :
    packInputBuffer sub (AList.singleton tagID val) =
      .ok (List.replicate sub.inputSize.toNat 0) := by
  have hfixed : ∀ (tags : List TagMapping) (buf : Bytes), tagID ∉ tags.map TagMapping.tagID →
      tags.foldlM (packTag (AList.singleton tagID val)) buf = .ok buf := by
    intro tags buf htags
    induction tags with
    | nil => rfl
    | cons tag tags ih =>
      rw [List.map_cons, List.mem_cons, not_or] at htags
      have htag : packTag (AList.singleton tagID val) buf tag = .ok buf := by
        rw [packTag, lookup_singleton_of_ne (Ne.symm htags.1)]
        split <;> rfl
      rw [List.foldlM_cons, htag, ok_bind, ih htags.2]
  rw [packInputBuffer, makeSlice_ok, ok_bind, hfixed _ _ h]

theorem nodup_tagIDs (layout : Layout) :
    (((inputSubslots layout.slots).flatMap SubslotConfig.tags).map TagMapping.tagID).Nodup := by
  refine layout.tagIDs.sublist (List.Sublist.map _ ?_)
  exact List.filter_sublist.flatMap _

section

variable {before after : List SubslotConfig} {sub : SubslotConfig} {tag : TagMapping}

/-- A tag stands in one subslot only. -/
theorem not_mem_tagIDs (hsplit : inputSubslots layout.slots = before ++ sub :: after)
    (htag : tag ∈ sub.tags) {other : SubslotConfig} (hother : other ∈ before ∨ other ∈ after) :
    tag.tagID ∉ other.tags.map TagMapping.tagID := by
  intro hid
  have hnodup := nodup_tagIDs layout
  rw [hsplit, List.flatMap_append, List.flatMap_cons, List.map_append, List.map_append,
    List.nodup_append, List.nodup_append] at hnodup
  obtain ⟨-, ⟨-, -, hafter⟩, hbefore⟩ := hnodup
  have hmem : tag.tagID ∈ sub.tags.map TagMapping.tagID := List.mem_map_of_mem htag
  have hflat : ∀ {subs : List SubslotConfig}, other ∈ subs →
      tag.tagID ∈ (subs.flatMap SubslotConfig.tags).map TagMapping.tagID := by
    intro subs hsubs
    obtain ⟨u, hu, hid⟩ := List.mem_map.mp hid
    exact List.mem_map.mpr ⟨u, List.mem_flatMap.mpr ⟨other, hsubs, hu⟩, hid⟩
  obtain hother | hother := hother
  · exact hbefore _ (hflat hother) _ (List.mem_append_left _ hmem) rfl
  · exact hafter _ hmem _ (hflat hother) rfl

/-- The bytes beside the only tag with a value are zero. -/
theorem getElem?_packInputBuffer_singleton (hsub : sub ∈ inputSubslots layout.slots)
    (htag : tag ∈ sub.tags) (val : Value) {i : Nat} (hi : i < tag.byteOffset.toNat) :
    (packInputBuffer sub (AList.singleton tag.tagID val)).Ensures fun buf =>
      buf.length = sub.inputSize.toNat ∧
        buf[i]? = (List.replicate sub.inputSize.toNat 0)[i]? := by
  have hown : (sub.tags.map TagMapping.tagID).Nodup := by
    refine (nodup_tagIDs layout).sublist (List.Sublist.map _ ?_)
    exact List.sublist_flatten_of_mem (List.mem_map_of_mem hsub)
  refine getElem?_packInputBuffer (layout.wellPlaced sub hsub) _ fun u hu _ hlookup => ?_
  have hid : u.tagID = tag.tagID := by
    by_contra hne
    exact hlookup (lookup_singleton_of_ne hne val)
  rw [List.inj_on_of_nodup_map hown hu htag hid]
  exact Or.inl hi

/-- The byte at which the controller looks for the beginning of a tag that is not in place
does not depend on the value of the tag. -/
theorem gather_same_of_not_inPlace (hsplit : inputSubslots layout.slots = before ++ sub :: after)
    (htag : tag ∈ sub.tags) {g : Gathered} (hoffset : g.offset = 0)
    (h : ¬(inputBytes before = 0 ∧ sub.inputSize.toNat ≤ g.inputData.length)) (val val' : Value) :
    ∃ g₁ g₁',
      (inputSubslots layout.slots).foldlM (gatherSubslot
        (getInputBuffer fun _ => AList.singleton tag.tagID val)) g = .ok g₁ ∧
      (inputSubslots layout.slots).foldlM (gatherSubslot
        (getInputBuffer fun _ => AList.singleton tag.tagID val')) g = .ok g₁' ∧
      Same tag.byteOffset.toNat g₁ g₁' := by
  have hsub : sub ∈ inputSubslots layout.slots := by simp [hsplit]
  have hequal : ∀ other, other ∈ before ∨ other ∈ after → ∀ k : Nat,
      getInputBuffer (fun _ => AList.singleton tag.tagID val) k other =
        getInputBuffer (fun _ => AList.singleton tag.tagID val') k other := by
    intro other hother k
    have hnone := not_mem_tagIDs hsplit htag hother
    exact (packInputBuffer_singleton hnone val).trans (packInputBuffer_singleton hnone val').symm
  have hfill : Fills (getInputBuffer fun _ => AList.singleton tag.tagID val)
      (inputSubslots layout.slots) := fills _
  rw [hsplit] at hfill ⊢
  have hfill₁ : Fills (getInputBuffer fun _ => AList.singleton tag.tagID val) before :=
    fun other hother => hfill other (by simp [hother])
  obtain ⟨g₁, g₁', hg₁, hg₁', hsame⟩ := gather_same hfill₁
    (fun other hother => hequal other (Or.inl hother))
    (⟨rfl, rfl, rfl, rfl, rfl⟩ : Same tag.byteOffset.toNat g g)
  have hkept := ensures_gather hfill₁ g
  rw [hg₁, ensures_ok] at hkept
  obtain ⟨buf, hbuf, hlength⟩ :=
    (length_packInputBuffer (layout.wellPlaced sub hsub) (AList.singleton tag.tagID val)).exists_ok
  obtain ⟨buf', hbuf', hlength'⟩ :=
    (length_packInputBuffer (layout.wellPlaced sub hsub) (AList.singleton tag.tagID val')).exists_ok
  have hadd : Same tag.byteOffset.toNat (g₁.add sub buf) (g₁'.add sub buf') := by
    refine hsame.add sub (hlength.trans hlength'.symm) fun hfits hle => ?_
    rw [hkept.data, hkept.offset, hoffset, Nat.zero_add, hlength] at hfits
    rw [hkept.offset, hoffset, Nat.zero_add] at hle ⊢
    have hi : tag.byteOffset.toNat - inputBytes before < tag.byteOffset.toNat := by omega
    have hzero := getElem?_packInputBuffer_singleton hsub htag val hi
    have hzero' := getElem?_packInputBuffer_singleton hsub htag val' hi
    rw [hbuf] at hzero
    rw [hbuf'] at hzero'
    exact hzero.2.trans hzero'.2.symm
  obtain ⟨g₂, g₂', hg₂, hg₂', hsame₂⟩ := gather_same
    (fun other hother => hfill other (by simp [hother]))
    (fun other hother => hequal other (Or.inr hother)) hadd
  have hinput := (hfill sub (by simp)).1
  refine ⟨g₂, g₂', ?_, ?_, hsame₂⟩
  · rw [List.foldlM_append, hg₁, ok_bind, List.foldlM_cons, gatherSubslot_ok hinput hbuf, ok_bind,
      hg₂]
  · rw [List.foldlM_append, hg₁', ok_bind, List.foldlM_cons, gatherSubslot_ok hinput hbuf', ok_bind,
      hg₂']

/-- Frames that agree at a byte of the data agree there on the wire. -/
theorem Same.wire {i : Nat} {g g' : Gathered} (h : Same i g g') (counter : UInt16) :
    (g.inputData ++ trailer g counter)[i]? = (g'.inputData ++ trailer g' counter)[i]? := by
  have htrailer : trailer g counter = trailer g' counter := by
    rw [trailer, trailer, h.iops, h.data]
  by_cases hi : i < g.inputData.length
  · rw [List.getElem?_append_left hi, List.getElem?_append_left (h.data ▸ hi), h.byte]
  · rw [List.getElem?_append_right (by omega), List.getElem?_append_right (by rw [← h.data]; omega),
      htrailer, h.data]

/-- What an agreement says of the first cycle, when only one tag has a value. -/
theorem Agrees.unpack [EthernetLink] (h : Agrees layout ar iocr)
    (hframe : layout.frameLength ≤ EthernetLink.maxPayload)
    (hsplit : inputSubslots layout.slots = before ++ sub :: after) (htag : tag ∈ sub.tags)
    (hsource : tag.source ≠ "") {val p : Value} (hp : packedValue tag.datatype val = some p)
    {g : Gathered}
    (hg : (inputSubslots layout.slots).foldlM (gatherSubslot
      (getInputBuffer fun _ => AList.singleton tag.tagID val))
      (newCyclicHandler (layout.connectedAR ar iocr) layout.slots).start = .ok g) :
    unpackTagValue tag.controllerTag (g.inputData ++ trailer g 0) = some p := by
  have hsized := sized_newCyclicHandler layout ar iocr
  have hsub : sub ∈ inputSubslots layout.slots := by simp [hsplit]
  have hfill : Fills (getInputBuffer fun _ => AList.singleton tag.tagID val)
      (inputSubslots layout.slots) := fills _
  have hkept := ensures_gather hfill (newCyclicHandler (layout.connectedAR ar iocr)
    layout.slots).start
  rw [hg, ensures_ok] at hkept
  obtain ⟨payload, hsend⟩ : ∃ payload, sendFrame (buildFrame iocr.frameID g 0) = some payload := by
    rw [sendFrame, if_pos]
    · exact ⟨_, rfl⟩
    · rw [length_buildFrame, hkept.data, hkept.iops]
      rw [Layout.frameLength, ← hsized.data, ← hsized.iops] at hframe
      exact hframe
  have hcycle := h [] fun _ => AList.singleton tag.tagID val
  rw [runCycles, List.foldlM_nil, pure_eq, ensures_ok, sendInputFrame_ok hsized hg,
    ensures_ok] at hcycle
  obtain ⟨data, hdata, hread⟩ := hcycle payload hsend
  rw [handleInputFrame_sendFrame hsend] at hdata
  obtain ⟨controllerTag, hlookup, -, hvalue⟩ :=
    hread before sub after hsplit tag htag hsource val (lookup_singleton_self _ val) p hp
  rw [lookup_tagIndex hsub htag] at hlookup
  rw [Option.some.inj hlookup, Option.some.inj hdata, hvalue]

/-- No agreement where a tag is not in place. -/
theorem not_agrees_of_not_inPlace [EthernetLink]
    (hframe : layout.frameLength ≤ EthernetLink.maxPayload)
    (hsplit : inputSubslots layout.slots = before ++ sub :: after) (htag : tag ∈ sub.tags)
    (hsource : tag.source ≠ "") (htype : tag.datatype.isIntegerOrBool)
    (h : ¬(inputBytes before = 0 ∧ sub.inputSize.toNat ≤ layout.dataLength)) :
    ¬Agrees layout ar iocr := by
  intro hagrees
  have hsized := sized_newCyclicHandler layout ar iocr
  rw [← hsized.data] at h
  obtain ⟨val₀, val₁, p₀, p₁, hp₀, hp₁, hdiffer⟩ := exists_values htype
  obtain ⟨g₀, g₁, hg₀, hg₁, hsame⟩ := gather_same_of_not_inPlace hsplit htag
    (g := (newCyclicHandler (layout.connectedAR ar iocr) layout.slots).start) rfl h val₀ val₁
  exact hdiffer _ _ (hagrees.unpack hframe hsplit htag hsource hp₀ hg₀)
    (hagrees.unpack hframe hsplit htag hsource hp₁ hg₁) (hsame.wire 0)

end

/-- The controller reads what the device has packed exactly when the frame is too long
to be sent, or all integers and booleans are in subslots at the beginning of the
data. -/
theorem agrees_iff_inPlace [EthernetLink] (layout : Layout) (ar : AR) (iocr : IOCRInfo) :
    Agrees layout ar iocr ↔ EthernetLink.maxPayload < layout.frameLength ∨ layout.InPlace := by
  constructor
  · intro h
    refine or_iff_not_imp_left.mpr fun hframe before sub after hsplit tag htag hsource htype => ?_
    by_contra hnot
    exact not_agrees_of_not_inPlace (Nat.le_of_not_lt hframe) hsplit htag hsource htype hnot h
  · intro h cycles snapshot
    refine (ensures_runCycles cycles).imp fun handler hsized => ?_
    obtain ⟨g, hg, hkept⟩ := (ensures_gather (fills snapshot) handler.start).exists_ok
    rw [sendInputFrame_ok hsized hg, ensures_ok]
    intro payload hsend
    obtain hframe | hplace := h
    · have hlength := (Option.ite_none_right_eq_some.mp hsend).1
      rw [length_buildFrame, hkept.data, hkept.iops] at hlength
      rw [Layout.frameLength, ← hsized.data, ← hsized.iops] at hframe
      exact absurd hlength (Nat.not_le_of_lt hframe)
    · exact readsBack_of_inPlace hplace hsized snapshot hg hsend

/-! ## Two subslots -/

/-- One 16-bit input tag at the beginning of its subslot. -/
def wordTag (tagID : String) : TagMapping where
  tagID := tagID
  byteOffset := 0
  bitOffset := 0
  datatype := .uint16
  source := "plc.data." ++ tagID

def wordSlot (slotNumber : UInt16) (tagID : String) : SlotConfig where
  slotNumber := slotNumber
  moduleIdentNo := 0x100
  subslots := [{
    subslotNumber := 1
    submoduleIdentNo := 0x101
    direction := .input
    inputSize := 2
    outputSize := 0
    tags := [wordTag tagID] }]

/-- Two slots with a word each. -/
def levelAndFlow : Layout where
  slots := [wordSlot 1 "level", wordSlot 2 "flow"]
  wellPlaced := by
    intro sub hsub
    have hsubs : inputSubslots [wordSlot 1 "level", wordSlot 2 "flow"] =
        (wordSlot 1 "level").subslots ++ (wordSlot 2 "flow").subslots := rfl
    rw [hsubs] at hsub
    simp only [wordSlot, List.cons_append, List.nil_append, List.mem_cons, List.not_mem_nil,
      or_false] at hsub
    obtain rfl | rfl := hsub
    all_goals exact ⟨by simp [wordTag, Within, typeSize], by simp⟩
  tagIDs := by decide

def sampleIOCR : IOCRInfo where
  iocrType := 1
  iocrReference := 1
  frameID := 0xC001
  dataLength := 4
  sendClockFactor := 32
  reductionRatio := 1
  watchdogFactor := 10
  dataHoldFactor := 10
  apis := []

def sampleAR : AR where
  arUUID := .copy 16 [1]
  arType := 1
  sessionKey := 1
  initiatorMAC := .copy 6 [2]
  initiatorAddr := ⟨[192, 168, 0, 1], 34964⟩
  activityUUID := .copy 16 [3]
  state := .data

/-- The controller looks for the flow where the level stands. -/
theorem not_agrees_levelAndFlow :
    letI := ethernet
    ¬Agrees levelAndFlow sampleAR sampleIOCR := by
  let _ := ethernet
  have hsplit : inputSubslots levelAndFlow.slots =
      (wordSlot 1 "level").subslots ++ (wordSlot 2 "flow").subslots := rfl
  exact not_agrees_of_not_inPlace (by decide) hsplit (List.mem_singleton_self _) (by decide)
    (by decide) (by decide)

end ProfinetCyclic
