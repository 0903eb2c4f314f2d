import Tentacle.ProfinetCyclic
import Tentacle.ProfinetDispatch

/-!
# Output frames at the device

The device copies an output frame over its output data and gives each output subslot its
part, one after another. The loop over the subslots of a slot ends at the first that does
not fit any more; the loop over the slots goes on from the same offset. A subslot of a later
slot that is small enough then gets bytes that are not its own.
-/

namespace ProfinetOutputFrames

open GoValues GoSlices BigEndian Outcome ProfinetBlocks ProfinetAr ProfinetIoData ProfinetCyclic
open ProfinetDispatch (frameIDOf)

/-! ## The handler -/

/-- The output side of a `CyclicHandler`. -/
structure OutputHandler where
  ar : AR
  slots : List SlotConfig
  outputData : Bytes

def newOutputHandler (ar : AR) (slots : List SlotConfig) : OutputHandler where
  ar := ar
  slots := slots
  outputData :=
    match ar.outputIOCR with
    | some iocr => List.replicate iocr.dataLength.toNat 0
    | none => []

/-- A call of `onOutputData`. Without a callback the calls are left out. -/
abbrev Call := SubslotConfig × Bytes

/-- The state of the two loops. -/
structure Dispatched where
  offset : Nat := 0
  calls : List Call := []

/-- The loop over the subslots of a slot, which `break` ends. -/
def dispatchSlot (outputData : Bytes) : List SubslotConfig → Dispatched → Outcome Empty Dispatched
  | [], s => .ok s
  | sub :: subs, s =>
    if !sub.direction.isOutput then dispatchSlot outputData subs s
    else
      let stop := s.offset + sub.outputSize.toNat
      if stop > outputData.length then .ok s
      else do
        let subData ← slice outputData s.offset stop
        dispatchSlot outputData subs ⟨stop, s.calls ++ [(sub, subData)]⟩

def dispatchSlots (outputData : Bytes) (slots : List SlotConfig) (s : Dispatched) :
    Outcome Empty Dispatched :=
  slots.foldlM (fun s slot => dispatchSlot outputData slot.subslots s) s

/-- The handler after the frame, and the calls that it has made. -/
def processOutputData (h : OutputHandler) (data : Bytes) :
    Outcome Empty (OutputHandler × List Call) := do
  let dataLen :=
    if h.outputData.length > data.length then data.length else h.outputData.length
  let received ← slice data 0 dataLen
  let outputData ← copyFrom h.outputData 0 received
  let s ← dispatchSlots outputData h.slots {}
  return ({ h with outputData := outputData }, s.calls)

def handleOutputFrame (h : OutputHandler) (payload : Bytes) :
    Outcome Empty (OutputHandler × List Call) :=
  if payload.length < 2 then .ok (h, [])
  else
    match h.ar.outputIOCR with
    | none => .ok (h, [])
    | some iocr =>
      if frameIDOf payload ≠ iocr.frameID then .ok (h, [])
      else do
        let data ← sliceFrom payload 2
        processOutputData h data

def receiveFrames (h : OutputHandler) (frames : List Bytes) : Outcome Empty OutputHandler :=
  frames.foldlM (fun h payload => do
    let (h', _) ← handleOutputFrame h payload
    return h') h

/-! ## What each subslot is to get -/

def outputsOf (slot : SlotConfig) : List SubslotConfig :=
  slot.subslots.filter fun sub => sub.direction.isOutput

def outputSubslots (slots : List SlotConfig) : List SubslotConfig := slots.flatMap outputsOf

def totalSize (subs : List SubslotConfig) : Nat := (subs.map fun sub => sub.outputSize.toNat).sum

/-- The output data with a frame over it. A short frame leaves the rest as it was. -/
def overlay (outputData data : Bytes) : Bytes :=
  data.take outputData.length ++ outputData.drop data.length

/-- The calls for the subslots that follow others: each one that fits gets the bytes at the
sum of the sizes before it. -/
def expectedCalls (outputData : Bytes) : List SubslotConfig → List SubslotConfig → List Call
  | _, [] => []
  | before, sub :: after =>
    let offset := totalSize before
    (if offset + sub.outputSize.toNat ≤ outputData.length then
      [(sub, (outputData.drop offset).take sub.outputSize.toNat)] else []) ++
      expectedCalls outputData (before ++ [sub]) after

/-- After the frames before, the frame makes the calls that it is to make. -/
def DispatchesExactly (ar : AR) (slots : List SlotConfig) (frames : List Bytes)
    (payload : Bytes) : Prop :=
  ∃ h h' calls, receiveFrames (newOutputHandler ar slots) frames = .ok h ∧
    handleOutputFrame h payload = .ok (h', calls) ∧
    calls = expectedCalls (overlay h.outputData (payload.drop 2)) [] (outputSubslots slots)

/-- Behind the first subslot that does not fit, with the offset where it was to lie, no
later slot begins with an output subslot that fits there. -/
def NoLaterFit (length : Nat) (done : List SubslotConfig) (slots : List SlotConfig) : Prop :=
  ∀ before slot after front sub back, slots = before ++ slot :: after →
    outputsOf slot = front ++ sub :: back →
    totalSize (done ++ outputSubslots before ++ front) ≤ length →
    length < totalSize (done ++ outputSubslots before ++ front) + sub.outputSize.toNat →
      ∀ later ∈ after, ∀ first ∈ (outputsOf later).head?,
        length < totalSize (done ++ outputSubslots before ++ front) + first.outputSize.toNat

/-! ## The loop over one slot -/

@[simp] theorem totalSize_nil : totalSize [] = 0 := rfl

@[simp] theorem totalSize_cons (sub : SubslotConfig) (subs : List SubslotConfig) :
    totalSize (sub :: subs) = sub.outputSize.toNat + totalSize subs := by simp [totalSize]

@[simp] theorem totalSize_append (subs subs' : List SubslotConfig) :
    totalSize (subs ++ subs') = totalSize subs + totalSize subs' := by simp [totalSize]

/-- The calls for subslots that all fit. -/
def windows (outputData : Bytes) : Nat → List SubslotConfig → List Call
  | _, [] => []
  | offset, sub :: subs =>
    (sub, (outputData.drop offset).take sub.outputSize.toNat) ::
      windows outputData (offset + sub.outputSize.toNat) subs

/-- The output subslots of a slot up to the first that does not fit. -/
structure Splits (length offset : Nat) (outs front rest : List SubslotConfig) : Prop where
  eq : outs = front ++ rest
  fits : offset + totalSize front ≤ length
  stops : ∀ sub ∈ rest.head?, length < offset + totalSize front + sub.outputSize.toNat

/-- The outputs are those that fit behind the offset and the rest. -/
theorem exists_splits (outs : List SubslotConfig) {length offset : Nat} (h : offset ≤ length) :
    ∃ front rest, Splits length offset outs front rest := by
  induction outs generalizing offset with
  | nil => exact ⟨[], [], rfl, by simpa using h, by simp⟩
  | cons sub outs ih =>
    by_cases hsub : offset + sub.outputSize.toNat ≤ length
    · obtain ⟨front, rest, heq, hfits, hstops⟩ := ih hsub
      refine ⟨sub :: front, rest, by rw [heq, List.cons_append], ?_, ?_⟩
      · rw [totalSize_cons]
        omega
      · intro next hnext
        have hnext := hstops next hnext
        rw [totalSize_cons]
        omega
    · refine ⟨[], sub :: outs, rfl, by simpa using h, ?_⟩
      rintro next ⟨⟩
      rw [totalSize_nil]
      omega

/-- A slot hands on the outputs that fit. -/
theorem dispatchSlot_eq {outputData : Bytes} {subs front rest : List SubslotConfig} {offset : Nat}
    (h : Splits outputData.length offset (subs.filter fun sub => sub.direction.isOutput) front rest)
    (calls : List Call) :
    dispatchSlot outputData subs ⟨offset, calls⟩ =
      .ok ⟨offset + totalSize front, calls ++ windows outputData offset front⟩ := by
  induction subs generalizing offset front calls with
  | nil =>
    obtain ⟨rfl, rfl⟩ := List.append_eq_nil_iff.mp h.eq.symm
    simp [dispatchSlot, windows]
  | cons sub subs ih =>
    obtain ⟨heq, hfits, hstops⟩ := h
    rw [dispatchSlot]
    by_cases houtput : sub.direction.isOutput
    · rw [if_neg (by simp [houtput])]
      rw [List.filter_cons, if_pos houtput] at heq
      cases front with
      | nil =>
        rw [List.nil_append] at heq
        have hlong := hstops sub (by rw [← heq]; rfl)
        rw [totalSize_nil] at hlong
        dsimp only
        rw [if_pos (by omega)]
        simp [windows]
      | cons first front =>
        obtain ⟨rfl, htail⟩ := List.cons.inj heq
        rw [totalSize_cons] at hfits hstops
        dsimp only
        rw [if_neg (by omega), slice_ok (by omega) (by omega), ok_bind,
          ih ⟨htail, by omega, fun next hnext => by have := hstops next hnext; omega⟩]
        rw [windows, totalSize_cons, List.append_assoc, List.singleton_append, Nat.add_assoc,
          List.drop_take, Nat.add_sub_cancel_left]
    · rw [if_pos (by simp [houtput])]
      rw [List.filter_cons, if_neg houtput] at heq
      exact ih ⟨heq, hfits, hstops⟩ calls

/-! ## The loop over the slots -/

/-- The loop does not panic, and adds to the calls. -/
theorem dispatchSlots_ok {outputData : Bytes} (slots : List SlotConfig) {offset : Nat}
    (h : offset ≤ outputData.length) (calls : List Call) :
    ∃ offset' more, dispatchSlots outputData slots ⟨offset, calls⟩ =
      .ok ⟨offset', calls ++ more⟩ := by
  induction slots generalizing offset calls with
  | nil => exact ⟨offset, [], by simp [dispatchSlots]⟩
  | cons slot slots ih =>
    obtain ⟨front, rest, hsplits⟩ := exists_splits (outputsOf slot) h
    obtain ⟨offset', more, hrest⟩ := ih hsplits.fits (calls ++ windows outputData offset front)
    refine ⟨offset', windows outputData offset front ++ more, ?_⟩
    rw [dispatchSlots, List.foldlM_cons, dispatchSlot_eq hsplits, ok_bind, ← List.append_assoc]
    exact hrest

/-- After it the other slots go on behind them. -/
theorem dispatchSlots_cons {outputData : Bytes} {slot : SlotConfig} {offset : Nat}
    {front rest : List SubslotConfig}
    (h : Splits outputData.length offset (outputsOf slot) front rest) (slots : List SlotConfig)
    (calls : List Call) :
    dispatchSlots outputData (slot :: slots) ⟨offset, calls⟩ =
      dispatchSlots outputData slots
        ⟨offset + totalSize front, calls ++ windows outputData offset front⟩ := by
  rw [dispatchSlots, List.foldlM_cons, dispatchSlot_eq h, ok_bind]
  rfl

/-- The loop makes no call exactly when no slot begins with an output subslot that fits. -/
theorem dispatchSlots_silent_iff {outputData : Bytes} (slots : List SlotConfig) {offset : Nat}
    (h : offset ≤ outputData.length) (calls : List Call) :
    (∃ offset', dispatchSlots outputData slots ⟨offset, calls⟩ = .ok ⟨offset', calls⟩) ↔
      ∀ slot ∈ slots, ∀ first ∈ (outputsOf slot).head?,
        outputData.length < offset + first.outputSize.toNat := by
  induction slots with
  | nil => exact iff_of_true ⟨offset, rfl⟩ (by simp)
  | cons slot slots ih =>
    obtain ⟨front, rest, hsplits⟩ := exists_splits (outputsOf slot) h
    rw [dispatchSlots_cons hsplits, List.forall_mem_cons]
    cases front with
    | nil =>
      have hfirst : ∀ first ∈ (outputsOf slot).head?,
          outputData.length < offset + first.outputSize.toNat := by
        rw [hsplits.eq]
        exact hsplits.stops
      rw [windows, List.append_nil, totalSize_nil, Nat.add_zero, ih]
      exact (and_iff_right hfirst).symm
    | cons first front =>
      apply iff_of_false
      · rintro ⟨offset', hsilent⟩
        obtain ⟨offset'', more, hmore⟩ := dispatchSlots_ok slots hsplits.fits
          (calls ++ windows outputData offset (first :: front))
        rw [hmore] at hsilent
        simp [windows] at hsilent
      · intro hall
        have hlong := hall.1 first (by rw [hsplits.eq]; rfl)
        have hfits := hsplits.fits
        rw [totalSize_cons] at hfits
        omega

/-! ## The calls that are to be made -/

/-- Outputs that fit are expected with their own bytes. -/
theorem expectedCalls_append {outputData : Bytes} {before front rest : List SubslotConfig}
    (h : totalSize before + totalSize front ≤ outputData.length) :
    expectedCalls outputData before (front ++ rest) =
      windows outputData (totalSize before) front ++
        expectedCalls outputData (before ++ front) rest := by
  induction front generalizing before with
  | nil => simp [windows]
  | cons sub front ih =>
    rw [totalSize_cons] at h
    rw [List.cons_append, expectedCalls, if_pos (by omega), windows,
      ih (by simp only [totalSize_append, totalSize_cons, totalSize_nil]; omega)]
    simp

/-- Nothing is expected behind the end of the data. -/
theorem expectedCalls_full {outputData : Bytes} {before : List SubslotConfig}
    (after : List SubslotConfig) (h : outputData.length < totalSize before) :
    expectedCalls outputData before after = [] := by
  induction after generalizing before with
  | nil => rfl
  | cons sub after ih =>
    rw [expectedCalls, if_neg (by omega), List.nil_append]
    apply ih
    rw [totalSize_append]
    omega

/-- Behind a subslot that does not fit nothing is to be called. -/
theorem expectedCalls_stopped {outputData : Bytes} {before : List SubslotConfig}
    {sub : SubslotConfig} (after : List SubslotConfig)
    (h : outputData.length < totalSize before + sub.outputSize.toNat) :
    expectedCalls outputData before (sub :: after) = [] := by
  rw [expectedCalls, if_neg (by omega), List.nil_append]
  apply expectedCalls_full
  simpa using h

theorem outputSubslots_cons (slot : SlotConfig) (slots : List SlotConfig) :
    outputSubslots (slot :: slots) = outputsOf slot ++ outputSubslots slots := List.flatMap_cons

/-- Where the slot fits as a whole, the condition is about the later ones. -/
theorem noLaterFit_of_fits {length : Nat} {done : List SubslotConfig} {slot : SlotConfig}
    {slots : List SlotConfig} (h : totalSize (done ++ outputsOf slot) ≤ length) :
    NoLaterFit length done (slot :: slots) ↔ NoLaterFit length (done ++ outputsOf slot) slots := by
  constructor
  · intro hall before slot' after front sub back hslots houts hfits hstops
    have hlater := hall (slot :: before) slot' after front sub back (by rw [hslots]; rfl) houts
    simp only [outputSubslots_cons, ← List.append_assoc] at hlater
    exact hlater hfits hstops
  · intro hall before slot' after front sub back hslots houts hfits hstops
    cases before with
    | nil =>
      obtain ⟨rfl, rfl⟩ := List.cons.inj hslots
      rw [houts] at h
      simp only [totalSize_append, totalSize_cons, outputSubslots, List.flatMap_nil,
        totalSize_nil] at h hstops
      omega
    | cons slot'' before =>
      obtain ⟨rfl, rfl⟩ := List.cons.inj hslots
      have hlater := hall before slot' after front sub back rfl houts
      simp only [outputSubslots_cons, ← List.append_assoc] at hfits hstops ⊢
      exact hlater hfits hstops

/-- The first subslot that does not fit is the same for both splits. -/
theorem Splits.front_eq {length offset : Nat} {outs front rest front' back : List SubslotConfig}
    {sub : SubslotConfig} (h : Splits length offset outs front rest)
    (heq : outs = front' ++ sub :: back) (hfits : offset + totalSize front' ≤ length)
    (hstops : length < offset + totalSize front' + sub.outputSize.toNat) : front' = front := by
  obtain ⟨hsplit, hfits', hstops'⟩ := h
  rw [hsplit] at heq
  obtain ⟨mid, hfront', hrest⟩ | ⟨mid, hfront, hback⟩ := List.append_eq_append_iff.mp heq
  · cases mid with
    | nil => rw [hfront', List.append_nil]
    | cons next mid =>
      have hnext := hstops' next (by rw [hrest]; rfl)
      rw [hfront', totalSize_append, totalSize_cons] at hfits
      omega
  · cases mid with
    | nil => rw [hfront, List.append_nil]
    | cons next mid =>
      obtain ⟨rfl, -⟩ := List.cons.inj hback
      rw [hfront, totalSize_append, totalSize_cons] at hfits'
      omega

/-- Where a subslot of the slot does not fit, the condition is about the offset that it
was to lie at. -/
theorem noLaterFit_of_stops {length : Nat} {done front back : List SubslotConfig}
    {sub : SubslotConfig} {slot : SlotConfig} {slots : List SlotConfig}
    (h : Splits length (totalSize done) (outputsOf slot) front (sub :: back)) :
    NoLaterFit length done (slot :: slots) ↔ ∀ later ∈ slots, ∀ first ∈ (outputsOf later).head?,
      length < totalSize done + totalSize front + first.outputSize.toNat := by
  constructor
  · intro hall later hlater first hfirst
    have hlong := hall [] slot slots front sub back rfl h.eq
    simp only [outputSubslots, List.flatMap_nil, List.append_nil, totalSize_append] at hlong
    exact hlong h.fits (h.stops sub rfl) later hlater first hfirst
  · intro hall before slot' after front' sub' back' hslots houts hfits hstops
    cases before with
    | nil =>
      obtain ⟨rfl, rfl⟩ := List.cons.inj hslots
      simp only [outputSubslots, List.flatMap_nil, List.append_nil, totalSize_append]
        at hfits hstops ⊢
      rw [h.front_eq houts hfits hstops]
      exact hall
    | cons slot'' before =>
      obtain ⟨rfl, rfl⟩ := List.cons.inj hslots
      have hstops' := h.stops sub rfl
      rw [outputSubslots_cons, h.eq] at hfits
      simp only [totalSize_append, totalSize_cons] at hfits
      omega

/-- The loops make the calls that they are to make exactly when no later slot fits behind a
subslot that does not. -/
theorem dispatchSlots_iff {outputData : Bytes} (slots : List SlotConfig)
    {done : List SubslotConfig} (h : totalSize done ≤ outputData.length) (calls : List Call) :
    (∃ offset', dispatchSlots outputData slots ⟨totalSize done, calls⟩ =
      .ok ⟨offset', calls ++ expectedCalls outputData done (outputSubslots slots)⟩) ↔
      NoLaterFit outputData.length done slots := by
  induction slots generalizing done calls with
  | nil =>
    apply iff_of_true
    · exact ⟨totalSize done, by simp [dispatchSlots, outputSubslots, expectedCalls]⟩
    · intro before slot after front sub back hslots
      simp at hslots
  | cons slot slots ih =>
    obtain ⟨front, rest, hsplits⟩ := exists_splits (outputsOf slot) h
    rw [dispatchSlots_cons hsplits, outputSubslots_cons, hsplits.eq, List.append_assoc,
      expectedCalls_append hsplits.fits, ← List.append_assoc]
    cases rest with
    | nil =>
      have hfits := hsplits.fits
      have houts : outputsOf slot = front := hsplits.eq.trans (List.append_nil front)
      rw [← totalSize_append] at hfits ⊢
      rw [List.nil_append, ih hfits, noLaterFit_of_fits (houts ▸ hfits), houts]
    | cons sub back =>
      rw [noLaterFit_of_stops hsplits, List.cons_append, expectedCalls_stopped, List.append_nil,
        dispatchSlots_silent_iff slots hsplits.fits]
      rw [totalSize_append]
      exact hsplits.stops sub rfl

/-! ## A frame -/

theorem length_overlay (outputData data : Bytes) :
    (overlay outputData data).length = outputData.length := by
  rw [overlay, List.length_append, List.length_take, List.length_drop]
  omega

/-- A frame is laid over the last one before it is handed on. -/
theorem processOutputData_eq (h : OutputHandler) (data : Bytes) :
    processOutputData h data = (do
      let s ← dispatchSlots (overlay h.outputData data) h.slots {}
      return ({ h with outputData := overlay h.outputData data }, s.calls)) := by
  have hcopied : ∀ n, n = min data.length h.outputData.length →
      (data.take n).take h.outputData.length ++ h.outputData.drop (data.take n).length =
        overlay h.outputData data := by
    rintro n rfl
    rw [overlay, List.take_take, List.length_take]
    by_cases hlength : data.length ≤ h.outputData.length
    · rw [Nat.min_eq_left hlength, Nat.min_eq_right hlength, Nat.min_self,
        List.take_of_length_le (Nat.le_refl _), List.take_of_length_le hlength]
    · have hle : h.outputData.length ≤ data.length := by omega
      rw [Nat.min_eq_right hle, Nat.min_self, Nat.min_eq_left hle,
        List.drop_of_length_le (Nat.le_refl _), List.drop_of_length_le hle]
  rw [processOutputData, slice_ok (Nat.zero_le _) (by split_ifs <;> omega), ok_bind, copyFrom,
    if_pos (Nat.zero_le _), ok_bind, List.take_zero, List.nil_append, List.drop_zero,
    Nat.sub_zero, Nat.zero_add, hcopied _ (by split_ifs <;> omega)]

/-- What the handler does with a frame that is for its relationship. -/
theorem handleOutputFrame_taken {h : OutputHandler} {iocr : IOCRInfo}
    (hiocr : h.ar.outputIOCR = some iocr) {payload : Bytes} (hlength : 2 ≤ payload.length)
    (hid : frameIDOf payload = iocr.frameID) :
    handleOutputFrame h payload = (do
      let s ← dispatchSlots (overlay h.outputData (payload.drop 2)) h.slots {}
      return ({ h with outputData := overlay h.outputData (payload.drop 2) }, s.calls)) := by
  rw [handleOutputFrame, if_neg (by omega), hiocr]
  dsimp only
  rw [if_neg (not_not.mpr hid), sliceFrom, if_pos (by omega), ok_bind, processOutputData_eq]
  rfl

/-- What a frame leaves of the handler, whatever calls it makes. -/
theorem handleOutputFrame_ok (h : OutputHandler) (payload : Bytes) :
    ∃ h' calls, handleOutputFrame h payload = .ok (h', calls) ∧ h'.ar = h.ar ∧
      h'.slots = h.slots ∧ h'.outputData.length = h.outputData.length := by
  by_cases htaken : 2 ≤ payload.length ∧
      ∃ iocr, h.ar.outputIOCR = some iocr ∧ frameIDOf payload = iocr.frameID
  · obtain ⟨hlength, iocr, hiocr, hid⟩ := htaken
    obtain ⟨offset, more, hmore⟩ := dispatchSlots_ok h.slots
      (Nat.zero_le (overlay h.outputData (payload.drop 2)).length) []
    refine ⟨{ h with outputData := overlay h.outputData (payload.drop 2) }, more, ?_, rfl, rfl,
      length_overlay h.outputData (payload.drop 2)⟩
    rw [handleOutputFrame_taken hiocr hlength hid, hmore]
    rfl
  · refine ⟨h, [], ?_, rfl, rfl, rfl⟩
    rw [handleOutputFrame]
    split
    next => rfl
    next hlength =>
      cases hiocr : h.ar.outputIOCR with
      | none => rfl
      | some iocr =>
        dsimp only
        rw [if_pos]
        exact fun hid => htaken ⟨by omega, iocr, hiocr, hid⟩

/-- No frame changes the relationship, the slots or the length. -/
theorem receiveFrames_ok (h : OutputHandler) (frames : List Bytes) :
    ∃ h', receiveFrames h frames = .ok h' ∧ h'.ar = h.ar ∧ h'.slots = h.slots ∧
      h'.outputData.length = h.outputData.length := by
  induction frames generalizing h with
  | nil => exact ⟨h, rfl, rfl, rfl, rfl⟩
  | cons payload frames ih =>
    obtain ⟨h₁, calls, hframe, har, hslots, hlength⟩ := handleOutputFrame_ok h payload
    obtain ⟨h', hrest, har', hslots', hlength'⟩ := ih h₁
    refine ⟨h', ?_, har'.trans har, hslots'.trans hslots, hlength'.trans hlength⟩
    rw [receiveFrames, List.foldlM_cons, hframe]
    exact hrest

section

variable {ar : AR} {iocr : IOCRInfo} (hiocr : ar.outputIOCR = some iocr) (slots : List SlotConfig)
  (frames : List Bytes) {payload : Bytes} (hlength : 2 ≤ payload.length)
  (hid : frameIDOf payload = iocr.frameID)
include hiocr hlength hid

/-- Each output subslot that fits gets the bytes at the sum of the sizes before it, and no
other one gets any, exactly when behind the first that does not fit no later slot begins
with one that fits in its place. -/
theorem dispatchesExactly_iff :
    DispatchesExactly ar slots frames payload ↔ NoLaterFit iocr.dataLength.toNat [] slots := by
  obtain ⟨h, hreceived, har, hslots, hdata⟩ := receiveFrames_ok (newOutputHandler ar slots) frames
  have hdata : h.outputData.length = iocr.dataLength.toNat := by
    rw [hdata, newOutputHandler, hiocr]
    exact List.length_replicate
  have hframe := handleOutputFrame_taken (har ▸ hiocr : h.ar.outputIOCR = some iocr) hlength hid
  have hzero : totalSize [] ≤ (overlay h.outputData (payload.drop 2)).length := Nat.zero_le _
  have hloops := dispatchSlots_iff slots hzero []
  rw [length_overlay, hdata, List.nil_append, totalSize_nil] at hloops
  rw [hslots] at hframe
  rw [← hloops]
  constructor
  · rintro ⟨h₁, h', calls, hreceived', hframe', rfl⟩
    cases hreceived.symm.trans hreceived'
    obtain ⟨offset, more, hmore⟩ := dispatchSlots_ok slots
      (Nat.zero_le (overlay h.outputData (payload.drop 2)).length) []
    rw [hframe] at hframe'
    change (dispatchSlots _ slots { } >>= _) = _ at hframe'
    rw [hmore] at hframe'
    cases hframe'
    exact ⟨offset, hmore⟩
  · rintro ⟨offset, hcalls⟩
    refine ⟨h, { h with slots := slots, outputData := overlay h.outputData (payload.drop 2) },
      expectedCalls (overlay h.outputData (payload.drop 2)) [] (outputSubslots slots),
      hreceived, ?_, rfl⟩
    rw [hframe]
    change (dispatchSlots _ slots { } >>= _) = _
    rw [hcalls]
    rfl

end

/-! ## Slots that fit, and slots that do not -/

/-- Slots that fit as a whole meet the condition. -/
theorem noLaterFit_of_le {length : Nat} {slots : List SlotConfig}
    (h : totalSize (outputSubslots slots) ≤ length) : NoLaterFit length [] slots := by
  rintro before slot after front sub back rfl houts hfits hstops
  rw [outputSubslots, List.flatMap_append, List.flatMap_cons, houts] at h
  simp only [List.nil_append, outputSubslots, totalSize_append, totalSize_cons] at h hstops
  omega

def outputSlot (number outputSize : UInt16) : SlotConfig where
  slotNumber := number
  moduleIdentNo := 1
  subslots := [{
    subslotNumber := 1
    submoduleIdentNo := 1
    direction := .output
    inputSize := 0
    outputSize := outputSize
    tags := [] }]

/-- Four bytes of output data. -/
def fourBytes : IOCRInfo where
  iocrType := 2
  iocrReference := 2
  frameID := 0x8001
  dataLength := 4
  sendClockFactor := 32
  reductionRatio := 1
  watchdogFactor := 10
  dataHoldFactor := 3
  apis := []

def fourByteAR : AR where
  arUUID := .copy 16 []
  arType := 1
  sessionKey := 1
  initiatorMAC := .copy 6 []
  initiatorAddr := ⟨[192, 168, 0, 1], 34964⟩
  activityUUID := .copy 16 []
  state := .data
  outputIOCR := some fourBytes

def outputFrame : Bytes := [0x80, 0x01, 1, 2, 3, 4]

theorem dispatchesExactly_iff_twoSlots :
    DispatchesExactly fourByteAR [outputSlot 1 2, outputSlot 2 2] [] outputFrame :=
  (dispatchesExactly_iff rfl _ _ (by decide) (by decide)).mpr (noLaterFit_of_le (by decide))

/-- The first slot is longer than the output data, and the second gets its bytes. -/
theorem outputFrame_misplaced :
    (∃ h, handleOutputFrame (newOutputHandler fourByteAR [outputSlot 1 10, outputSlot 2 4])
      outputFrame = .ok (h, (outputSlot 2 4).subslots.map fun sub => (sub, [1, 2, 3, 4]))) ∧
      ¬DispatchesExactly fourByteAR [outputSlot 1 10, outputSlot 2 4] [] outputFrame := by
  refine ⟨⟨_, rfl⟩, ?_⟩
  rintro ⟨h, h', calls, hreceived, hframe, hcalls⟩
  cases hreceived
  cases hframe
  exact absurd (congrArg List.length hcalls) (by decide)

end ProfinetOutputFrames
