import Tentacle.ProfinetBlocks

/-!
# Expected submodules

The controller lists the slots and subslots that it wants in one block of the Connect
request. A submodule without I/O takes eight bytes there, and the device reads a
submodule only where twelve bytes are left. So the two sides agree on a list of slots
unless the very last submodule has no I/O, or a count does not fit into 16 bits.
-/

namespace ProfinetExpected

open GoValues GoSlices BigEndian Outcome ProfinetBlocks

structure ControllerTag where
  tagID : String
  byteOffset : UInt16
  bitOffset : UInt8
  datatype : String
  direction : String
  deriving DecidableEq, Repr

structure SubslotSubscription where
  subslotNumber : UInt16
  submoduleIdentNo : UInt32
  inputSize : UInt16
  outputSize : UInt16
  tags : List ControllerTag := []
  deriving DecidableEq, Repr

structure SlotSubscription where
  slotNumber : UInt16
  moduleIdentNo : UInt32
  subslots : List SubslotSubscription
  deriving DecidableEq, Repr

/-! ## The builder -/

/-- The submodule type, and the number of data descriptions that follow. -/
def submoduleType (sub : SubslotSubscription) : UInt16 × Nat :=
  if 0 < sub.inputSize ∧ 0 < sub.outputSize then (3, 2)
  else if 0 < sub.inputSize then (1, 1)
  else if 0 < sub.outputSize then (2, 1)
  else (0, 0)

def buildDesc (sub : SubslotSubscription) (d : Nat) : SubmoduleDataDesc :=
  if d = 0 ∧ 0 < sub.inputSize then ⟨0x0001, sub.inputSize, 1, 1⟩
  else ⟨0x0002, sub.outputSize, 1, 1⟩

def marshalDesc (desc : SubmoduleDataDesc) : Bytes :=
  putUint 2 desc.dataDirection.toNat ++ putUint 2 desc.dataLength.toNat ++
    [desc.lengthIOPS] ++ [desc.lengthIOCS] ++ [0, 0]

def buildSubmodule (sub : SubslotSubscription) : Bytes :=
  putUint 2 sub.subslotNumber.toNat ++ putUint 4 sub.submoduleIdentNo.toNat ++
    putUint 2 (submoduleType sub).1.toNat ++
    (List.range (submoduleType sub).2).flatMap fun d => marshalDesc (buildDesc sub d)

def buildModule (slot : SlotSubscription) : Bytes :=
  putUint 2 slot.slotNumber.toNat ++ putUint 4 slot.moduleIdentNo.toNat ++
    putUint 2 (0 : UInt16).toNat ++ putUint 2 (UInt16.ofNat slot.subslots.length).toNat ++
    slot.subslots.flatMap buildSubmodule

def buildExpectedSubmoduleData (slots : List SlotSubscription) : Bytes :=
  if slots = [] then putUint 2 (0 : UInt16).toNat
  else
    putUint 2 (1 : UInt16).toNat ++ putUint 4 (0 : UInt32).toNat ++
      putUint 2 (UInt16.ofNat slots.length).toNat ++ slots.flatMap buildModule

/-! ## What the two sides agree on -/

/-- A submodule as either side sees it: its numbers, and its data with direction and
length. -/
structure SubmoduleView where
  subslotNumber : UInt16
  identNumber : UInt32
  data : List (UInt16 × UInt16)
  deriving DecidableEq, Repr

structure ModuleView where
  slotNumber : UInt16
  identNumber : UInt32
  submodules : List SubmoduleView
  deriving DecidableEq, Repr

def SubslotSubscription.view (sub : SubslotSubscription) : SubmoduleView where
  subslotNumber := sub.subslotNumber
  identNumber := sub.submoduleIdentNo
  data :=
    (if 0 < sub.inputSize then [(0x0001, sub.inputSize)] else []) ++
      if 0 < sub.outputSize then [(0x0002, sub.outputSize)] else []

def SlotSubscription.view (slot : SlotSubscription) : ModuleView where
  slotNumber := slot.slotNumber
  identNumber := slot.moduleIdentNo
  submodules := slot.subslots.map SubslotSubscription.view

def submoduleView (sub : ExpectedSubmodule) : SubmoduleView where
  subslotNumber := sub.subslotNumber
  identNumber := sub.submoduleIdentNumber
  data := sub.dataDescription.map fun desc => (desc.dataDirection, desc.dataLength)

def moduleView (mod : ExpectedModule) : ModuleView where
  slotNumber := mod.slotNumber
  identNumber := mod.moduleIdentNumber
  submodules := mod.submodules.map submoduleView

/-- The device reads the controller's slots from the controller's block. -/
def Agrees (slots : List SlotSubscription) : Prop :=
  ∃ req, parseExpectedSubmoduleReq (buildExpectedSubmoduleData slots) = .ok req ∧
    (req.apis.flatMap ExpectedAPI.modules).map moduleView = slots.map SlotSubscription.view

def HasData (sub : SubslotSubscription) : Prop := 0 < sub.inputSize ∨ 0 < sub.outputSize

/-! ## Reading the block back -/

/-- What the device makes of a submodule that it reads completely. -/
def expectedOf (sub : SubslotSubscription) : ExpectedSubmodule where
  subslotNumber := sub.subslotNumber
  submoduleIdentNumber := sub.submoduleIdentNo
  submoduleProperties := (submoduleType sub).1
  dataDescription := (List.range (submoduleType sub).2).map (buildDesc sub)

def moduleOf (slot : SlotSubscription) : ExpectedModule where
  slotNumber := slot.slotNumber
  moduleIdentNumber := slot.moduleIdentNo
  moduleProperties := 0
  submodules := slot.subslots.map expectedOf

variable {data rest : Bytes} {offset : Nat}

theorem length_marshalDesc (desc : SubmoduleDataDesc) : (marshalDesc desc).length = 8 := by
  simp [marshalDesc]

theorem length_flatMap_marshalDesc (descs : List SubmoduleDataDesc) :
    (descs.flatMap marshalDesc).length = 8 * descs.length := by
  induction descs with
  | nil => rfl
  | cons desc descs ih =>
    rw [List.flatMap_cons, List.length_append, length_marshalDesc, ih, List.length_cons]
    omega

/-- The descriptions of the data are read back. -/
theorem dataDescs_marshal (descs : List SubmoduleDataDesc)
    (h : At data offset (descs.flatMap marshalDesc ++ rest)) :
    dataDescs data descs.length offset = .ok (descs, offset + 8 * descs.length) := by
  induction descs generalizing offset with
  | nil => rfl
  | cons desc descs ih =>
    rw [List.flatMap_cons, List.append_assoc] at h
    have hlength := h.length
    rw [List.length_append, length_marshalDesc] at hlength
    have hnext := ih (h.next (length_marshalDesc desc))
    rw [marshalDesc] at h
    simp only [List.append_assoc] at h
    have h2 := h.next (length_putUint 2 _)
    have h4 := h2.next (length_putUint 2 _)
    have h5 := h4.next (n := 1) rfl
    have hoffset : offset + 8 + 8 * descs.length = offset + 8 * (descs.length + 1) := by omega
    rw [List.length_cons, dataDescs, if_neg (by omega), h.uint16 rfl, ok_bind, h2.uint16 rfl,
      ok_bind, h4.index, ok_bind, h5.index, ok_bind, hnext, ok_bind, hoffset]
    rfl

/-- There are as many as the type of the submodule says. -/
theorem numDescs_submoduleType (sub : SubslotSubscription) :
    numDescs (submoduleType sub).1 = (submoduleType sub).2 := by
  rw [submoduleType]
  split
  · decide
  split
  · decide
  split
  · decide
  · decide

/-- A submodule has a description exactly if it has data. -/
theorem submoduleType_pos (sub : SubslotSubscription) :
    0 < (submoduleType sub).2 ↔ HasData sub := by
  rw [submoduleType, HasData]
  split
  next h => exact iff_of_true (by decide) (.inl h.1)
  split
  next h => exact iff_of_true (by decide) (.inl h)
  split
  next h => exact iff_of_true (by decide) (.inr h)
  next hin hout => exact iff_of_false (by decide) (not_or.mpr ⟨hin, hout⟩)

theorem length_buildSubmodule (sub : SubslotSubscription) :
    (buildSubmodule sub).length = 8 + 8 * (submoduleType sub).2 := by
  rw [buildSubmodule, ← List.flatMap_map, List.length_append, length_flatMap_marshalDesc]
  simp

/-- Behind the submodules there is more of the block, or the last of them has I/O. -/
def Room (rest : Bytes) (subs : List SubslotSubscription) : Prop :=
  4 ≤ rest.length ∨ ∀ sub ∈ subs.getLast?, HasData sub

theorem Room.tail {sub : SubslotSubscription} {subs : List SubslotSubscription}
    (h : Room rest (sub :: subs)) : Room rest subs := by
  obtain hrest | hlast := h
  · exact .inl hrest
  · cases subs with
    | nil => exact .inr (by simp)
    | cons sub' subs => exact .inr (by simpa using hlast)

/-- So twelve bytes are left at each of them. -/
theorem Room.le {sub : SubslotSubscription} {subs : List SubslotSubscription}
    (h : Room rest (sub :: subs)) :
    4 ≤ 8 * (submoduleType sub).2 + (subs.flatMap buildSubmodule ++ rest).length := by
  rw [List.length_append]
  obtain hrest | hlast := h
  · omega
  · cases subs with
    | nil =>
      have hio : 0 < (submoduleType sub).2 :=
        (submoduleType_pos sub).mpr (hlast sub (by simp))
      omega
    | cons sub' subs =>
      rw [List.flatMap_cons, List.length_append, length_buildSubmodule]
      omega

/-- The submodules are read back, where the last one has room behind it. -/
theorem expectedSubmodules_build (subs : List SubslotSubscription) (hroom : Room rest subs)
    (h : At data offset (subs.flatMap buildSubmodule ++ rest)) :
    expectedSubmodules data subs.length offset =
      .ok (subs.map expectedOf, offset + (subs.flatMap buildSubmodule).length) := by
  induction subs generalizing offset with
  | nil => rfl
  | cons sub subs ih =>
    have hlong := hroom.le
    rw [List.flatMap_cons, List.append_assoc] at h
    have hlength := h.length
    rw [List.length_append, length_buildSubmodule] at hlength
    have hnext := ih hroom.tail (h.next (length_buildSubmodule sub))
    have hoffset : offset + (8 + 8 * (submoduleType sub).2) + (subs.flatMap buildSubmodule).length =
        offset + ((sub :: subs).flatMap buildSubmodule).length := by
      rw [List.flatMap_cons, List.length_append, length_buildSubmodule, Nat.add_assoc]
    rw [hoffset, ← Nat.add_assoc] at hnext
    rw [buildSubmodule, ← List.flatMap_map] at h
    simp only [List.append_assoc] at h
    have h2 := h.next (length_putUint 2 _)
    have h6 := h2.next (length_putUint 4 _)
    have h8 := h6.next (length_putUint 2 _)
    have hdescs := dataDescs_marshal _ h8
    rw [List.length_map, List.length_range] at hdescs
    rw [List.length_cons, expectedSubmodules, if_neg (by omega), h.uint16 rfl, ok_bind,
      h2.uint32 rfl, ok_bind, h6.uint16 rfl, ok_bind, numDescs_submoduleType, hdescs, ok_bind]
    dsimp only
    rw [hnext]
    rfl

/-- The last submodule of the last slot has I/O, if there is one. -/
def LastHasData (slots : List SlotSubscription) : Prop :=
  ∀ slot ∈ slots.getLast?, ∀ sub ∈ slot.subslots.getLast?, HasData sub

theorem length_buildModule (slot : SlotSubscription) :
    (buildModule slot).length = 10 + (slot.subslots.flatMap buildSubmodule).length := by
  simp [buildModule]
  omega

theorem LastHasData.tail {slot : SlotSubscription} {slots : List SlotSubscription}
    (h : LastHasData (slot :: slots)) : LastHasData slots := by
  cases slots with
  | nil => simp [LastHasData]
  | cons slot' slots => simpa [LastHasData] using h

/-- Where the last submodule has data every other one has room behind it. -/
theorem LastHasData.room {slot : SlotSubscription} {slots : List SlotSubscription}
    (h : LastHasData (slot :: slots)) : Room (slots.flatMap buildModule) slot.subslots := by
  cases slots with
  | nil => exact .inr (h slot (by simp))
  | cons slot' slots =>
    left
    rw [List.flatMap_cons, List.length_append, length_buildModule]
    omega

theorem expectedModules_build (slots : List SlotSubscription) (hlast : LastHasData slots)
    (hcounts : ∀ slot ∈ slots, slot.subslots.length < 65536)
    (h : At data offset (slots.flatMap buildModule)) :
    expectedModules data slots.length offset =
      .ok (slots.map moduleOf, offset + (slots.flatMap buildModule).length) := by
  induction slots generalizing offset with
  | nil => rfl
  | cons slot slots ih =>
    have hcount : (UInt16.ofNat slot.subslots.length).toNat = slot.subslots.length :=
      UInt16.toNat_ofNat_of_lt' (hcounts slot (by simp))
    rw [List.flatMap_cons] at h
    have hlength := h.length
    rw [List.length_append, length_buildModule] at hlength
    have hnext := ih hlast.tail (fun slot' hslot' => hcounts slot' (by simp [hslot']))
      (h.next (length_buildModule slot))
    have hoffset : offset + (10 + (slot.subslots.flatMap buildSubmodule).length) +
        (slots.flatMap buildModule).length =
          offset + ((slot :: slots).flatMap buildModule).length := by
      rw [List.flatMap_cons, List.length_append, length_buildModule, Nat.add_assoc]
    rw [hoffset, ← Nat.add_assoc] at hnext
    rw [buildModule] at h
    simp only [List.append_assoc] at h
    have h2 := h.next (length_putUint 2 _)
    have h6 := h2.next (length_putUint 4 _)
    have h8 := h6.next (length_putUint 2 _)
    have h10 := h8.next (length_putUint 2 _)
    have hsubs := expectedSubmodules_build _ hlast.room h10
    rw [List.length_cons, expectedModules, if_neg (by omega), h.uint16 rfl, ok_bind,
      h2.uint32 rfl, ok_bind, h6.uint16 rfl, ok_bind, h8.uint16 rfl, ok_bind, hcount, hsubs,
      ok_bind]
    dsimp only
    rw [hnext]
    rfl

theorem buildExpectedSubmoduleData_eq {slots : List SlotSubscription} (h : slots ≠ []) :
    buildExpectedSubmoduleData slots = putUint 2 (1 : UInt16).toNat ++
      (putUint 4 (0 : UInt32).toNat ++ (putUint 2 (UInt16.ofNat slots.length).toNat ++
        slots.flatMap buildModule)) := by
  rw [buildExpectedSubmoduleData, if_neg h, List.append_assoc, List.append_assoc]

/-- What the controller builds the device reads, if the last submodule has data. -/
theorem parse_build {slots : List SlotSubscription} (hne : slots ≠ []) (hlast : LastHasData slots)
    (hslots : slots.length < 65536) (hcounts : ∀ slot ∈ slots, slot.subslots.length < 65536) :
    parseExpectedSubmoduleReq (buildExpectedSubmoduleData slots) =
      .ok ⟨[⟨0, slots.map moduleOf⟩]⟩ := by
  have hcount : (UInt16.ofNat slots.length).toNat = slots.length :=
    UInt16.toNat_ofNat_of_lt' hslots
  have h := At.start (buildExpectedSubmoduleData_eq hne)
  generalize buildExpectedSubmoduleData slots = data at h
  have hlength := h.length
  simp only [List.length_append, length_putUint] at hlength
  have h2 := h.next (length_putUint 2 _)
  have h6 := h2.next (length_putUint 4 _)
  have h8 := h6.next (length_putUint 2 _)
  have hmodules := expectedModules_build slots hlast hcounts h8
  have hapis : expectedAPIs data (1 : UInt16).toNat 2 = .ok [⟨0, slots.map moduleOf⟩] := by
    change expectedAPIs data 1 2 = _
    rw [expectedAPIs, if_neg (by omega), h2.uint32 rfl, ok_bind, h6.uint16 rfl, ok_bind, hcount,
      hmodules]
    rfl
  rw [parseExpectedSubmoduleReq, if_neg (by omega), h.uint16 rfl, ok_bind, hapis]
  rfl

/-! ## What the parser reads of any block -/

def SubmoduleView.size (v : SubmoduleView) : Nat := 8 + 8 * v.data.length

def ModuleView.size (v : ModuleView) : Nat := 10 + (v.submodules.map SubmoduleView.size).sum

theorem dataDescs_ensures (data : Bytes) (n offset : Nat) :
    (dataDescs data n offset).Ensures fun r => r.2 = offset + 8 * r.1.length := by
  induction n generalizing offset with
  | zero => exact rfl
  | succ n ih =>
    rw [dataDescs]
    split
    · exact rfl
    next hroom =>
      refine (ensures_uint16 rfl (by omega)).bind fun dataDirection _ => ?_
      refine (ensures_uint16 rfl (by omega)).bind fun dataLength _ => ?_
      refine (ensures_index (by omega)).bind fun lengthIOPS _ => ?_
      refine (ensures_index (by omega)).bind fun lengthIOCS _ => ?_
      apply (ih (offset + 8)).bind
      rintro ⟨descs, offset'⟩ hdescs
      dsimp only at hdescs ⊢
      rw [pure_eq, ensures_ok, List.length_cons]
      omega

/-- The bytes that the submodules took, and the four bytes that follow when the last of
them has no data: twelve were there when it was read. -/
theorem expectedSubmodules_ensures (data : Bytes) (n offset : Nat) :
    (expectedSubmodules data n offset).Ensures fun r => r.1.length ≤ n ∧
      r.2 = offset + ((r.1.map submoduleView).map SubmoduleView.size).sum ∧
      ∀ v ∈ (r.1.map submoduleView).getLast?, v.data = [] → r.2 + 4 ≤ data.length := by
  induction n generalizing offset with
  | zero => exact ⟨le_rfl, rfl, by simp⟩
  | succ n ih =>
    rw [expectedSubmodules]
    split
    · exact ⟨Nat.zero_le _, rfl, by simp⟩
    next hroom =>
      refine (ensures_uint16 rfl (by omega)).bind fun subslotNumber _ => ?_
      refine (ensures_uint32 rfl (by omega)).bind fun identNumber _ => ?_
      refine (ensures_uint16 rfl (by omega)).bind fun properties _ => ?_
      apply (dataDescs_ensures data _ _).bind
      rintro ⟨descs, offset'⟩ hdescs
      apply (ih offset').bind
      rintro ⟨subs, offset''⟩ ⟨hlength, hsize, hlast⟩
      dsimp only at hdescs hlength hsize hlast
      refine ⟨Nat.succ_le_succ hlength, ?_, ?_⟩
      · simp [submoduleView, SubmoduleView.size] at hsize ⊢
        omega
      · cases subs with
        | nil =>
          simp [submoduleView] at hsize ⊢
          rintro rfl
          rw [List.length_nil] at hdescs
          omega
        | cons sub subs => simpa using hlast

/-- What is read is in the bytes, with four more behind a last submodule without data. -/
theorem expectedModules_ensures (data : Bytes) (n offset : Nat) :
    (expectedModules data n offset).Ensures fun r => r.1.length ≤ n ∧
      (∀ mod ∈ r.1, mod.submodules.length < 65536) ∧
      r.2 = offset + ((r.1.map moduleView).map ModuleView.size).sum ∧
      ∀ m ∈ (r.1.map moduleView).getLast?, ∀ v ∈ m.submodules.getLast?, v.data = [] →
        r.2 + 4 ≤ data.length := by
  induction n generalizing offset with
  | zero => exact ⟨le_rfl, by simp, rfl, by simp⟩
  | succ n ih =>
    rw [expectedModules]
    split
    · exact ⟨Nat.zero_le _, by simp, rfl, by simp⟩
    next hroom =>
      refine (ensures_uint16 rfl (by omega)).bind fun slotNumber _ => ?_
      refine (ensures_uint32 rfl (by omega)).bind fun identNumber _ => ?_
      refine (ensures_uint16 rfl (by omega)).bind fun properties _ => ?_
      refine (ensures_uint16 rfl (by omega)).bind fun numSubmodules hcount => ?_
      apply (expectedSubmodules_ensures data _ _).bind
      rintro ⟨subs, offset'⟩ ⟨hsubs, hsubsSize, hsubsLast⟩
      apply (ih offset').bind
      rintro ⟨modules, offset''⟩ ⟨hlength, hcounts, hsize, hlast⟩
      dsimp only at hsubs hsubsSize hsubsLast hlength hcounts hsize hlast
      refine ⟨Nat.succ_le_succ hlength, ?_, ?_, ?_⟩
      · exact List.forall_mem_cons.mpr ⟨hsubs.trans_lt hcount, hcounts⟩
      · simp [moduleView, ModuleView.size] at hsize hsubsSize ⊢
        omega
      · cases modules with
        | nil =>
          obtain rfl : offset'' = offset' := by simpa using hsize
          simpa [moduleView] using hsubsLast
        | cons mod modules => simpa using hlast

/-- What holds of the modules of a block with one API, whatever its bytes are. -/
structure ReadFrom (data : Bytes) (modules : List ExpectedModule) : Prop where
  count : modules.length < 65536
  counts : ∀ mod ∈ modules, mod.submodules.length < 65536
  last : ∀ m ∈ (modules.map moduleView).getLast?, ∀ v ∈ m.submodules.getLast?, v.data = [] →
    8 + ((modules.map moduleView).map ModuleView.size).sum + 4 ≤ data.length

theorem expectedAPIs_ensures (data : Bytes) : (expectedAPIs data 1 2).Ensures fun apis =>
    ReadFrom data (apis.flatMap ExpectedAPI.modules) := by
  rw [expectedAPIs]
  split
  · exact ⟨by decide, by simp, by simp⟩
  next hroom =>
    refine (ensures_uint32 rfl (by omega)).bind fun api _ => ?_
    refine (ensures_uint16 rfl (by omega)).bind fun numModules hcount => ?_
    apply (expectedModules_ensures data _ _).bind
    rintro ⟨modules, offset'⟩ ⟨hlength, hcounts, hsize, hlast⟩
    dsimp only at hlength hcounts hsize hlast
    subst hsize
    refine ⟨?_, ?_, ?_⟩
    · simpa using hlength.trans_lt hcount
    · simpa using hcounts
    · simpa using hlast

theorem parse_ensures (h : At data 0 (putUint 2 (1 : UInt16).toNat ++ rest)) :
    (parseExpectedSubmoduleReq data).Ensures fun req =>
      ReadFrom data (req.apis.flatMap ExpectedAPI.modules) := by
  have hlength := h.length
  rw [List.length_append, length_putUint] at hlength
  rw [parseExpectedSubmoduleReq, if_neg (by omega), h.uint16 rfl, ok_bind]
  exact (expectedAPIs_ensures data).bind fun apis hapis => hapis

/-! ## The agreement -/

theorem view_expectedOf (sub : SubslotSubscription) :
    submoduleView (expectedOf sub) = sub.view := by
  have hdata : (List.range (submoduleType sub).2).map (fun d =>
      ((buildDesc sub d).dataDirection, (buildDesc sub d).dataLength)) = sub.view.data := by
    by_cases hin : 0 < sub.inputSize <;> by_cases hout : 0 < sub.outputSize <;>
      simp [submoduleType, buildDesc, SubslotSubscription.view, hin, hout, List.range_succ]
  rw [submoduleView, expectedOf, List.map_map]
  exact congrArg (SubmoduleView.mk sub.subslotNumber sub.submoduleIdentNo) hdata

theorem view_moduleOf (slot : SlotSubscription) : moduleView (moduleOf slot) = slot.view := by
  simp [moduleView, moduleOf, SlotSubscription.view, Function.comp_def, view_expectedOf]

theorem length_view_data (sub : SubslotSubscription) :
    sub.view.data.length = (submoduleType sub).2 := by
  rw [← view_expectedOf]
  simp [submoduleView, expectedOf]

theorem size_view (slot : SlotSubscription) : slot.view.size = (buildModule slot).length := by
  rw [length_buildModule, ModuleView.size, SlotSubscription.view, List.length_flatMap,
    List.map_map]
  refine congrArg (10 + ·) (congrArg List.sum (List.map_congr_left ?_))
  intro sub _
  rw [Function.comp_apply, SubmoduleView.size, length_view_data, length_buildSubmodule]

theorem sum_size_view (slots : List SlotSubscription) :
    ((slots.map SlotSubscription.view).map ModuleView.size).sum =
      (slots.flatMap buildModule).length := by
  rw [List.length_flatMap, List.map_map]
  exact congrArg List.sum (List.map_congr_left fun slot _ => size_view slot)

theorem view_data_ne_nil_iff (sub : SubslotSubscription) : sub.view.data ≠ [] ↔ HasData sub := by
  rw [← List.length_pos_iff, length_view_data, submoduleType_pos]

theorem lastHasData_iff (slots : List SlotSubscription) : LastHasData slots ↔
    ∀ m ∈ (slots.map SlotSubscription.view).getLast?, ∀ v ∈ m.submodules.getLast?,
      v.data ≠ [] := by
  simp [LastHasData, SlotSubscription.view, view_data_ne_nil_iff]

theorem agrees_of_fits {slots : List SlotSubscription} (hne : slots ≠ [])
    (hslots : slots.length < 65536) (hcounts : ∀ slot ∈ slots, slot.subslots.length < 65536)
    (hlast : LastHasData slots) : Agrees slots := by
  refine ⟨_, parse_build hne hlast hslots hcounts, ?_⟩
  simp [Function.comp_def, view_moduleOf]

/-- What is read back has fitted its counters. -/
theorem Agrees.fits {slots : List SlotSubscription} (hne : slots ≠ []) (h : Agrees slots) :
    slots.length < 65536 ∧ (∀ slot ∈ slots, slot.subslots.length < 65536) ∧ LastHasData slots := by
  obtain ⟨req, hreq, hviews⟩ := h
  have hstart := At.start (buildExpectedSubmoduleData_eq hne)
  have hread := parse_ensures hstart
  rw [hreq, ensures_ok] at hread
  refine ⟨?_, ?_, ?_⟩
  · have hlength := congrArg List.length hviews
    rw [List.length_map, List.length_map] at hlength
    exact hlength ▸ hread.count
  · intro slot hslot
    have hview : slot.view ∈ (req.apis.flatMap ExpectedAPI.modules).map moduleView := by
      rw [hviews]
      exact List.mem_map_of_mem hslot
    obtain ⟨mod, hmod, heq⟩ := List.mem_map.mp hview
    have hlength := congrArg (fun v => v.submodules.length) heq
    simp only [moduleView, SlotSubscription.view, List.length_map] at hlength
    exact hlength ▸ hread.counts mod hmod
  · rw [lastHasData_iff]
    intro m hm v hv hnil
    have hlong := hread.last m (hviews ▸ hm) v hv hnil
    have hlength := hstart.length
    rw [hviews, sum_size_view] at hlong
    simp only [List.length_append, length_putUint] at hlength
    omega

/-- The device reads the slots of the controller back exactly when the counts fit into 16
bits and the very last submodule has I/O. -/
theorem agrees_iff (slot : SlotSubscription) (slots : List SlotSubscription) :
    Agrees (slot :: slots) ↔ slots.length + 1 < 65536 ∧
      (∀ s ∈ slot :: slots, s.subslots.length < 65536) ∧ LastHasData (slot :: slots) := by
  constructor
  · exact Agrees.fits (List.cons_ne_nil slot slots)
  · rintro ⟨hslots, hcounts, hlast⟩
    exact agrees_of_fits (List.cons_ne_nil slot slots) hslots hcounts hlast

/-- One slot with one submodule that has no I/O: the device reads no submodule. -/
theorem not_agrees_without_io : ¬∀ slots, slots ≠ [] → Agrees slots := by
  intro h
  have hagrees := h [⟨1, 0x10, [⟨1, 0x20, 0, 0, []⟩]⟩] (by simp)
  have hio := (Agrees.fits (by simp) hagrees).2.2 _ rfl _ rfl
  exact absurd hio (by simp [HasData])

end ProfinetExpected
