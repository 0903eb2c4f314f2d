import Tentacle.ProfinetIoData

/-!
# The check of a configuration

A configuration is checked before it is applied: each tag is to lie within the buffer of
its subslot. The end of a tag is computed in the sixteen bits of its offset, so that a tag
close to the end of the address range wraps around to the beginning and passes the check.
The packer computes the same place without a wrap and indexes outside its buffer; the
unpacker tests the end again, in a wider type.
-/

namespace ProfinetValidation

open GoValues GoSlices BigEndian Outcome IeeeFloat ModbusCodec ProfinetIoData

/-- The fields of `ProfinetConfig` that `Validate` reads. -/
structure ProfinetConfig where
  stationName : String
  interfaceName : String
  vendorID : UInt16
  deviceID : UInt16
  cycleTimeUs : UInt32
  slots : List SlotConfig
  deriving DecidableEq

/-- `stationName is required`, `interfaceName is required`, `vendorId must be non-zero`,
`deviceId must be non-zero`, `duplicate slotNumber %d`, `slot %d: duplicate subslotNumber %d`;
then, behind `slot %d subslot %d: `, `input direction requires inputSize > 0`, `output
direction requires outputSize > 0`, `inputOutput direction requires at least one non-zero
size` and `invalid direction %q`; then, behind `slot %d subslot %d tag %q: `, `unknown
datatype %q`, `bitOffset must be 0-7`, `bool at offset %d overflows buffer of %d bytes` and
`%s at offset %d overflows buffer of %d bytes`. -/
inductive ConfigError where
  | stationNameRequired
  | interfaceNameRequired
  | vendorIdZero
  | deviceIdZero
  | duplicateSlot (slotNumber : UInt16)
  | duplicateSubslot (slotNumber subslotNumber : UInt16)
  | inputSizeZero (slotNumber subslotNumber : UInt16)
  | outputSizeZero (slotNumber subslotNumber : UInt16)
  | sizesZero (slotNumber subslotNumber : UInt16)
  | invalidDirection (slotNumber subslotNumber : UInt16) (direction : String)
  | unknownDatatype (slotNumber subslotNumber : UInt16) (tagID datatype : String)
  | bitOffset (slotNumber subslotNumber : UInt16) (tagID : String)
  | boolOverflow (slotNumber subslotNumber : UInt16) (tagID : String) (offset bufSize : UInt16)
  | overflow (slotNumber subslotNumber : UInt16) (tagID datatype : String)
      (offset bufSize : UInt16)
  deriving DecidableEq, Repr

/-! ## Validate -/

def validateDirection (slotNum : UInt16) (sub : SubslotConfig) : Except ConfigError Unit :=
  match sub.direction with
  | .input =>
    if sub.inputSize = 0 then .error (.inputSizeZero slotNum sub.subslotNumber) else .ok ()
  | .output =>
    if sub.outputSize = 0 then .error (.outputSizeZero slotNum sub.subslotNumber) else .ok ()
  | .inputOutput =>
    if sub.inputSize = 0 ∧ sub.outputSize = 0 then .error (.sizesZero slotNum sub.subslotNumber)
    else .ok ()
  | .other name => .error (.invalidDirection slotNum sub.subslotNumber name)

/-- The size of the buffer that a tag maps into: the input buffer if it has a source. -/
def bufSizeOf (sub : SubslotConfig) (tag : TagMapping) : UInt16 :=
  if tag.source ≠ "" then sub.inputSize else sub.outputSize

/-- One round of the loop over the tags. The sums are those of `uint16` and wrap. -/
def validateTag (slotNum : UInt16) (sub : SubslotConfig) (tag : TagMapping) :
    Except ConfigError Unit :=
  let size := typeSize tag.datatype
  let bufSize := bufSizeOf sub tag
  if size = 0 then
    .error (.unknownDatatype slotNum sub.subslotNumber tag.tagID tag.datatype.name)
  else if tag.datatype = .bool then
    if tag.bitOffset > 7 then .error (.bitOffset slotNum sub.subslotNumber tag.tagID)
    else if tag.byteOffset + 1 > bufSize then
      .error (.boolOverflow slotNum sub.subslotNumber tag.tagID tag.byteOffset bufSize)
    else .ok ()
  else if tag.byteOffset + UInt16.ofNat size > bufSize then
    .error (.overflow slotNum sub.subslotNumber tag.tagID tag.datatype.name tag.byteOffset bufSize)
  else .ok ()

def validateSubslot (slotNum : UInt16) (sub : SubslotConfig) : Except ConfigError Unit := do
  validateDirection slotNum sub
  sub.tags.forM (validateTag slotNum sub)

/-- A loop over the slots or over the subslots of one, with the numbers that it has seen. -/
def validateUnique {α : Type} (number : α → UInt16) (duplicate : UInt16 → ConfigError)
    (check : α → Except ConfigError Unit) : List UInt16 → List α → Except ConfigError Unit
  | _, [] => .ok ()
  | seen, a :: as =>
    if number a ∈ seen then .error (duplicate (number a))
    else do
      check a
      validateUnique number duplicate check (number a :: seen) as

def validateSubslots (slot : SlotConfig) : Except ConfigError Unit :=
  validateUnique SubslotConfig.subslotNumber (.duplicateSubslot slot.slotNumber)
    (validateSubslot slot.slotNumber) [] slot.subslots

def validateSlots (slots : List SlotConfig) : Except ConfigError Unit :=
  validateUnique SlotConfig.slotNumber .duplicateSlot validateSubslots [] slots

/-- The configuration with its default, and the verdict. -/
def ProfinetConfig.validate (c : ProfinetConfig) : ProfinetConfig × Except ConfigError Unit :=
  if c.stationName = "" then (c, .error .stationNameRequired)
  else if c.interfaceName = "" then (c, .error .interfaceNameRequired)
  else if c.vendorID = 0 then (c, .error .vendorIdZero)
  else if c.deviceID = 0 then (c, .error .deviceIdZero)
  else
    let c := if c.cycleTimeUs = 0 then { c with cycleTimeUs := 1000 } else c
    (c, validateSlots c.slots)

def ProfinetConfig.Accepted (c : ProfinetConfig) : Prop := c.validate.2 = .ok ()

/-! ## The device unpacks -/

def unpackValue (data : Bytes) (offset : UInt16) (bitOffset : UInt8) (dt : ProfinetType) :
    Outcome Empty (Option Value) :=
  match dt with
  | .bool => do
    let b ← index data offset.toNat
    return some (.bool (b.toNat.testBit bitOffset.toNat))
  | .uint8 => do
    let b ← index data offset.toNat
    return some (.int b.toNat)
  | .int8 => do
    let b ← index data offset.toNat
    return some (.int (toSigned 8 b.toNat))
  | .uint16 => do return some (.int (← uintFrom 2 data offset.toNat))
  | .int16 => do return some (.int (toSigned 16 (← uintFrom 2 data offset.toNat)))
  | .uint32 => do return some (.int (← uintFrom 4 data offset.toNat))
  | .int32 => do return some (.int (toSigned 32 (← uintFrom 4 data offset.toNat)))
  | .float32 => do return some (.float32 (.ofBits (← uintFrom 4 data offset.toNat)))
  | .uint64 => do return some (.int (← uintFrom 8 data offset.toNat))
  | .int64 => do return some (.int (toSigned 64 (← uintFrom 8 data offset.toNat)))
  | .float64 => do return some (.float64 (.ofBits (← uintFrom 8 data offset.toNat)))
  | .other _ => .ok none

/-- One round of the loop of `UnpackOutputBuffer`. -/
def unpackTag (data : Bytes) (result : GoMap String Value) (tag : TagMapping) :
    Outcome Empty (GoMap String Value) :=
  if tag.source ≠ "" then .ok result
  else if tag.byteOffset.toNat + typeSize tag.datatype > data.length then .ok result
  else do
    match ← unpackValue data tag.byteOffset tag.bitOffset tag.datatype with
    | some val => return result.insert tag.tagID val
    | none => return result

def unpackOutputBuffer (sub : SubslotConfig) (data : Bytes) :
    Outcome Empty (GoMap String Value) :=
  sub.tags.foldlM (unpackTag data) ∅

/-! ## What the check ensures -/

/-- The end of the tag, with the wrap, is within its buffer. -/
def WrappedWithin (sub : SubslotConfig) (tag : TagMapping) : Prop :=
  typeSize tag.datatype ≠ 0 ∧
    tag.byteOffset + UInt16.ofNat (typeSize tag.datatype) ≤ bufSizeOf sub tag

/-- A tag that is accepted ends inside its submodule, as far as 16 bits can tell. -/
theorem wrappedWithin_of_validateTag {slotNum : UInt16} {sub : SubslotConfig} {tag : TagMapping}
    (h : validateTag slotNum sub tag = .ok ()) : WrappedWithin sub tag := by
  rw [validateTag] at h
  split_ifs at h with hsize hbool hbit hover hover
  · refine ⟨hsize, ?_⟩
    rw [hbool]
    exact UInt16.not_lt.mp hover
  · exact ⟨hsize, UInt16.not_lt.mp hover⟩

theorem bind_eq_ok {ε : Type} {x y : Except ε Unit} (h : (do x; y) = .ok ()) :
    x = .ok () ∧ y = .ok () := by
  cases x with
  | error e => cases h
  | ok u => exact ⟨rfl, h⟩

/-- A check of a list succeeds on each of its elements. -/
theorem forM_eq_ok {α ε : Type} {f : α → Except ε Unit} {l : List α} (h : l.forM f = .ok ()) :
    ∀ a ∈ l, f a = .ok () := by
  induction l with
  | nil => simp
  | cons a l ih =>
    obtain ⟨hfirst, hrest⟩ := bind_eq_ok h
    rintro b (_ | ⟨_, hb⟩)
    · exact hfirst
    · exact ih hrest b hb

theorem validateUnique_ok {α : Type} {number : α → UInt16} {duplicate : UInt16 → ConfigError}
    {check : α → Except ConfigError Unit} {seen : List UInt16} {as : List α}
    (h : validateUnique number duplicate check seen as = .ok ()) :
    ∀ a ∈ as, check a = .ok () := by
  induction as generalizing seen with
  | nil => simp
  | cons a as ih =>
    rw [validateUnique] at h
    split at h
    next => cases h
    next =>
      obtain ⟨hfirst, hrest⟩ := bind_eq_ok h
      rintro b (_ | ⟨_, hb⟩)
      · exact hfirst
      · exact ih hrest b hb

theorem ProfinetConfig.Accepted.slots {c : ProfinetConfig} (h : c.Accepted) :
    validateSlots c.slots = .ok () := by
  rw [Accepted, validate] at h
  split_ifs at h <;> exact h

/-- What the check says about each tag of an accepted configuration. -/
theorem ProfinetConfig.Accepted.wrappedWithin {c : ProfinetConfig} (h : c.Accepted) :
    ∀ slot ∈ c.slots, ∀ sub ∈ slot.subslots, ∀ tag ∈ sub.tags, WrappedWithin sub tag := by
  intro slot hslot sub hsub tag htag
  have hsubslot := validateUnique_ok (validateUnique_ok h.slots slot hslot) sub hsub
  exact wrappedWithin_of_validateTag (forM_eq_ok (bind_eq_ok hsubslot).2 tag htag)

/-! ## What the packers need -/

theorem length_packValue {buf buf' : Bytes} {offset : UInt16} {bitOffset : UInt8}
    {dt : ProfinetType} {val : Value} (h : packValue buf offset bitOffset dt val = .ok buf') :
    buf'.length = buf.length := by
  cases dt with
  | bool =>
    rw [packValue] at h
    cases hindex : (index buf offset.toNat : Outcome Empty UInt8) with
    | ok b =>
      rw [hindex] at h
      exact length_assign h
    | err e => exact e.elim
    | panic p =>
      rw [hindex] at h
      cases h
  | uint8 | int8 => exact length_assign h
  | other name =>
    cases h
    rfl
  | _ => exact length_putUintFrom h

/-- A value that ends outside the buffer is not written. -/
theorem not_safe_packValue {buf : Bytes} {offset : UInt16} (bitOffset : UInt8) {dt : ProfinetType}
    (val : Value) (hsize : typeSize dt ≠ 0) (h : buf.length < offset.toNat + typeSize dt) :
    ¬(packValue buf offset bitOffset dt val).Safe := by
  cases dt with
  | bool => exact not_safe_bind (not_safe_index (Nat.le_of_lt_succ h))
  | uint8 | int8 => exact not_safe_assign (Nat.le_of_lt_succ h)
  | other name => exact absurd rfl hsize
  | _ => exact not_safe_putUintFrom h

theorem length_packTag {tagValues : GoMap String Value} {buf buf' : Bytes} {tag : TagMapping}
    (h : packTag tagValues buf tag = .ok buf') : buf'.length = buf.length := by
  rw [packTag] at h
  split at h
  next =>
    cases h
    rfl
  next =>
    split at h
    next =>
      cases h
      rfl
    next => exact length_packValue h

/-- A tag that fits into the buffer is packed. -/
theorem ensures_packTag_of_within {tagValues : GoMap String Value} {buf : Bytes} {tag : TagMapping}
    (h : tag.source ≠ "" → tag.byteOffset.toNat + typeSize tag.datatype ≤ buf.length) :
    (packTag tagValues buf tag).Ensures fun buf' => buf'.length = buf.length := by
  cases hpack : packTag tagValues buf tag with
  | ok buf' => exact length_packTag hpack
  | err e => trivial
  | panic p =>
    rw [packTag] at hpack
    split at hpack
    next => cases hpack
    next hsource =>
      split at hpack
      next => cases hpack
      next val hval =>
        obtain ⟨bytes, -, hok⟩ := packValue_ok tag.bitOffset tag.datatype val (h hsource)
        rw [hok] at hpack
        cases hpack

/-- The packer stays within the buffer for all values exactly when each input tag does. -/
theorem packInputBuffer_safe_iff {sub : SubslotConfig}
    (hsize : ∀ tag ∈ sub.tags, typeSize tag.datatype ≠ 0) :
    (∀ tagValues, (packInputBuffer sub tagValues).Safe) ↔
      ∀ tag ∈ sub.tags, tag.source ≠ "" →
        tag.byteOffset.toNat + typeSize tag.datatype ≤ sub.inputSize.toNat := by
  constructor
  · intro h tag htag hsource
    by_contra hover
    -- A value for this tag alone is enough: if no tag before it panics, it does.
    refine absurd (h ((∅ : GoMap String Value).insert tag.tagID (.bool true))) ?_
    rw [packInputBuffer, makeSlice_ok, ok_bind]
    have hlength : (List.replicate sub.inputSize.toNat (0 : UInt8)).length =
        sub.inputSize.toNat := List.length_replicate
    refine not_safe_foldlM (I := fun buf : Bytes => buf.length = sub.inputSize.toNat)
      (fun i _ buf buf' hbuf hround => (length_packTag hround).trans hbuf) htag ?_ hlength
    intro buf hbuf
    rw [packTag, if_neg hsource, AList.lookup_insert]
    exact not_safe_packValue tag.bitOffset _ (hsize tag htag) (by omega)
  · intro h tagValues
    rw [packInputBuffer, makeSlice_ok, ok_bind]
    refine (ensures_foldlM (I := fun buf : Bytes => buf.length = sub.inputSize.toNat)
      (fun tag htag buf hbuf => ?_) List.length_replicate).safe
    refine (ensures_packTag_of_within fun hsource => ?_).imp fun buf' hbuf' => hbuf'.trans hbuf
    rw [hbuf]
    exact h tag htag hsource

/-- A value inside the data is unpacked without a panic. -/
theorem safe_unpackValue {data : Bytes} {offset : UInt16} (bitOffset : UInt8) {dt : ProfinetType}
    (h : offset.toNat + typeSize dt ≤ data.length) :
    (unpackValue data offset bitOffset dt).Safe := by
  cases dt with
  | bool | uint8 | int8 =>
    rw [unpackValue, index_ok h]
    trivial
  | other name => trivial
  | _ =>
    simp only [typeSize] at h
    rw [unpackValue, uintFrom_ok h]
    trivial

/-- The unpacker looks at the end of each tag before it reads it. -/
theorem safe_unpackOutputBuffer (sub : SubslotConfig) (data : Bytes) :
    (unpackOutputBuffer sub data).Safe := by
  refine ensures_foldlM (fun tag _ result _ => ?_) trivial
  rw [unpackTag]
  split
  next => trivial
  next =>
    split
    next => trivial
    next hlength =>
      refine (safe_unpackValue tag.bitOffset (Nat.le_of_not_gt hlength)).bind fun val _ => ?_
      cases val with
      | none => trivial
      | some val => trivial

/-! ## Whether the check suffices -/

/-- No tag values and no data make the packers index outside their buffers. -/
def ProfinetConfig.InBounds (c : ProfinetConfig) : Prop :=
  ∀ slot ∈ c.slots, ∀ sub ∈ slot.subslots,
    (∀ tagValues, (packInputBuffer sub tagValues).Safe) ∧
      ∀ data, (unpackOutputBuffer sub data).Safe

/-- The end of each input tag is a number of sixteen bits. -/
def ProfinetConfig.EndsFit (c : ProfinetConfig) : Prop :=
  ∀ slot ∈ c.slots, ∀ sub ∈ slot.subslots, ∀ tag ∈ sub.tags, tag.source ≠ "" →
    tag.byteOffset.toNat + typeSize tag.datatype < 65536

theorem typeSize_le (dt : ProfinetType) : typeSize dt ≤ 8 := by
  cases dt with
  | _ => simp [typeSize]

/-- Where the end does not wrap, the check of an input tag is about the place that the
packer uses; where it wraps, that place is outside every buffer. -/
theorem WrappedWithin.within_iff {sub : SubslotConfig} {tag : TagMapping}
    (h : WrappedWithin sub tag) (hsource : tag.source ≠ "") :
    tag.byteOffset.toNat + typeSize tag.datatype ≤ sub.inputSize.toNat ↔
      tag.byteOffset.toNat + typeSize tag.datatype < 65536 := by
  have hsize := typeSize_le tag.datatype
  have hbuf : sub.inputSize.toNat < 65536 := sub.inputSize.toNat_lt
  have hend := UInt16.le_iff_toNat_le.mp h.2
  rw [bufSizeOf, if_pos hsource, UInt16.toNat_add, UInt16.toNat_ofNat'] at hend
  omega

/-- A configuration that passes the check keeps the packers within their buffers exactly
when no input tag ends behind the last offset of sixteen bits. -/
theorem inBounds_iff (c : ProfinetConfig) (h : c.Accepted) : c.InBounds ↔ c.EndsFit := by
  have hsub : ∀ slot ∈ c.slots, ∀ sub ∈ slot.subslots,
      ((∀ tagValues, (packInputBuffer sub tagValues).Safe) ∧
        ∀ data, (unpackOutputBuffer sub data).Safe) ↔
      ∀ tag ∈ sub.tags, tag.source ≠ "" →
        tag.byteOffset.toNat + typeSize tag.datatype < 65536 := by
    intro slot hslot sub hsub
    have htags := h.wrappedWithin slot hslot sub hsub
    rw [and_iff_left (safe_unpackOutputBuffer sub),
      packInputBuffer_safe_iff fun tag htag => (htags tag htag).1]
    exact forall₃_congr fun tag htag hsource => (htags tag htag).within_iff hsource
  exact forall₂_congr fun slot hslot => forall₂_congr fun sub hsub' => hsub slot hslot sub hsub'

/-- One input subslot with one tag. -/
def sampleConfig (tag : TagMapping) : ProfinetConfig where
  stationName := "station"
  interfaceName := "eth1"
  vendorID := 1
  deviceID := 1
  cycleTimeUs := 1000
  slots := [{
    slotNumber := 1
    moduleIdentNo := 1
    subslots := [{
      subslotNumber := 1
      submoduleIdentNo := 1
      direction := .input
      inputSize := 4
      outputSize := 0
      tags := [tag] }] }]

def placedTag : TagMapping := ⟨"level", 2, 0, .uint16, "plc.data.level"⟩

theorem inBounds_iff_placedTag :
    (sampleConfig placedTag).Accepted ∧ (sampleConfig placedTag).InBounds := by
  have haccepted : (sampleConfig placedTag).Accepted := rfl
  refine ⟨haccepted, (inBounds_iff _ haccepted).mpr ?_⟩
  simp [ProfinetConfig.EndsFit, sampleConfig, placedTag, typeSize]

/-- Four bytes at the offset 65534 end at 2. -/
def wrappedTag : TagMapping := ⟨"level", 65534, 0, .uint32, "plc.data.level"⟩

theorem wrappedTag_panics :
    (sampleConfig wrappedTag).Accepted ∧ ¬(sampleConfig wrappedTag).InBounds := by
  refine ⟨rfl, ?_⟩
  intro h
  have hsafe := (h _ List.mem_cons_self _ List.mem_cons_self).1
    ((∅ : GoMap String Value).insert "level" (.int 1))
  rw [packInputBuffer, makeSlice_ok, ok_bind] at hsafe
  refine not_safe_foldlM (I := fun buf : Bytes => buf.length = 4)
    (fun _ _ _ _ hbuf hround => (length_packTag hround).trans hbuf) List.mem_cons_self ?_ rfl hsafe
  intro buf hbuf
  rw [packTag, if_neg (by decide), wrappedTag, AList.lookup_insert]
  exact not_safe_packValue 0 _ (by decide) (by rw [hbuf]; decide)

end ProfinetValidation
