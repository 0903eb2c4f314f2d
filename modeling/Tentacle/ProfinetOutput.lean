import Tentacle.ProfinetDispatch

/-!
# Commands to output tags

A command for an output tag of a connected device is packed and written over the cyclic
output data at the offset of the tag. A boolean is packed as a whole byte in which only its
own bit can be set, so that it clears the other booleans of its byte.
-/

namespace ProfinetOutput

open GoValues GoSlices BigEndian IeeeFloat ModbusCodec ProfinetExpected ProfinetIoData
  ProfinetDispatch Subjects

/-! ## The code -/

def toFloat64 : Value → Option Double
  | .float64 x => some x
  | .float32 x => some (x.convert binary64)
  | .int n => some (.ofInt n)
  | .bool _ | .other => none

def packTagValue (tag : ControllerTag) (val : Value) : Option Bytes :=
  match ProfinetType.ofString tag.datatype with
  | .bool => some [if val = .bool true then bitMask tag.bitOffset else 0]
  | .uint8 => (toFloat64 val).map fun v => [UInt8.ofNat (uintOf 8 v)]
  | .int8 => (toFloat64 val).map fun v => [UInt8.ofNat (toUint 8 (intOf 8 v))]
  | .uint16 => (toFloat64 val).map fun v => putUint 2 (uintOf 16 v)
  | .int16 => (toFloat64 val).map fun v => putUint 2 (toUint 16 (intOf 16 v))
  | .uint32 => (toFloat64 val).map fun v => putUint 4 (uintOf 32 v)
  | .int32 => (toFloat64 val).map fun v => putUint 4 (toUint 32 (intOf 32 v))
  | .float32 => (toFloat64 val).map fun v => putUint 4 (v.convert binary32).toBits
  | .float64 => (toFloat64 val).map fun v => putUint 8 v.toBits
  | .uint64 => (toFloat64 val).map fun v => putUint 8 (uintOf 64 v)
  | .int64 => (toFloat64 val).map fun v => putUint 8 (toUint 64 (intOf 64 v))
  | .other _ => none

def writeOutputTag (outputData : Bytes) (offset : UInt16) (data : Bytes) : Bytes :=
  if offset.toNat + data.length ≤ outputData.length then overwrite outputData offset.toNat data
  else outputData

/-- A device as a command finds it: its tags, and the output data of its cyclic exchange if
it is connected. -/
structure OutputDevice where
  allTags : GoMap String ControllerTag
  cyclic : Option Bytes := none

/-- The device ID and the tag ID in the subject of a command. -/
def commandTarget (subject : String) : Option (String × String) :=
  match tokens subject with
  | _ :: _ :: deviceID :: part :: parts =>
    some (String.ofList deviceID, String.ofList (['.'].intercalate (part :: parts)))
  | _ => none

/-- A message on a command subject, with its value if it can be parsed. -/
structure Command where
  subject : String
  value : Option Value

def OutputDevice.write (dev : OutputDevice) (tagID : String) (value : Option Value) :
    OutputDevice :=
  match dev.allTags.lookup tagID with
  | none => dev
  | some tag =>
    if tag.direction ≠ "output" then dev
    else
      match dev.cyclic with
      | none => dev
      | some outputData =>
        match value.bind (packTagValue tag) with
        | none => dev
        | some packed =>
          { dev with cyclic := some (writeOutputTag outputData tag.byteOffset packed) }

def handleCommand (devices : GoMap String OutputDevice) (c : Command) :
    GoMap String OutputDevice :=
  match commandTarget c.subject with
  | none => devices
  | some (deviceID, tagID) =>
    match devices.lookup deviceID with
    | none => devices
    | some dev => devices.insert deviceID (dev.write tagID c.value)

def handleCommands (devices : GoMap String OutputDevice) (commands : List Command) :
    GoMap String OutputDevice :=
  commands.foldl handleCommand devices

/-! ## Layouts -/

/-- The bits of a tag, by byte and bit. -/
def Occupies (tag : ControllerTag) (byte bit : Nat) : Prop :=
  match ProfinetType.ofString tag.datatype with
  | .bool => byte = tag.byteOffset.toNat ∧ bit = tag.bitOffset.toNat
  | dt => tag.byteOffset.toNat ≤ byte ∧ byte < tag.byteOffset.toNat + typeSize dt ∧ bit < 8

def bitAt (data : Bytes) (byte bit : Nat) : Option Bool :=
  data[byte]?.map fun b => b.toNat.testBit bit

/-- The tags of a device and the length of its output data. The output tags lie in the
data, and no bit belongs to two of them. -/
structure OutputLayout where
  tags : GoMap String ControllerTag
  size : Nat
  within : ∀ tagID tag, tags.lookup tagID = some tag → tag.direction = "output" →
    tag.byteOffset.toNat + typeSize (.ofString tag.datatype) ≤ size ∧
      (ProfinetType.ofString tag.datatype = .bool → tag.bitOffset.toNat < 8)
  disjoint : ∀ tagID tag otherID other, tags.lookup tagID = some tag →
    tags.lookup otherID = some other → tag.direction = "output" → other.direction = "output" →
    tagID ≠ otherID → ∀ byte bit, Occupies tag byte bit → ¬Occupies other byte bit

/-- The device after `NewControllerCyclic`. -/
def OutputLayout.connected (layout : OutputLayout) : OutputDevice where
  allTags := layout.tags
  cyclic := some (List.replicate layout.size 0)

/-- The value that a tag of the type holds for a commanded one. A number outside the range
of an integer type, or a value of another kind, is none. -/
def commandedValue (dt : ProfinetType) (val : Value) : Option Value :=
  let integer (lo hi : Int) : Option Value := (toFloat64 val).bind fun v =>
    if lo ≤ v.toInt ∧ v.toInt < hi then some (.int v.toInt) else none
  match dt with
  | .bool =>
    match val with
    | .bool b => some (.bool b)
    | _ => none
  | .uint8 => integer 0 (2 ^ 8)
  | .int8 => integer (-2 ^ 7) (2 ^ 7)
  | .uint16 => integer 0 (2 ^ 16)
  | .int16 => integer (-2 ^ 15) (2 ^ 15)
  | .uint32 => integer 0 (2 ^ 32)
  | .int32 => integer (-2 ^ 31) (2 ^ 31)
  | .uint64 => integer 0 (2 ^ 64)
  | .int64 => integer (-2 ^ 63) (2 ^ 63)
  | .float32 => (toFloat64 val).map fun v => .float32 (v.convert binary32)
  | .float64 => (toFloat64 val).map .float64
  | .other _ => none

/-! ## What a command writes -/

section

variable {tag : ControllerTag} {val : Value} {packed data : Bytes}

/-- A value takes the bytes of its type. -/
theorem length_packTagValue (h : packTagValue tag val = some packed) :
    packed.length = typeSize (.ofString tag.datatype) := by
  rw [packTagValue] at h
  split at h <;> rename_i hdt <;> rw [hdt]
  case h_1 =>
    rw [← Option.some.inj h]
    rfl
  case h_12 => cases h
  all_goals
    obtain ⟨v, -, rfl⟩ := Option.map_eq_some_iff.mp h
    rfl

/-- What can be commanded can be packed. -/
theorem exists_packTagValue {p : Value}
    (h : commandedValue (.ofString tag.datatype) val = some p) :
    ∃ packed, packTagValue tag val = some packed := by
  cases hdt : ProfinetType.ofString tag.datatype with
  | bool => exact ⟨_, by rw [packTagValue, hdt]⟩
  | other name =>
    rw [hdt] at h
    cases h
  | float32 | float64 =>
    rw [hdt] at h
    obtain ⟨v, hv, -⟩ := Option.map_eq_some_iff.mp h
    exact ⟨_, by rw [packTagValue, hdt, hv]; rfl⟩
  | _ =>
    rw [hdt] at h
    obtain ⟨v, hv, -⟩ := Option.bind_eq_some_iff.mp h
    exact ⟨_, by rw [packTagValue, hdt, hv]; rfl⟩

theorem length_writeOutputTag (offset : UInt16) (packed : Bytes) :
    (writeOutputTag data offset packed).length = data.length := by
  rw [writeOutputTag]
  split
  next h => exact length_overwrite h
  next => rfl

theorem readUint_overwrite {w n offset : Nat} (h : offset + w ≤ data.length)
    (hn : n < 256 ^ w) : readUint w (overwrite data offset (putUint w n)) offset = some n := by
  have hfits : offset + (putUint w n).length ≤ data.length := by rwa [length_putUint]
  have hwindow := window_overwrite hfits
  rw [length_putUint] at hwindow
  rw [readUint_of_le (by rwa [length_overwrite hfits]), hwindow, uint_putUint_of_lt hn]

theorem readUint_overwrite_byte {offset : Nat} {x : UInt8} (h : offset + 1 ≤ data.length) :
    readUint 1 (overwrite data offset [x]) offset = some x.toNat := by
  have hlength : (overwrite data offset [x]).length = data.length := length_overwrite h
  rw [readUint_of_le (by rwa [hlength]), window_overwrite_singleton h, ← List.nil_append [x],
    uint_snoc, uint_nil, Nat.mul_zero, Nat.zero_add]

theorem uintOf_of_mem {bits : Nat} {v : Double} (h : 0 ≤ v.toInt ∧ v.toInt < 2 ^ bits) :
    ((uintOf bits v : Nat) : Int) = v.toInt := by
  rw [uintOf, toUint, Int.emod_eq_of_lt h.1 h.2, Int.toNat_of_nonneg h.1]

/-- A number in range is converted to its integer part. -/
theorem intOf_of_mem {bits : Nat} {v : Double}
    (h : -2 ^ bits ≤ v.toInt ∧ v.toInt < 2 ^ bits) : intOf (bits + 1) v = v.toInt := by
  have hcast : ((2 ^ (bits + 1) : Nat) : Int) = 2 ^ bits * 2 := by push_cast; ring
  have hnonneg : 0 ≤ v.toInt % 2 ^ (bits + 1) := Int.emod_nonneg _ (by positivity)
  rw [intOf, toSigned, uintOf, toUint, Int.toNat_of_nonneg hnonneg]
  have hpow : (2 : Int) ^ (bits + 1) = ((2 ^ (bits + 1) : Nat) : Int) := by push_cast; rfl
  rw [hpow, Int.emod_bmod]
  refine Int.bmod_eq_of_le ?_ ?_ <;> rw [hcast] <;> omega

theorem uintOf_lt_pow (w : Nat) (v : Double) : uintOf (8 * w) v < 256 ^ w := by
  have hlt := uintOf_lt (8 * w) v
  rwa [Nat.pow_mul] at hlt

/-! A tag reads as the value that was commanded, one lemma for each way to pack it. -/

section

variable {w : Nat} {p : Value}

/-- An unsigned number in range is read back from where it was written. -/
theorem unpack_unsigned
    (hpack : packTagValue tag val = (toFloat64 val).map fun v => putUint w (uintOf (8 * w) v))
    (hcommanded : commandedValue (.ofString tag.datatype) val = (toFloat64 val).bind fun v =>
      if 0 ≤ v.toInt ∧ v.toInt < 2 ^ (8 * w) then some (.int v.toInt) else none)
    (hunpack : ∀ data, unpackTagValue tag data =
      (readUint w data tag.byteOffset.toNat).map fun n : Nat => .int n)
    (hpacked : packTagValue tag val = some packed)
    (hp : commandedValue (.ofString tag.datatype) val = some p)
    (hfits : tag.byteOffset.toNat + packed.length ≤ data.length) :
    unpackTagValue tag (overwrite data tag.byteOffset.toNat packed) = some p := by
  rw [hpack, Option.map_eq_some_iff] at hpacked
  obtain ⟨v, hv, rfl⟩ := hpacked
  rw [hcommanded, hv, Option.bind_some, Option.ite_none_right_eq_some, Option.some.injEq] at hp
  obtain ⟨hmem, rfl⟩ := hp
  rw [length_putUint] at hfits
  rw [hunpack, readUint_overwrite hfits (uintOf_lt_pow w v), Option.map_some, uintOf_of_mem hmem]

theorem unpack_signed {bits : Nat} (hbits : 8 * w = bits + 1)
    (hpack : packTagValue tag val =
      (toFloat64 val).map fun v => putUint w (toUint (8 * w) (intOf (8 * w) v)))
    (hcommanded : commandedValue (.ofString tag.datatype) val = (toFloat64 val).bind fun v =>
      if -2 ^ bits ≤ v.toInt ∧ v.toInt < 2 ^ bits then some (.int v.toInt) else none)
    (hunpack : ∀ data, unpackTagValue tag data =
      (readUint w data tag.byteOffset.toNat).map fun n : Nat => .int (toSigned (8 * w) n))
    (hpacked : packTagValue tag val = some packed)
    (hp : commandedValue (.ofString tag.datatype) val = some p)
    (hfits : tag.byteOffset.toNat + packed.length ≤ data.length) :
    unpackTagValue tag (overwrite data tag.byteOffset.toNat packed) = some p := by
  rw [hpack, Option.map_eq_some_iff] at hpacked
  obtain ⟨v, hv, rfl⟩ := hpacked
  rw [hcommanded, hv, Option.bind_some, Option.ite_none_right_eq_some, Option.some.injEq] at hp
  obtain ⟨hmem, rfl⟩ := hp
  have hsigned : toSigned (8 * w) (uintOf (8 * w) v) = v.toInt := by
    rw [hbits]
    exact intOf_of_mem hmem
  rw [length_putUint] at hfits
  rw [hunpack, intOf, toUint_toSigned (uintOf_lt _ v), readUint_overwrite hfits (uintOf_lt_pow w v),
    Option.map_some, hsigned]

theorem unpack_float {f : Format} (make : Number f → Value) (convert : Double → Number f)
    (hw : 2 ^ (f.fractionBits + f.exponentBits + 1) = 256 ^ w)
    (hpack : packTagValue tag val = (toFloat64 val).map fun v => putUint w (convert v).toBits)
    (hcommanded : commandedValue (.ofString tag.datatype) val =
      (toFloat64 val).map fun v => make (convert v))
    (hunpack : ∀ data, unpackTagValue tag data =
      (readUint w data tag.byteOffset.toNat).map fun n => make (.ofBits n))
    (hpacked : packTagValue tag val = some packed)
    (hp : commandedValue (.ofString tag.datatype) val = some p)
    (hfits : tag.byteOffset.toNat + packed.length ≤ data.length) :
    unpackTagValue tag (overwrite data tag.byteOffset.toNat packed) = some p := by
  rw [hpack, Option.map_eq_some_iff] at hpacked
  obtain ⟨v, hv, rfl⟩ := hpacked
  rw [hcommanded, hv, Option.map_some, Option.some.injEq] at hp
  rw [length_putUint] at hfits
  rw [hunpack, readUint_overwrite hfits (hw ▸ (convert v).toBits_lt), Option.map_some,
    Number.ofBits_toBits, hp]

theorem unpack_bool (hdt : ProfinetType.ofString tag.datatype = .bool)
    (hbit : tag.bitOffset.toNat < 8) (hpacked : packTagValue tag val = some packed)
    (hp : commandedValue (.ofString tag.datatype) val = some p)
    (hfits : tag.byteOffset.toNat + packed.length ≤ data.length) :
    unpackTagValue tag (overwrite data tag.byteOffset.toNat packed) = some p := by
  rw [packTagValue, hdt, Option.some.injEq] at hpacked
  subst hpacked
  rw [hdt] at hp
  rw [unpackTagValue, hdt]
  dsimp only
  rw [readUint_overwrite_byte hfits, Option.map_some]
  cases val with
  | bool b =>
    rw [← Option.some.inj hp]
    cases b with
    | true => rw [if_pos rfl, toNat_bitMask hbit, Nat.testBit_two_pow_self]
    | false => rw [if_neg (by simp), UInt8.toNat_zero, Nat.zero_testBit]
  | int n => cases hp
  | float32 x => cases hp
  | float64 x => cases hp
  | other => cases hp

/-- Whatever the type, a value that fits is read back from where it was written. -/
theorem unpackTagValue_overwrite (hpacked : packTagValue tag val = some packed)
    (hp : commandedValue (.ofString tag.datatype) val = some p)
    (hbit : ProfinetType.ofString tag.datatype = .bool → tag.bitOffset.toNat < 8)
    (hfits : tag.byteOffset.toNat + packed.length ≤ data.length) :
    unpackTagValue tag (overwrite data tag.byteOffset.toNat packed) = some p := by
  cases hdt : ProfinetType.ofString tag.datatype with
  | bool => exact unpack_bool hdt (hbit hdt) hpacked hp hfits
  | uint8 =>
    exact unpack_unsigned (w := 1) (by rw [packTagValue, hdt]; rfl) (by rw [hdt]; rfl)
      (fun data => by rw [unpackTagValue, hdt]) hpacked hp hfits
  | int8 =>
    exact unpack_signed (w := 1) rfl (by rw [packTagValue, hdt]; rfl) (by rw [hdt]; rfl)
      (fun data => by rw [unpackTagValue, hdt]) hpacked hp hfits
  | uint16 =>
    exact unpack_unsigned (w := 2) (by rw [packTagValue, hdt]) (by rw [hdt]; rfl)
      (fun data => by rw [unpackTagValue, hdt]) hpacked hp hfits
  | int16 =>
    exact unpack_signed (w := 2) rfl (by rw [packTagValue, hdt]) (by rw [hdt]; rfl)
      (fun data => by rw [unpackTagValue, hdt]) hpacked hp hfits
  | uint32 =>
    exact unpack_unsigned (w := 4) (by rw [packTagValue, hdt]) (by rw [hdt]; rfl)
      (fun data => by rw [unpackTagValue, hdt]) hpacked hp hfits
  | int32 =>
    exact unpack_signed (w := 4) rfl (by rw [packTagValue, hdt]) (by rw [hdt]; rfl)
      (fun data => by rw [unpackTagValue, hdt]) hpacked hp hfits
  | uint64 =>
    exact unpack_unsigned (w := 8) (by rw [packTagValue, hdt]) (by rw [hdt]; rfl)
      (fun data => by rw [unpackTagValue, hdt]) hpacked hp hfits
  | int64 =>
    exact unpack_signed (w := 8) rfl (by rw [packTagValue, hdt]) (by rw [hdt]; rfl)
      (fun data => by rw [unpackTagValue, hdt]) hpacked hp hfits
  | float32 =>
    exact unpack_float (w := 4) .float32 (fun v => v.convert binary32) (by decide)
      (by rw [packTagValue, hdt]) (by rw [hdt]; rfl) (fun data => by rw [unpackTagValue, hdt])
      hpacked hp hfits
  | float64 =>
    exact unpack_float (w := 8) .float64 id (by decide) (by rw [packTagValue, hdt]; rfl)
      (by rw [hdt]; rfl) (fun data => by rw [unpackTagValue, hdt]) hpacked hp hfits
  | other name =>
    rw [hdt] at hp
    cases hp

end

end

/-! ## Sequences of commands -/

/-- The output data of a device. -/
def outputData (devices : GoMap String OutputDevice) (deviceID : String) : Option Bytes :=
  (devices.lookup deviceID).bind OutputDevice.cyclic

/-- An output tag of the layout. -/
def OutputLayout.Has (layout : OutputLayout) (tagID : String) (tag : ControllerTag) : Prop :=
  layout.tags.lookup tagID = some tag ∧ tag.direction = "output"

/-- After any commands, one more for an output tag leaves the bits of the other output tags
as they are, and the tag reads as the commanded value. -/
def FrameCondition (deviceID : String) (layout : OutputLayout) : Prop :=
  ∀ devices, devices.lookup deviceID = some layout.connected →
    ∀ (commands : List Command) (c : Command) (tagID : String) (tag : ControllerTag),
      commandTarget c.subject = some (deviceID, tagID) → layout.Has tagID tag →
      ∃ before after, outputData (handleCommands devices commands) deviceID = some before ∧
        outputData (handleCommand (handleCommands devices commands) c) deviceID = some after ∧
        (∀ otherID other, layout.Has otherID other → otherID ≠ tagID → ∀ byte bit,
          Occupies other byte bit → bitAt after byte bit = bitAt before byte bit) ∧
        ∀ val p, c.value = some val → commandedValue (.ofString tag.datatype) val = some p →
          unpackTagValue tag after = some p

/-- No other output tag has a bit in the byte of a boolean. -/
def OutputLayout.BoolsAlone (layout : OutputLayout) : Prop :=
  ∀ tagID tag otherID other, layout.Has tagID tag → layout.Has otherID other → otherID ≠ tagID →
    ProfinetType.ofString tag.datatype = .bool → ∀ bit, ¬Occupies other tag.byteOffset.toNat bit

/-- The device is connected, with output data of the length that it has had from the start. -/
def Holds (layout : OutputLayout) (devices : GoMap String OutputDevice) (deviceID : String)
    (data : Bytes) : Prop :=
  devices.lookup deviceID = some { allTags := layout.tags, cyclic := some data } ∧
    data.length = layout.size

section

variable {layout : OutputLayout} {devices : GoMap String OutputDevice} {deviceID tagID : String}
  {data : Bytes} {tag : ControllerTag} {val : Value}

theorem Holds.outputData (h : Holds layout devices deviceID data) :
    outputData devices deviceID = some data := by
  rw [ProfinetOutput.outputData, h.1]
  rfl

/-- A command leaves the tags and the length of the data. -/
theorem write_keeps (tags : GoMap String ControllerTag) (data : Bytes) (tagID : String)
    (value : Option Value) : ∃ data',
      OutputDevice.write { allTags := tags, cyclic := some data } tagID value =
        { allTags := tags, cyclic := some data' } ∧ data'.length = data.length := by
  rw [OutputDevice.write]
  split
  · exact ⟨data, rfl, rfl⟩
  · split
    · exact ⟨data, rfl, rfl⟩
    · dsimp only
      split
      · exact ⟨data, rfl, rfl⟩
      · exact ⟨_, rfl, length_writeOutputTag _ _⟩

/-- A command leaves the layout of the device. -/
theorem Holds.handleCommand (h : Holds layout devices deviceID data) (c : Command) :
    ∃ data', Holds layout (handleCommand devices c) deviceID data' := by
  obtain ⟨hlookup, hlength⟩ := h
  rw [ProfinetOutput.handleCommand]
  split
  · exact ⟨data, hlookup, hlength⟩
  next targetID tagID htarget =>
    split
    · exact ⟨data, hlookup, hlength⟩
    next dev hdev =>
      by_cases htargetID : deviceID = targetID
      · subst htargetID
        cases hlookup.symm.trans hdev
        obtain ⟨data', hwrite, hlength'⟩ := write_keeps layout.tags data tagID c.value
        refine ⟨data', ?_, hlength'.trans hlength⟩
        rw [AList.lookup_insert, hwrite]
      · refine ⟨data, ?_, hlength⟩
        rw [AList.lookup_insert_ne htargetID, hlookup]

theorem Holds.handleCommands (h : Holds layout devices deviceID data) (commands : List Command) :
    ∃ data', Holds layout (handleCommands devices commands) deviceID data' := by
  induction commands generalizing devices data with
  | nil => exact ⟨data, h⟩
  | cons c commands ih =>
    obtain ⟨data', h'⟩ := h.handleCommand c
    exact ih h'

/-- A command with a value that can be packed writes it over the bytes of the tag, any
other leaves the data as they are. -/
theorem outputData_handleCommand {c : Command} (h : Holds layout devices deviceID data)
    (htag : layout.Has tagID tag) (htarget : commandTarget c.subject = some (deviceID, tagID)) :
    outputData (handleCommand devices c) deviceID = some
      (match c.value.bind (packTagValue tag) with
      | none => data
      | some packed => overwrite data tag.byteOffset.toNat packed) := by
  obtain ⟨hlookup, hlength⟩ := h
  obtain ⟨hmem, houtput⟩ := htag
  rw [outputData, handleCommand, htarget]
  dsimp only
  rw [hlookup]
  dsimp only
  rw [AList.lookup_insert, OutputDevice.write, hmem]
  dsimp only
  rw [if_neg (not_not.mpr houtput)]
  cases hvalue : c.value.bind (packTagValue tag) with
  | none => rfl
  | some packed =>
    obtain ⟨val, -, hpacked⟩ := Option.bind_eq_some_iff.mp hvalue
    have hfits := (layout.within tagID tag hmem houtput).1
    rw [← length_packTagValue hpacked, ← hlength] at hfits
    dsimp only [Option.bind_some]
    rw [writeOutputTag, if_pos hfits]

/-! ## Bits of other tags -/

theorem bitAt_overwrite {src : Bytes} {lo byte : Nat} (h : lo + src.length ≤ data.length)
    (hbyte : byte < lo ∨ lo + src.length ≤ byte) (bit : Nat) :
    bitAt (overwrite data lo src) byte bit = bitAt data byte bit := by
  rw [bitAt, getElem?_overwrite_of_not_mem h hbyte, bitAt]

theorem Occupies.bit_lt (htag : layout.Has tagID tag) {byte bit : Nat} (h : Occupies tag byte bit) :
    bit < 8 := by
  have hbool := (layout.within tagID tag htag.1 htag.2).2
  rw [Occupies] at h
  split at h
  next hdt => exact h.2 ▸ hbool hdt
  next => exact h.2.2

/-- A tag that is no boolean has all the bits of its bytes. -/
theorem occupies_of_ne_bool (hdt : ProfinetType.ofString tag.datatype ≠ .bool) {byte bit : Nat}
    (hlo : tag.byteOffset.toNat ≤ byte)
    (hhi : byte < tag.byteOffset.toNat + typeSize (.ofString tag.datatype)) (hbit : bit < 8) :
    Occupies tag byte bit := by
  rw [Occupies]
  split
  next hbool => exact absurd hbool hdt
  next => exact ⟨hlo, hhi, hbit⟩

/-- A boolean reads as its bit. -/
theorem unpackTagValue_eq_bitAt (hdt : ProfinetType.ofString tag.datatype = .bool) (data : Bytes) :
    unpackTagValue tag data =
      (bitAt data tag.byteOffset.toNat tag.bitOffset.toNat).map .bool := by
  have hread : readUint 1 data tag.byteOffset.toNat =
      data[tag.byteOffset.toNat]?.map UInt8.toNat := by
    by_cases h : tag.byteOffset.toNat < data.length
    · have hwindow : (data.drop tag.byteOffset.toNat).take 1 = [data[tag.byteOffset.toNat]] :=
        List.take_one_drop_eq_of_lt_length h
      rw [readUint_of_le h, hwindow, List.getElem?_eq_getElem h, ← List.nil_append [_], uint_snoc,
        uint_nil, Nat.mul_zero, Nat.zero_add]
      rfl
    · rw [readUint, if_pos (by omega), List.getElem?_eq_none (by omega)]
      rfl
  rw [unpackTagValue, hdt]
  dsimp only
  rw [hread, bitAt, Option.map_map, Option.map_map]
  rfl

theorem occupies_bool_iff (hdt : ProfinetType.ofString tag.datatype = .bool) {byte bit : Nat} :
    Occupies tag byte bit ↔ byte = tag.byteOffset.toNat ∧ bit = tag.bitOffset.toNat := by
  rw [Occupies, hdt]

/-- Where booleans are alone, the bits of another tag lie outside the bytes of a tag. -/
theorem OutputLayout.BoolsAlone.outside (h : layout.BoolsAlone) {otherID : String}
    {other : ControllerTag} (htag : layout.Has tagID tag) (hother : layout.Has otherID other)
    (hne : otherID ≠ tagID) {byte bit : Nat} (hbits : Occupies other byte bit) :
    byte < tag.byteOffset.toNat ∨
      tag.byteOffset.toNat + typeSize (.ofString tag.datatype) ≤ byte := by
  by_contra hinside
  rw [not_or, Nat.not_lt, Nat.not_le] at hinside
  obtain ⟨hlo, hhi⟩ := hinside
  by_cases hdt : ProfinetType.ofString tag.datatype = .bool
  · rw [hdt] at hhi
    obtain rfl : byte = tag.byteOffset.toNat := Nat.le_antisymm (Nat.le_of_lt_succ hhi) hlo
    exact h tagID tag otherID other htag hother hne hdt bit hbits
  · exact layout.disjoint tagID tag otherID other htag.1 hother.1 htag.2 hother.2 hne.symm byte bit
      (occupies_of_ne_bool hdt hlo hhi (hbits.bit_lt hother)) hbits

/-- With every bool alone in its byte a command changes no other tag. -/
theorem frameCondition_of_boolsAlone (h : layout.BoolsAlone) (deviceID : String) :
    FrameCondition deviceID layout := by
  intro devices hdevices commands c tagID tag htarget htag
  have hstart : Holds layout devices deviceID (List.replicate layout.size 0) :=
    ⟨hdevices, List.length_replicate⟩
  obtain ⟨before, hbefore⟩ := hstart.handleCommands commands
  refine ⟨before, _, hbefore.outputData, outputData_handleCommand hbefore htag htarget, ?_⟩
  obtain ⟨hsize, hbit⟩ := layout.within tagID tag htag.1 htag.2
  have hfits {val packed} (hpacked : packTagValue tag val = some packed) :
      tag.byteOffset.toNat + packed.length ≤ before.length := by
    rwa [length_packTagValue hpacked, hbefore.2]
  constructor
  · intro otherID other hother hne byte bit hbits
    split
    · rfl
    next packed hvalue =>
      obtain ⟨val, -, hpacked⟩ := Option.bind_eq_some_iff.mp hvalue
      have houtside := h.outside htag hother hne hbits
      rw [← length_packTagValue hpacked] at houtside
      exact bitAt_overwrite (hfits hpacked) houtside bit
  · intro val p hval hp
    obtain ⟨packed, hpacked⟩ := exists_packTagValue hp
    rw [hval, Option.bind_some, hpacked]
    exact unpackTagValue_overwrite hpacked hp hbit (hfits hpacked)

/-! ## The subjects of the commands -/

/-- The name of the device in a command has no dot. -/
theorem dot_not_mem_of_commandTarget {subject : String}
    (h : commandTarget subject = some (deviceID, tagID)) : '.' ∉ deviceID.toList := by
  rw [commandTarget] at h
  split at h
  next first second device part parts htokens =>
    cases h
    have hmem : device ∈ tokens subject := by simp [htokens]
    rw [String.toList_ofList]
    exact not_mem_of_mem_splitOn hmem
  next => cases h

/-- A device without a dot in its ID can be commanded. -/
theorem commandTarget_command (h : '.' ∉ deviceID.toList) (tagID : String) :
    commandTarget (command protocolName (deviceID ++ "." ++ tagID)) = some (deviceID, tagID) := by
  have htokens : tokens (deviceID ++ "." ++ tagID) = deviceID.toList :: tokens tagID := by
    rw [tokens, String.toList_append, String.toList_append, List.append_assoc]
    exact List.splitOn_append_cons_self_of_not_mem h tagID.toList
  rw [commandTarget, tokens_command (by decide), htokens]
  cases hparts : tokens tagID with
  | nil => exact absurd hparts (List.splitOn_ne_nil _ _)
  | cons part parts =>
    dsimp only
    rw [← hparts, tokens, List.intercalate_splitOn, String.ofList_toList, String.ofList_toList]

/-- Two booleans in one byte: the second one that is set clears the first. -/
theorem not_frameCondition_of_bools (hdot : '.' ∉ deviceID.toList) {otherID : String}
    {other : ControllerTag} (htag : layout.Has tagID tag) (hother : layout.Has otherID other)
    (hne : otherID ≠ tagID) (hdt : ProfinetType.ofString tag.datatype = .bool)
    (hdt' : ProfinetType.ofString other.datatype = .bool)
    (hbyte : other.byteOffset = tag.byteOffset) : ¬FrameCondition deviceID layout := by
  intro h
  obtain ⟨hsize, hbit⟩ := layout.within tagID tag htag.1 htag.2
  have hpacked (t : ControllerTag) (ht : ProfinetType.ofString t.datatype = .bool) :
      packTagValue t (.bool true) = some [bitMask t.bitOffset] := by
    rw [packTagValue, ht, if_pos rfl]
  let devices : GoMap String OutputDevice := AList.insert deviceID layout.connected ∅
  let set (id : String) : Command :=
    ⟨command protocolName (deviceID ++ "." ++ id), some (.bool true)⟩
  have hdevices : devices.lookup deviceID = some layout.connected := AList.lookup_insert _
  have hstart : Holds layout devices deviceID (List.replicate layout.size 0) :=
    ⟨hdevices, List.length_replicate⟩
  -- The first command sets the bit of the other tag.
  obtain ⟨first, hfirst⟩ := hstart.handleCommands [set otherID]
  obtain ⟨_, after, -, hafter, -, hread⟩ :=
    h devices hdevices [] (set otherID) otherID other (commandTarget_command hdot otherID) hother
  cases hafter.symm.trans hfirst.outputData
  have hset := hread (.bool true) (.bool true) rfl (by rw [hdt']; rfl)
  rw [unpackTagValue_eq_bitAt hdt', hbyte] at hset
  -- The second command writes the whole byte.
  obtain ⟨before, last, hbefore, hlast, hkept, -⟩ := h devices hdevices [set otherID] (set tagID)
    tagID tag (commandTarget_command hdot tagID) htag
  cases hbefore.symm.trans hfirst.outputData
  have hwrite := outputData_handleCommand hfirst htag (c := set tagID)
    (commandTarget_command hdot tagID)
  rw [hlast, show (set tagID).value.bind (packTagValue tag) = _ from hpacked tag hdt] at hwrite
  cases hwrite
  have hclear := hkept otherID other hother hne _ _ ((occupies_bool_iff hdt').mpr ⟨rfl, rfl⟩)
  have hfits : tag.byteOffset.toNat + 1 ≤ first.length := by
    rw [hdt] at hsize
    rwa [hfirst.2]
  have hbits : tag.bitOffset.toNat ≠ other.bitOffset.toNat := by
    intro hbits
    refine layout.disjoint tagID tag otherID other htag.1 hother.1 htag.2 hother.2 hne.symm _ _
      ((occupies_bool_iff hdt).mpr ⟨rfl, rfl⟩) ((occupies_bool_iff hdt').mpr ⟨?_, hbits⟩)
    rw [hbyte]
  obtain ⟨b, hb, hbool⟩ := Option.map_eq_some_iff.mp hset
  cases hbool
  rw [hbyte, hb, bitAt, getElem?_overwrite_of_mem hfits (Nat.le_refl _) (Nat.lt_succ_self _),
    Nat.sub_self, List.getElem?_cons_zero, Option.map_some, toNat_bitMask (hbit hdt),
    Nat.testBit_two_pow_of_ne hbits] at hclear
  cases hclear

/-- Two bools in one byte break the frame condition. -/
theorem boolsAlone_of_frameCondition (hdot : '.' ∉ deviceID.toList)
    (h : FrameCondition deviceID layout) : layout.BoolsAlone := by
  intro tagID tag otherID other htag hother hne hdt bit hbits
  have hbit := (layout.within tagID tag htag.1 htag.2).2 hdt
  have hown : Occupies tag tag.byteOffset.toNat tag.bitOffset.toNat :=
    (occupies_bool_iff hdt).mpr ⟨rfl, rfl⟩
  by_cases hdt' : ProfinetType.ofString other.datatype = .bool
  · have hbyte := ((occupies_bool_iff hdt').mp hbits).1
    exact not_frameCondition_of_bools hdot htag hother hne hdt hdt'
      (UInt16.toNat_inj.mp hbyte.symm) h
  -- Any other type has all the bits of its bytes, also that of the boolean.
  · rw [Occupies] at hbits
    split at hbits
    next hbool => exact hdt' hbool
    next =>
      exact layout.disjoint tagID tag otherID other htag.1 hother.1 htag.2 hother.2 hne.symm _ _
        hown (occupies_of_ne_bool hdt' hbits.1 hbits.2.1 hbit)

/-- A command leaves the bits of the other output tags as they are and sets its own to the
commanded value, whatever was commanded before, exactly if no other output tag has a bit in
the byte of a boolean, or no command reaches the device. -/
theorem frameCondition_iff (deviceID : String) (layout : OutputLayout) :
    FrameCondition deviceID layout ↔ '.' ∈ deviceID.toList ∨ layout.BoolsAlone := by
  constructor
  · intro h
    by_cases hdot : '.' ∈ deviceID.toList
    · exact Or.inl hdot
    · exact Or.inr (boolsAlone_of_frameCondition hdot h)
  · rintro (hdot | halone)
    · intro devices _ commands c tagID tag htarget
      exact absurd hdot (dot_not_mem_of_commandTarget htarget)
    · exact frameCondition_of_boolsAlone halone deviceID

end

/-! ## Two booleans in one byte -/

/-- A boolean output in the first byte. -/
def boolTag (tagID : String) (bitOffset : UInt8) : ControllerTag where
  tagID := tagID
  byteOffset := 0
  bitOffset := bitOffset
  datatype := "bool"
  direction := "output"

def pumpTags : GoMap String ControllerTag :=
  AList.insert "run" (boolTag "run" 0) (AList.insert "alarm" (boolTag "alarm" 1) ∅)

theorem eq_of_lookup_pumpTags {tagID : String} {tag : ControllerTag}
    (h : pumpTags.lookup tagID = some tag) :
    tagID = "run" ∧ tag = boolTag "run" 0 ∨ tagID = "alarm" ∧ tag = boolTag "alarm" 1 := by
  by_cases hrun : tagID = "run"
  · subst hrun
    rw [pumpTags, AList.lookup_insert, Option.some.injEq] at h
    exact Or.inl ⟨rfl, h.symm⟩
  · rw [pumpTags, AList.lookup_insert_ne hrun] at h
    obtain ⟨rfl, rfl⟩ := eq_of_lookup_singleton h
    exact Or.inr ⟨rfl, rfl⟩

/-- The two are different bits of one byte. -/
def pumpLayout : OutputLayout where
  tags := pumpTags
  size := 1
  within := by
    intro tagID tag htag _
    obtain ⟨-, rfl⟩ | ⟨-, rfl⟩ := eq_of_lookup_pumpTags htag <;> decide
  disjoint := by
    intro tagID tag otherID other htag hother _ _ hne byte bit hbits hbits'
    have hbool (id : String) (bitOffset : UInt8) :
        ProfinetType.ofString (boolTag id bitOffset).datatype = .bool := rfl
    obtain ⟨rfl, rfl⟩ | ⟨rfl, rfl⟩ := eq_of_lookup_pumpTags htag <;>
      obtain ⟨rfl, rfl⟩ | ⟨rfl, rfl⟩ := eq_of_lookup_pumpTags hother
    · exact hne rfl
    · cases ((occupies_bool_iff (hbool _ _)).mp hbits).2.symm.trans
        ((occupies_bool_iff (hbool _ _)).mp hbits').2
    · cases ((occupies_bool_iff (hbool _ _)).mp hbits).2.symm.trans
        ((occupies_bool_iff (hbool _ _)).mp hbits').2
    · exact hne rfl

/-- Setting `run` clears `alarm`. -/
theorem not_frameCondition_pump : ¬FrameCondition "pump" pumpLayout := by
  have hrun : pumpLayout.Has "run" (boolTag "run" 0) := ⟨AList.lookup_insert _, rfl⟩
  have halarm : pumpLayout.Has "alarm" (boolTag "alarm" 1) := ⟨rfl, rfl⟩
  exact not_frameCondition_of_bools (by decide) hrun halarm (by decide) rfl rfl rfl

end ProfinetOutput
