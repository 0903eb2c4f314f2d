import Tentacle.ModbusCodec
import Tentacle.ProfinetExpected

/-!
# Cyclic data of one subslot

The device packs the values of the input tags of a subslot into a buffer, one tag after
another. Where no two of them overlap, each tag can be read back with the controller's
`unpackTagValue`. Two booleans in one byte do not overlap when their bits differ.
-/

namespace ProfinetIoData

open GoValues GoSlices BigEndian Outcome IeeeFloat ModbusCodec ProfinetExpected

inductive ProfinetType where
  | bool | uint8 | int8 | uint16 | int16 | uint32 | int32 | float32 | uint64 | int64 | float64
  | other (name : String)
  deriving DecidableEq, Repr

def ProfinetType.ofString (s : String) : ProfinetType :=
  if s = "bool" then .bool
  else if s = "uint8" then .uint8
  else if s = "int8" then .int8
  else if s = "uint16" then .uint16
  else if s = "int16" then .int16
  else if s = "uint32" then .uint32
  else if s = "int32" then .int32
  else if s = "float32" then .float32
  else if s = "uint64" then .uint64
  else if s = "int64" then .int64
  else if s = "float64" then .float64
  else .other s

def ProfinetType.name : ProfinetType → String
  | .bool => "bool"
  | .uint8 => "uint8"
  | .int8 => "int8"
  | .uint16 => "uint16"
  | .int16 => "int16"
  | .uint32 => "uint32"
  | .int32 => "int32"
  | .float32 => "float32"
  | .uint64 => "uint64"
  | .int64 => "int64"
  | .float64 => "float64"
  | .other name => name

def typeSize : ProfinetType → Nat
  | .bool | .uint8 | .int8 => 1
  | .uint16 | .int16 => 2
  | .uint32 | .int32 | .float32 => 4
  | .uint64 | .int64 | .float64 => 8
  | .other _ => 0

inductive Direction where
  | input | output | inputOutput
  | other (name : String)
  deriving DecidableEq, Repr

def Direction.isInput : Direction → Bool
  | .input | .inputOutput => true
  | .output | .other _ => false

def Direction.isOutput : Direction → Bool
  | .output | .inputOutput => true
  | .input | .other _ => false

structure TagMapping where
  tagID : String
  byteOffset : UInt16
  bitOffset : UInt8
  datatype : ProfinetType
  source : String
  deriving DecidableEq, Repr

structure SubslotConfig where
  subslotNumber : UInt16
  submoduleIdentNo : UInt32
  direction : Direction
  inputSize : UInt16
  outputSize : UInt16
  tags : List TagMapping
  deriving DecidableEq, Repr

structure SlotConfig where
  slotNumber : UInt16
  moduleIdentNo : UInt32
  subslots : List SubslotConfig
  deriving DecidableEq, Repr

/-- The values of an `interface{}`, as far as the functions below tell them apart; the
integer types are all treated alike. -/
inductive Value where
  | bool (b : Bool)
  | int (n : Int)
  | float32 (x : Single)
  | float64 (x : Double)
  | other
  deriving DecidableEq

/-! ## The device packs -/

def toFloat : Value → Double
  | .float64 x => x
  | .float32 x => x.convert binary64
  | .int n => .ofInt n
  | .bool b => .ofInt (if b then 1 else 0)
  | .other => .ofInt 0

def toBool : Value → Bool
  | .bool b => b
  | .float64 x => !x.isZero
  | .float32 x => !x.isZero
  | .int n => n != 0
  | .other => false

/-- `uintN(f)`. Out of range the language leaves the result open, and the low bits stand. -/
def uintOf (bits : Nat) (f : Double) : Nat := toUint bits f.toInt

/-- `intN(f)`. -/
def intOf (bits : Nat) (f : Double) : Int := toSigned bits (uintOf bits f)

/-- `1 << bitOffset` in a byte. -/
def bitMask (bitOffset : UInt8) : UInt8 := UInt8.ofNat (2 ^ bitOffset.toNat)

def packValue (buf : Bytes) (offset : UInt16) (bitOffset : UInt8) (dt : ProfinetType)
    (val : Value) : Outcome Empty Bytes :=
  let f := toFloat val
  match dt with
  | .bool => do
    let b ← index buf offset.toNat
    assign buf offset.toNat
      (if toBool val then b ||| bitMask bitOffset else b &&& ~~~bitMask bitOffset)
  | .uint8 => assign buf offset.toNat (UInt8.ofNat (uintOf 8 f))
  | .int8 => assign buf offset.toNat (UInt8.ofNat (toUint 8 (intOf 8 f)))
  | .uint16 => putUintFrom 2 buf offset.toNat (uintOf 16 f)
  | .int16 => putUintFrom 2 buf offset.toNat (toUint 16 (intOf 16 f))
  | .uint32 => putUintFrom 4 buf offset.toNat (uintOf 32 f)
  | .int32 => putUintFrom 4 buf offset.toNat (toUint 32 (intOf 32 f))
  | .float32 => putUintFrom 4 buf offset.toNat (f.convert binary32).toBits
  | .uint64 => putUintFrom 8 buf offset.toNat (uintOf 64 f)
  | .int64 => putUintFrom 8 buf offset.toNat (toUint 64 (intOf 64 f))
  | .float64 => putUintFrom 8 buf offset.toNat f.toBits
  | .other _ => .ok buf

/-- One round of the loop of `PackInputBuffer`. -/
def packTag (tagValues : GoMap String Value) (buf : Bytes) (tag : TagMapping) :
    Outcome Empty Bytes :=
  if tag.source = "" then .ok buf
  else
    match tagValues.lookup tag.tagID with
    | none => .ok buf
    | some val => packValue buf tag.byteOffset tag.bitOffset tag.datatype val

def packInputBuffer (sub : SubslotConfig) (tagValues : GoMap String Value) :
    Outcome Empty Bytes := do
  let buf ← makeSlice 0 sub.inputSize.toNat
  sub.tags.foldlM (packTag tagValues) buf

/-! ## The controller unpacks -/

/-- The big-endian number of `w` bytes, where there are so many. -/
def readUint (w : Nat) (data : Bytes) (offset : Nat) : Option Nat :=
  if data.length < offset + w then none else some (uint ((data.drop offset).take w))

def unpackTagValue (tag : ControllerTag) (data : Bytes) : Option Value :=
  let offset := tag.byteOffset.toNat
  match ProfinetType.ofString tag.datatype with
  | .bool => (readUint 1 data offset).map fun n => .bool (n.testBit tag.bitOffset.toNat)
  | .uint8 => (readUint 1 data offset).map fun n : Nat => .int n
  | .int8 => (readUint 1 data offset).map fun n => .int (toSigned 8 n)
  | .uint16 => (readUint 2 data offset).map fun n : Nat => .int n
  | .int16 => (readUint 2 data offset).map fun n => .int (toSigned 16 n)
  | .uint32 => (readUint 4 data offset).map fun n : Nat => .int n
  | .int32 => (readUint 4 data offset).map fun n => .int (toSigned 32 n)
  | .float32 => (readUint 4 data offset).map fun n => .float32 (.ofBits n)
  | .uint64 => (readUint 8 data offset).map fun n : Nat => .int n
  | .int64 => (readUint 8 data offset).map fun n => .int (toSigned 64 n)
  | .float64 => (readUint 8 data offset).map fun n => .float64 (.ofBits n)
  | .other _ => none

/-- The tag as it stands in the controller's subscription. -/
def TagMapping.controllerTag (tag : TagMapping) : ControllerTag where
  tagID := tag.tagID
  byteOffset := tag.byteOffset
  bitOffset := tag.bitOffset
  datatype := tag.datatype.name
  direction := if tag.source = "" then "output" else "input"

def SubslotConfig.subscription (sub : SubslotConfig) : SubslotSubscription where
  subslotNumber := sub.subslotNumber
  submoduleIdentNo := sub.submoduleIdentNo
  inputSize := sub.inputSize
  outputSize := sub.outputSize
  tags := sub.tags.map TagMapping.controllerTag

def SlotConfig.subscription (slot : SlotConfig) : SlotSubscription where
  slotNumber := slot.slotNumber
  moduleIdentNo := slot.moduleIdentNo
  subslots := slot.subslots.map SubslotConfig.subscription

/-- The integer or the boolean that the device packs for a value. -/
def packedValue (dt : ProfinetType) (val : Value) : Option Value :=
  let f := toFloat val
  match dt with
  | .bool => some (.bool (toBool val))
  | .uint8 => some (.int (uintOf 8 f))
  | .int8 => some (.int (intOf 8 f))
  | .uint16 => some (.int (uintOf 16 f))
  | .int16 => some (.int (intOf 16 f))
  | .uint32 => some (.int (uintOf 32 f))
  | .int32 => some (.int (intOf 32 f))
  | .uint64 => some (.int (uintOf 64 f))
  | .int64 => some (.int (intOf 64 f))
  | .float32 | .float64 | .other _ => none

def ProfinetType.isIntegerOrBool : ProfinetType → Bool
  | .float32 | .float64 | .other _ => false
  | _ => true

theorem exists_packedValue {dt : ProfinetType} (h : dt.isIntegerOrBool) (val : Value) :
    ∃ p, packedValue dt val = some p := by
  cases dt with
  | float32 | float64 | other name => cases h
  | _ => exact ⟨_, rfl⟩

theorem isIntegerOrBool_of_packedValue {dt : ProfinetType} {val p : Value}
    (h : packedValue dt val = some p) : dt.isIntegerOrBool := by
  cases dt with
  | float32 | float64 | other name => cases h
  | _ => rfl

/-! ## What one tag writes -/

/-- The tags lie beside each other, or are two different bits. -/
def Apart (t u : TagMapping) : Prop :=
  t.byteOffset.toNat + typeSize t.datatype ≤ u.byteOffset.toNat ∨
    u.byteOffset.toNat + typeSize u.datatype ≤ t.byteOffset.toNat ∨
    (t.datatype = .bool ∧ u.datatype = .bool ∧ t.bitOffset ≠ u.bitOffset)

def Within (size : Nat) (tag : TagMapping) : Prop :=
  tag.byteOffset.toNat + typeSize tag.datatype ≤ size ∧
    (tag.datatype = .bool → tag.bitOffset.toNat < 8)

theorem uintOf_lt (bits : Nat) (f : Double) : uintOf bits f < 2 ^ bits := by
  have hlt := Int.emod_lt_of_pos f.toInt (by positivity : (0 : Int) < 2 ^ bits)
  have hnonneg := Int.emod_nonneg f.toInt (by positivity : (2 : Int) ^ bits ≠ 0)
  zify
  rw [uintOf, toUint, Int.toNat_of_nonneg hnonneg]
  exact hlt

theorem toUint_toSigned {bits n : Nat} (h : n < 2 ^ bits) : toUint bits (toSigned bits n) = n := by
  have hcast : ((2 ^ bits : Nat) : Int) = 2 ^ bits := by push_cast; rfl
  have hn : (n : Int) % 2 ^ bits = n := Int.emod_eq_of_lt (by omega) (by exact_mod_cast h)
  rw [toUint, toSigned, ← hcast, Int.bmod_emod, hcast, hn]
  rfl

/-- How the two sides treat an integer type: its width, and what its bits are read as. -/
structure IntegerCodec (dt : ProfinetType) (w : Nat) (decode : Nat → Value) : Prop where
  mem : w ∈ [1, 2, 4, 8]
  width : typeSize dt = w
  pack : ∀ {buf : Bytes} {offset : UInt16} (bitOffset : UInt8) (val : Value),
    offset.toNat + w ≤ buf.length → packValue buf offset bitOffset dt val =
      .ok (overwrite buf offset.toNat (putUint w (uintOf (8 * w) (toFloat val))))
  packed : ∀ val, packedValue dt val = some (decode (uintOf (8 * w) (toFloat val)))
  unpack : ∀ {tag : ControllerTag} (data : Bytes), ProfinetType.ofString tag.datatype = dt →
    unpackTagValue tag data = (readUint w data tag.byteOffset.toNat).map decode
  injective : ∀ {m n : Nat}, m < 2 ^ (8 * w) → n < 2 ^ (8 * w) → decode m = decode n → m = n

theorem unsigned_injective {m n : Nat} (h : Value.int m = Value.int n) : m = n := by
  simpa using h

theorem signed_injective {bits m n : Nat} (hm : m < 2 ^ bits) (hn : n < 2 ^ bits)
    (h : Value.int (toSigned bits m) = Value.int (toSigned bits n)) : m = n := by
  rw [← toUint_toSigned hm, ← toUint_toSigned hn, Value.int.inj h]

theorem integerCodec_uint8 : IntegerCodec .uint8 1 (fun n : Nat => .int n) where
  mem := by decide
  width := rfl
  pack _ _ h := assign_ok h
  packed _ := rfl
  unpack data h := by rw [unpackTagValue, h]
  injective _ _ := unsigned_injective

theorem integerCodec_int8 : IntegerCodec .int8 1 (fun n => .int (toSigned 8 n)) where
  mem := by decide
  width := rfl
  pack _ val h := by
    rw [packValue, intOf, toUint_toSigned (uintOf_lt 8 _)]
    exact assign_ok h
  packed _ := rfl
  unpack data h := by rw [unpackTagValue, h]
  injective := signed_injective

theorem integerCodec_uint16 : IntegerCodec .uint16 2 (fun n : Nat => .int n) where
  mem := by decide
  width := rfl
  pack _ _ h := putUintFrom_ok _ h
  packed _ := rfl
  unpack data h := by rw [unpackTagValue, h]
  injective _ _ := unsigned_injective

theorem integerCodec_int16 : IntegerCodec .int16 2 (fun n => .int (toSigned 16 n)) where
  mem := by decide
  width := rfl
  pack _ _ h := by
    rw [packValue, intOf, toUint_toSigned (uintOf_lt 16 _)]
    exact putUintFrom_ok _ h
  packed _ := rfl
  unpack data h := by rw [unpackTagValue, h]
  injective := signed_injective

theorem integerCodec_uint32 : IntegerCodec .uint32 4 (fun n : Nat => .int n) where
  mem := by decide
  width := rfl
  pack _ _ h := putUintFrom_ok _ h
  packed _ := rfl
  unpack data h := by rw [unpackTagValue, h]
  injective _ _ := unsigned_injective

theorem integerCodec_int32 : IntegerCodec .int32 4 (fun n => .int (toSigned 32 n)) where
  mem := by decide
  width := rfl
  pack _ _ h := by
    rw [packValue, intOf, toUint_toSigned (uintOf_lt 32 _)]
    exact putUintFrom_ok _ h
  packed _ := rfl
  unpack data h := by rw [unpackTagValue, h]
  injective := signed_injective

theorem integerCodec_uint64 : IntegerCodec .uint64 8 (fun n : Nat => .int n) where
  mem := by decide
  width := rfl
  pack _ _ h := putUintFrom_ok _ h
  packed _ := rfl
  unpack data h := by rw [unpackTagValue, h]
  injective _ _ := unsigned_injective

theorem integerCodec_int64 : IntegerCodec .int64 8 (fun n => .int (toSigned 64 n)) where
  mem := by decide
  width := rfl
  pack _ _ h := by
    rw [packValue, intOf, toUint_toSigned (uintOf_lt 64 _)]
    exact putUintFrom_ok _ h
  packed _ := rfl
  unpack data h := by rw [unpackTagValue, h]
  injective := signed_injective

/-- Every type but the bool is packed into whole bytes. -/
theorem exists_integerCodec {dt : ProfinetType} {val p : Value} (h : packedValue dt val = some p) :
    dt = .bool ∨ ∃ w decode, IntegerCodec dt w decode := by
  cases dt with
  | bool => exact Or.inl rfl
  | uint8 => exact Or.inr ⟨_, _, integerCodec_uint8⟩
  | int8 => exact Or.inr ⟨_, _, integerCodec_int8⟩
  | uint16 => exact Or.inr ⟨_, _, integerCodec_uint16⟩
  | int16 => exact Or.inr ⟨_, _, integerCodec_int16⟩
  | uint32 => exact Or.inr ⟨_, _, integerCodec_uint32⟩
  | int32 => exact Or.inr ⟨_, _, integerCodec_int32⟩
  | uint64 => exact Or.inr ⟨_, _, integerCodec_uint64⟩
  | int64 => exact Or.inr ⟨_, _, integerCodec_int64⟩
  | float32 => cases h
  | float64 => cases h
  | other name => cases h

theorem toNat_bitMask {bitOffset : UInt8} (h : bitOffset.toNat < 8) :
    (bitMask bitOffset).toNat = 2 ^ bitOffset.toNat := by
  have hlt : 2 ^ bitOffset.toNat < 2 ^ 8 := Nat.pow_lt_pow_right (by decide) h
  exact UInt8.toNat_ofNat_of_lt' hlt

/-- A packed boolean sets its bit and leaves the others. -/
theorem testBit_packed_bool {bitOffset : UInt8} (hbit : bitOffset.toNat < 8) {j : Nat} (hj : j < 8)
    (x : UInt8) (b : Bool) :
    (if b then x ||| bitMask bitOffset else x &&& ~~~bitMask bitOffset).toNat.testBit j =
      if bitOffset.toNat = j then b else x.toNat.testBit j := by
  have hlt := (bitMask bitOffset).toNat_lt
  cases b with
  | true =>
    rw [if_pos rfl, UInt8.toNat_or, Nat.testBit_or, toNat_bitMask hbit, Nat.testBit_two_pow]
    by_cases h : bitOffset.toNat = j <;> simp [h]
  | false =>
    have hnot : (~~~bitMask bitOffset).toNat = 2 ^ 8 - ((bitMask bitOffset).toNat + 1) := by
      rw [UInt8.toNat_not]
      simp [UInt8.size]
    rw [if_neg (by decide), UInt8.toNat_and, Nat.testBit_and, hnot,
      Nat.testBit_two_pow_sub_succ hlt, toNat_bitMask hbit, Nat.testBit_two_pow]
    by_cases h : bitOffset.toNat = j <;> simp [h, hj]

theorem packValue_bool {buf : Bytes} {offset : UInt16} (bitOffset : UInt8) (val : Value)
    (h : offset.toNat < buf.length) :
    packValue buf offset bitOffset .bool val = .ok (overwrite buf offset.toNat
      [if toBool val then buf[offset.toNat] ||| bitMask bitOffset
        else buf[offset.toNat] &&& ~~~bitMask bitOffset]) := by
  rw [packValue, index_ok h, ok_bind, assign_ok h]

/-- A value is written over the bytes of its tag, and over no other. -/
theorem packValue_ok {buf : Bytes} {offset : UInt16} (bitOffset : UInt8) (dt : ProfinetType)
    (val : Value) (h : offset.toNat + typeSize dt ≤ buf.length) :
    ∃ bytes, bytes.length = typeSize dt ∧
      packValue buf offset bitOffset dt val = .ok (overwrite buf offset.toNat bytes) := by
  cases dt with
  | bool => exact ⟨_, rfl, packValue_bool bitOffset val h⟩
  | uint8 => exact ⟨_, length_putUint 1 _, integerCodec_uint8.pack bitOffset val h⟩
  | int8 => exact ⟨_, length_putUint 1 _, integerCodec_int8.pack bitOffset val h⟩
  | uint16 => exact ⟨_, length_putUint 2 _, integerCodec_uint16.pack bitOffset val h⟩
  | int16 => exact ⟨_, length_putUint 2 _, integerCodec_int16.pack bitOffset val h⟩
  | uint32 => exact ⟨_, length_putUint 4 _, integerCodec_uint32.pack bitOffset val h⟩
  | int32 => exact ⟨_, length_putUint 4 _, integerCodec_int32.pack bitOffset val h⟩
  | uint64 => exact ⟨_, length_putUint 8 _, integerCodec_uint64.pack bitOffset val h⟩
  | int64 => exact ⟨_, length_putUint 8 _, integerCodec_int64.pack bitOffset val h⟩
  | float32 => exact ⟨_, length_putUint 4 _, putUintFrom_ok _ h⟩
  | float64 => exact ⟨_, length_putUint 8 _, putUintFrom_ok _ h⟩
  | other name => exact ⟨[], rfl, by simp [packValue, overwrite]⟩

/-! ## Reading a tag back -/

theorem readUint_of_le {w offset : Nat} {data : Bytes} (h : offset + w ≤ data.length) :
    readUint w data offset = some (uint ((data.drop offset).take w)) :=
  if_neg (by omega)

theorem ofString_name {dt : ProfinetType} {val p : Value} (h : packedValue dt val = some p) :
    ProfinetType.ofString dt.name = dt := by
  cases dt with
  | other name => cases h
  | _ => rfl

/-- The controller takes a tag from the bytes of its type at its offset. -/
theorem exists_decode {tag : TagMapping} {val p : Value}
    (h : packedValue tag.datatype val = some p) :
    ∃ decode : Nat → Value, ∀ data, unpackTagValue tag.controllerTag data =
      (readUint (typeSize tag.datatype) data tag.byteOffset.toNat).map decode := by
  have hname : ProfinetType.ofString tag.controllerTag.datatype = tag.datatype := ofString_name h
  obtain hbool | ⟨w, decode, hcodec⟩ := exists_integerCodec h
  · refine ⟨fun n => .bool (n.testBit tag.bitOffset.toNat), fun data => ?_⟩
    rw [hbool] at hname
    rw [unpackTagValue, hname, hbool]
    rfl
  · refine ⟨decode, fun data => ?_⟩
    rw [hcodec.unpack data hname, hcodec.width]
    rfl

/-- A tag is read alike from data that agree on its bytes. -/
theorem unpackTagValue_congr {tag : TagMapping} {val p : Value}
    (h : packedValue tag.datatype val = some p) {data data' : Bytes}
    (hdata : tag.byteOffset.toNat + typeSize tag.datatype ≤ data.length)
    (hdata' : tag.byteOffset.toNat + typeSize tag.datatype ≤ data'.length)
    (hwindow : (data.drop tag.byteOffset.toNat).take (typeSize tag.datatype) =
      (data'.drop tag.byteOffset.toNat).take (typeSize tag.datatype)) :
    unpackTagValue tag.controllerTag data = unpackTagValue tag.controllerTag data' := by
  obtain ⟨decode, hdecode⟩ := exists_decode h
  rw [hdecode, hdecode, readUint_of_le hdata, readUint_of_le hdata', hwindow]

/-- A bool is the bit of its byte. -/
theorem unpackTagValue_bool {tag : TagMapping} (hbool : tag.datatype = .bool) {data : Bytes}
    {x : UInt8} (h : (data.drop tag.byteOffset.toNat).take 1 = [x]) :
    unpackTagValue tag.controllerTag data =
      some (.bool (x.toNat.testBit tag.bitOffset.toNat)) := by
  have hname : ProfinetType.ofString tag.controllerTag.datatype = .bool := by
    rw [TagMapping.controllerTag, hbool]
    rfl
  have hlength := congrArg List.length h
  rw [List.length_take, List.length_drop, List.length_singleton] at hlength
  rw [unpackTagValue, hname]
  dsimp only [TagMapping.controllerTag]
  rw [readUint_of_le (by omega), h, ← List.nil_append [x], uint_snoc, uint_nil, Nat.mul_zero,
    Nat.zero_add]
  rfl

section

variable {tag other : TagMapping} {buf : Bytes} {val p : Value}

/-- A packed value is read back. -/
theorem unpackTagValue_packValue (hwithin : Within buf.length tag)
    (hp : packedValue tag.datatype val = some p) :
    (packValue buf tag.byteOffset tag.bitOffset tag.datatype val).Ensures fun buf' =>
      buf'.length = buf.length ∧ unpackTagValue tag.controllerTag buf' = some p := by
  obtain ⟨hsize, hbit⟩ := hwithin
  obtain hbool | ⟨w, decode, hcodec⟩ := exists_integerCodec hp
  · rw [hbool] at hsize hp ⊢
    rw [packValue_bool tag.bitOffset val hsize, ensures_ok]
    refine ⟨length_overwrite hsize, ?_⟩
    rw [unpackTagValue_bool hbool (window_overwrite_singleton hsize),
      testBit_packed_bool (hbit hbool) (hbit hbool), if_pos rfl]
    exact hp
  · have hraw := uintOf_lt (8 * w) (toFloat val)
    have hlength := length_putUint w (uintOf (8 * w) (toFloat val))
    rw [hcodec.width] at hsize
    have hlen : tag.byteOffset.toNat + (putUint w (uintOf (8 * w) (toFloat val))).length ≤
        buf.length := by rwa [hlength]
    have hwindow := window_overwrite hlen
    rw [hlength] at hwindow
    have hwritten := length_overwrite hlen
    rw [hcodec.pack tag.bitOffset val hsize, ensures_ok]
    refine ⟨hwritten, ?_⟩
    rw [hcodec.unpack _ (ofString_name hp)]
    dsimp only [TagMapping.controllerTag]
    rw [readUint_of_le (by rwa [hwritten]), hwindow, uint_putUint_of_lt, Option.map_some,
      ← hcodec.packed, hp]
    rwa [Nat.pow_mul] at hraw

/-- A tag reads as before after another one has been packed beside it. -/
theorem unpackTagValue_packValue_of_apart (hwithin : Within buf.length tag)
    (hother : Within buf.length other) (hapart : Apart tag other)
    (hp : packedValue tag.datatype val = some p) (value : Value) :
    (packValue buf other.byteOffset other.bitOffset other.datatype value).Ensures fun buf' =>
      buf'.length = buf.length ∧
        unpackTagValue tag.controllerTag buf' = unpackTagValue tag.controllerTag buf := by
  obtain ⟨hsize, hbit⟩ := hwithin
  obtain ⟨hsize', hbit'⟩ := hother
  obtain ⟨bytes, hbytes, hpack⟩ := packValue_ok other.bitOffset other.datatype value hsize'
  have hlen : other.byteOffset.toNat + bytes.length ≤ buf.length := by rwa [hbytes]
  have hwritten := length_overwrite hlen
  rw [hpack, ensures_ok]
  refine ⟨hwritten, ?_⟩
  by_cases hbeside : tag.byteOffset.toNat + typeSize tag.datatype ≤ other.byteOffset.toNat ∨
      other.byteOffset.toNat + bytes.length ≤ tag.byteOffset.toNat
  · exact unpackTagValue_congr hp (by rwa [hwritten]) hsize
      (window_overwrite_of_disjoint hlen hbeside)
  -- Only two bits of one byte are left.
  · rw [hbytes] at hbeside
    obtain h | h | ⟨hbool, hbool', hne⟩ := hapart
    · exact absurd (Or.inl h) hbeside
    · exact absurd (Or.inr h) hbeside
    · rw [hbool, hbool'] at hbeside
      rw [hbool] at hsize
      rw [hbool'] at hpack
      have hoffset : other.byteOffset = tag.byteOffset := by
        apply UInt16.toNat_inj.mp
        simp only [typeSize] at hbeside
        omega
      have hread : (buf.drop tag.byteOffset.toNat).take 1 = [buf[tag.byteOffset.toNat]] := by
        rw [List.drop_eq_getElem_cons hsize]
        rfl
      rw [hoffset, packValue_bool other.bitOffset value hsize] at hpack
      rw [hoffset, ← Outcome.ok.inj hpack,
        unpackTagValue_bool hbool (window_overwrite_singleton hsize),
        unpackTagValue_bool hbool hread,
        testBit_packed_bool (hbit' hbool') (hbit hbool), if_neg]
      exact fun h => hne (UInt8.toNat_inj.mp h).symm

end

/-! ## The buffer of a subslot -/

/-- The input tags of a subslot lie within it, and no two of them overlap. -/
structure WellPlaced (sub : SubslotConfig) : Prop where
  within : ∀ tag ∈ sub.tags, tag.source ≠ "" → Within sub.inputSize.toNat tag
  apart : sub.tags.Pairwise fun t u => t.source ≠ "" → u.source ≠ "" → Apart t u

section

variable {sub : SubslotConfig} (h : WellPlaced sub) (tagValues : GoMap String Value)
include h

/-- A tag changes only its own bytes, and only when it has a value. -/
theorem ensures_packTag {tag : TagMapping} (htag : tag ∈ sub.tags) {buf : Bytes}
    (hbuf : buf.length = sub.inputSize.toNat) :
    (packTag tagValues buf tag).Ensures fun buf' => buf'.length = buf.length ∧
      ∀ i, (tag.source ≠ "" → tagValues.lookup tag.tagID ≠ none → i < tag.byteOffset.toNat ∨
        tag.byteOffset.toNat + typeSize tag.datatype ≤ i) → buf'[i]? = buf[i]? := by
  rw [packTag]
  split
  · exact ⟨rfl, fun _ _ => rfl⟩
  next hsource =>
    have hsize := (h.within tag htag hsource).1
    rw [← hbuf] at hsize
    split
    · exact ⟨rfl, fun _ _ => rfl⟩
    next val hval =>
      obtain ⟨bytes, hbytes, hpack⟩ := packValue_ok tag.bitOffset tag.datatype val hsize
      rw [hpack, ensures_ok]
      rw [← hbytes] at hsize ⊢
      refine ⟨length_overwrite hsize, fun i hi => ?_⟩
      exact getElem?_overwrite_of_not_mem hsize (hi hsource (by rw [hval]; simp))

theorem length_packInputBuffer :
    (packInputBuffer sub tagValues).Ensures fun buf => buf.length = sub.inputSize.toNat := by
  rw [packInputBuffer, makeSlice_ok, ok_bind]
  refine ensures_foldlM (fun tag htag buf hbuf => ?_) (List.length_replicate ..)
  exact (ensures_packTag h tagValues htag hbuf).imp fun buf' hbuf' => hbuf'.1.trans hbuf

/-- The bytes of no tag with a value are zero. -/
theorem getElem?_packInputBuffer {i : Nat}
    (hi : ∀ tag ∈ sub.tags, tag.source ≠ "" → tagValues.lookup tag.tagID ≠ none →
      i < tag.byteOffset.toNat ∨ tag.byteOffset.toNat + typeSize tag.datatype ≤ i) :
    (packInputBuffer sub tagValues).Ensures fun buf => buf.length = sub.inputSize.toNat ∧
      buf[i]? = (List.replicate sub.inputSize.toNat 0)[i]? := by
  rw [packInputBuffer, makeSlice_ok, ok_bind]
  refine ensures_foldlM (fun tag htag buf hbuf => ?_) ⟨List.length_replicate .., rfl⟩
  refine (ensures_packTag h tagValues htag hbuf.1).imp fun buf' hbuf' => ?_
  exact ⟨hbuf'.1.trans hbuf.1, (hbuf'.2 i (hi tag htag)).trans hbuf.2⟩

/-- Every input tag can be read back from the buffer of its subslot. -/
theorem unpackTagValue_packInputBuffer {tag : TagMapping} (htag : tag ∈ sub.tags)
    (hsource : tag.source ≠ "") {val p : Value} (hval : tagValues.lookup tag.tagID = some val)
    (hp : packedValue tag.datatype val = some p) :
    (packInputBuffer sub tagValues).Ensures fun buf => buf.length = sub.inputSize.toNat ∧
      unpackTagValue tag.controllerTag buf = some p := by
  obtain ⟨before, after, htags⟩ := List.append_of_mem htag
  have hapart := h.apart
  rw [htags, List.pairwise_append, List.pairwise_cons] at hapart
  have hwithin := h.within tag htag hsource
  rw [packInputBuffer, makeSlice_ok, ok_bind, htags, List.foldlM_append]
  have hbefore : (before.foldlM (packTag tagValues)
      (List.replicate sub.inputSize.toNat 0)).Ensures fun buf =>
      buf.length = sub.inputSize.toNat := by
    refine ensures_foldlM (fun other hother buf hbuf => ?_) (List.length_replicate ..)
    exact (ensures_packTag h tagValues (by simp [htags, hother]) hbuf).imp
      fun buf' hbuf' => hbuf'.1.trans hbuf
  refine hbefore.bind fun buf hbuf => ?_
  rw [← hbuf] at hwithin
  rw [List.foldlM_cons, packTag, if_neg hsource, hval]
  refine (unpackTagValue_packValue hwithin hp).bind fun buf' hbuf' => ?_
  -- The tags after this one leave it alone.
  refine ensures_foldlM (fun other hother buf₁ hbuf₁ => ?_) ⟨hbuf'.1.trans hbuf, hbuf'.2⟩
  rw [packTag]
  split
  · exact hbuf₁
  next hsource' =>
    split
    · exact hbuf₁
    next value hvalue =>
      have hwithin' := h.within other (by simp [htags, hother]) hsource'
      rw [← hbuf₁.1] at hwithin'
      rw [hbuf, ← hbuf₁.1] at hwithin
      refine (unpackTagValue_packValue_of_apart hwithin hwithin'
        (hapart.2.1.1 other hother hsource hsource') hp value).imp fun buf₂ hbuf₂ => ?_
      exact ⟨hbuf₂.1.trans hbuf₁.1, hbuf₂.2.trans hbuf₁.2⟩

end

/-! ## The first byte of a tag -/

theorem readUint_first {w offset n : Nat} {data : Bytes} (hw : 0 < w)
    (h : readUint w data offset = some n) :
    ∃ x, data[offset]? = some x ∧ x.toNat = n / 256 ^ (w - 1) := by
  rw [readUint, Option.ite_none_left_eq_some] at h
  obtain ⟨hlength, h⟩ := h
  obtain ⟨k, rfl⟩ : ∃ k, w = k + 1 := ⟨w - 1, by omega⟩
  have hlt : offset < data.length := by omega
  have hrest : ((data.drop (offset + 1)).take k).length = k := length_window (by omega)
  refine ⟨data[offset], List.getElem?_eq_getElem hlt, ?_⟩
  rw [← Option.some.inj h, List.drop_eq_getElem_cons hlt, List.take_succ_cons,
    ← List.singleton_append, uint_append, hrest, Nat.add_sub_cancel]
  have hsingle : uint [data[offset]] = data[offset].toNat := by
    rw [← List.nil_append [data[offset]], uint_snoc, uint_nil, Nat.mul_zero, Nat.zero_add]
  have htail := uint_lt ((data.drop (offset + 1)).take k)
  rw [hrest] at htail
  rw [hsingle, Nat.mul_add_div (by positivity), Nat.div_eq_of_lt htail, Nat.add_zero]

/-- The power of 256 that stands in the first of `w` bytes. -/
theorem uintOf_high {w : Nat} (h : w ∈ [1, 2, 4, 8]) :
    uintOf (8 * w) (toFloat (.int (256 ^ (w - 1)))) = 256 ^ (w - 1) := by
  simp only [List.mem_cons, List.not_mem_nil, or_false] at h
  obtain rfl | rfl | rfl | rfl := h
  all_goals decide +kernel

theorem uintOf_zero {w : Nat} (h : w ∈ [1, 2, 4, 8]) : uintOf (8 * w) (toFloat (.int 0)) = 0 := by
  simp only [List.mem_cons, List.not_mem_nil, or_false] at h
  obtain rfl | rfl | rfl | rfl := h
  all_goals decide +kernel

/-- A codec reads back the number it packed only from a window with this number. -/
theorem IntegerCodec.readUint_eq {dt : ProfinetType} {w : Nat} {decode : Nat → Value}
    (hcodec : IntegerCodec dt w decode) {tag : ControllerTag} {data : Bytes}
    (hname : ProfinetType.ofString tag.datatype = dt) {n : Nat} (hn : n < 2 ^ (8 * w))
    (h : unpackTagValue tag data = some (decode n)) :
    readUint w data tag.byteOffset.toNat = some n := by
  rw [hcodec.unpack data hname] at h
  obtain ⟨m, hm, hdecode⟩ := Option.map_eq_some_iff.mp h
  have hlt : m < 2 ^ (8 * w) := by
    have hread := hm
    rw [readUint, Option.ite_none_left_eq_some] at hread
    obtain ⟨hlength, hread⟩ := hread
    have hbound := uint_lt ((data.drop tag.byteOffset.toNat).take w)
    rw [length_window (by omega), Option.some.inj hread] at hbound
    rwa [Nat.pow_mul]
  rw [hm, hcodec.injective hlt hn hdecode]

/-- Every tag has two values that the first of its bytes tells apart. -/
theorem exists_values {tag : TagMapping} (h : tag.datatype.isIntegerOrBool) :
    ∃ val₀ val₁ p₀ p₁, packedValue tag.datatype val₀ = some p₀ ∧
      packedValue tag.datatype val₁ = some p₁ ∧ ∀ data₀ data₁ : Bytes,
        unpackTagValue tag.controllerTag data₀ = some p₀ →
        unpackTagValue tag.controllerTag data₁ = some p₁ →
        data₀[tag.byteOffset.toNat]? ≠ data₁[tag.byteOffset.toNat]? := by
  obtain ⟨p, hp⟩ := exists_packedValue h .other
  have hname := ofString_name hp
  obtain hbool | ⟨w, decode, hcodec⟩ := exists_integerCodec hp
  · rw [hbool] at hname
    refine ⟨.bool false, .bool true, _, _, by rw [hbool]; rfl, by rw [hbool]; rfl, ?_⟩
    intro data₀ data₁ h₀ h₁ hbyte
    rw [unpackTagValue, TagMapping.controllerTag, hbool, hname] at h₀ h₁
    obtain ⟨n₀, hn₀, hbit₀⟩ := Option.map_eq_some_iff.mp h₀
    obtain ⟨n₁, hn₁, hbit₁⟩ := Option.map_eq_some_iff.mp h₁
    obtain ⟨x₀, hx₀, hfirst₀⟩ := readUint_first Nat.one_pos hn₀
    obtain ⟨x₁, hx₁, hfirst₁⟩ := readUint_first Nat.one_pos hn₁
    have hx : x₀ = x₁ := Option.some.inj (hx₀.symm.trans (hbyte.trans hx₁))
    have hn : n₀ = n₁ := by
      rw [Nat.sub_self, Nat.pow_zero, Nat.div_one] at hfirst₀ hfirst₁
      rw [← hfirst₀, ← hfirst₁, hx]
    rw [hn, hbit₁] at hbit₀
    cases hbit₀
  · have hpos : 0 < w := by
      have hmem := hcodec.mem
      simp only [List.mem_cons, List.not_mem_nil, or_false] at hmem
      omega
    have hhigh : 256 ^ (w - 1) < 2 ^ (8 * w) := by
      rw [Nat.pow_mul]
      exact Nat.pow_lt_pow_right (by decide) (by omega)
    refine ⟨.int 0, .int (256 ^ (w - 1)), _, _, hcodec.packed _, hcodec.packed _, ?_⟩
    rw [uintOf_zero hcodec.mem, uintOf_high hcodec.mem]
    intro data₀ data₁ h₀ h₁ hbyte
    obtain ⟨x₀, hx₀, hfirst₀⟩ :=
      readUint_first hpos (hcodec.readUint_eq hname (by positivity) h₀)
    obtain ⟨x₁, hx₁, hfirst₁⟩ := readUint_first hpos (hcodec.readUint_eq hname hhigh h₁)
    have hx : x₀ = x₁ := Option.some.inj (hx₀.symm.trans (hbyte.trans hx₁))
    rw [Nat.zero_div] at hfirst₀
    rw [← hx, hfirst₀, Nat.div_self (by positivity)] at hfirst₁
    exact absurd hfirst₁ (by decide)

end ProfinetIoData
