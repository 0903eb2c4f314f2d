import Tentacle.EthernetIpTags
import Tentacle.GoSlices

/-!
# The answers to a browse

A controller lists its tags in one buffer and describes each template in another. Lengths, counts
and offsets in them come from the device. A read outside the buffer, for which the PLC library
promises nothing, counts as a panic here; the parsers make none, whatever the bytes are. Strings are
byte strings, as they are in Go.
-/

namespace EthernetIpBrowse

open BigEndian GoSlices Outcome
open EthernetIpTags (UintAccess littleEndian putLittleEndian length_putLittleEndian
  littleEndian_putLittleEndian)
open GoValues (Bytes)

/-! ## Reads -/

section Reads

variable [UintAccess] {ε : Type} (tag : Bytes)

/-- The number of `w` bytes at an offset. -/
def getUint (w offset : Nat) : Outcome ε Nat :=
  if offset + w ≤ tag.length then .ok (UintAccess.getUint w (tag.drop offset))
  else .panic (.slice offset (offset + w) tag.length)

def getUint8 (offset : Nat) : Outcome ε UInt8 := do
  let n ← getUint tag 1 offset
  return UInt8.ofNat n

def getUint16 (offset : Nat) : Outcome ε UInt16 := do
  let n ← getUint tag 2 offset
  return UInt16.ofNat n

def getUint32 (offset : Nat) : Outcome ε UInt32 := do
  let n ← getUint tag 4 offset
  return UInt32.ofNat n

/-- One byte after the other. -/
def getRawBytes (offset length : Nat) : Outcome ε Bytes :=
  (List.range' offset length).mapM (getUint8 tag)

end Reads

section Reading

variable [UintAccess] {ε : Type} {tag : Bytes} {offset : Nat}

theorem getUint_ok {w : Nat} (h : offset + w ≤ tag.length) :
    (getUint tag w offset : Outcome ε _) =
      .ok (littleEndian ((tag.drop offset).take w)) := by
  rw [getUint, if_pos h, UintAccess.getUint_eq w _ (by rw [List.length_drop]; omega)]

theorem getUint16_ok (h : offset + 2 ≤ tag.length) :
    (getUint16 tag offset : Outcome ε _) =
      .ok (UInt16.ofNat (littleEndian ((tag.drop offset).take 2))) := by
  rw [getUint16, getUint_ok h]
  rfl

theorem getUint32_ok (h : offset + 4 ≤ tag.length) :
    (getUint32 tag offset : Outcome ε _) =
      .ok (UInt32.ofNat (littleEndian ((tag.drop offset).take 4))) := by
  rw [getUint32, getUint_ok h]
  rfl

/-- The byte at an offset. -/
theorem getUint8_ok (h : offset < tag.length) :
    (getUint8 tag offset : Outcome ε _) = .ok tag[offset] := by
  have hbyte : littleEndian [tag[offset]] = tag[offset].toNat := by
    simp [littleEndian, uint]
  rw [getUint8, getUint_ok h, ok_bind, List.drop_eq_getElem_cons h, List.take_succ_cons,
    List.take_zero, hbyte, UInt8.ofNat_toNat]
  rfl

/-- Inside the buffer these are the bytes that stand there. -/
theorem getRawBytes_ok {length : Nat} (h : offset + length ≤ tag.length) :
    (getRawBytes tag offset length : Outcome ε _) = .ok ((tag.drop offset).take length) := by
  have hbytes : ∀ i ∈ List.range' offset length,
      (getUint8 tag i : Outcome ε _) = .ok (tag.getD i 0) := by
    intro i hi
    have hlt : i < tag.length := by
      rw [List.mem_range'_1] at hi
      omega
    rw [getUint8_ok hlt]
    simp [hlt]
  rw [getRawBytes, mapM_ok hbytes]
  congr 1
  apply List.ext_getElem
  · rw [List.length_map, List.length_range', length_window h]
  · intro i hi _
    rw [List.length_map, List.length_range'] at hi
    have hlt : offset + i < tag.length := by omega
    simp [hlt]

/-- A number is read where it stands. -/
theorem getUint_at {w : Nat} {rest : Bytes} {n : Nat} (hn : n < 256 ^ w)
    (h : At tag offset (putLittleEndian w n ++ rest)) :
    (getUint tag w offset : Outcome ε _) = .ok n := by
  have hlength := h.length
  rw [List.length_append, length_putLittleEndian] at hlength
  rw [getUint_ok (by omega), h.drop, List.take_left' (length_putLittleEndian w n),
    littleEndian_putLittleEndian, Nat.mod_eq_of_lt hn]

theorem getUint16_at {rest : Bytes} {v : UInt16}
    (h : At tag offset (putLittleEndian 2 v.toNat ++ rest)) :
    (getUint16 tag offset : Outcome ε _) = .ok v := by
  rw [getUint16, getUint_at v.toNat_lt h, ok_bind, UInt16.ofNat_toNat]
  rfl

theorem getUint32_at {rest : Bytes} {v : UInt32}
    (h : At tag offset (putLittleEndian 4 v.toNat ++ rest)) :
    (getUint32 tag offset : Outcome ε _) = .ok v := by
  rw [getUint32, getUint_at v.toNat_lt h, ok_bind, UInt32.ofNat_toNat]
  rfl

theorem getRawBytes_at {xs rest : Bytes} (h : At tag offset (xs ++ rest)) :
    (getRawBytes tag offset xs.length : Outcome ε _) = .ok xs := by
  have hlength := h.length
  rw [List.length_append] at hlength
  rw [getRawBytes_ok (by omega), h.drop, List.take_left]

end Reading

/-- A text of the source as bytes; all of them are ASCII. -/
def ascii (text : String) : Bytes := text.toList.map fun c => UInt8.ofNat c.toNat

/-! ## The list of tags -/

structure TagEntry where
  name : Bytes
  symbolType : UInt16
  elemSize : UInt16
  arrayDims : UInt32 × UInt32 × UInt32
  deriving DecidableEq, Repr

structure TagListResult where
  tags : List TagEntry := []
  programs : List Bytes := []
  deriving DecidableEq, Repr

/-- A symbol of a type with the system bit is a program, by its name, or left out. -/
def TagListResult.add (r : TagListResult) (entry : TagEntry) : TagListResult :=
  if entry.symbolType &&& 0x1000 != 0 then
    if (ascii "Program:").isPrefixOf entry.name then
      { r with programs := r.programs ++ [entry.name.drop (ascii "Program:").length] }
    else r
  else { r with tags := r.tags ++ [entry] }

/-- The loop of `parseTagList`. -/
def tagLoop [UintAccess] (tag : Bytes) (offset : Nat) (r : TagListResult) :
    Outcome String TagListResult :=
  if offset < tag.length then
    if offset + 22 > tag.length then .ok r
    else do
      let symbolType ← getUint16 tag (offset + 4)
      let elemSize ← getUint16 tag (offset + 6)
      let dim0 ← getUint32 tag (offset + 8)
      let dim1 ← getUint32 tag (offset + 12)
      let dim2 ← getUint32 tag (offset + 16)
      let strLen ← getUint16 tag (offset + 20)
      if offset + 22 + strLen.toNat > tag.length then .ok r
      else do
        let name ← getRawBytes tag (offset + 22) strLen.toNat
        tagLoop tag (offset + 22 + strLen.toNat)
          (r.add ⟨name, symbolType, elemSize, (dim0, dim1, dim2)⟩)
  else .ok r
  termination_by tag.length - offset

def parseTagList [UintAccess] (tag : Bytes) : Outcome String TagListResult := tagLoop tag 0 {}

/-! ## A template -/

structure UdtFieldDesc where
  metadata : UInt16
  typeCode : UInt16
  offset : UInt32
  deriving DecidableEq, Repr

def UdtFieldDesc.isStruct (f : UdtFieldDesc) : Bool := f.typeCode &&& 0x8000 != 0

def UdtFieldDesc.isArray (f : UdtFieldDesc) : Bool := f.typeCode &&& 0x2000 != 0

structure UdtField where
  name : Bytes
  desc : UdtFieldDesc
  datatype : String
  udtName : String
  isArray : Bool
  isHidden : Bool
  deriving DecidableEq, Repr

structure UdtTemplate where
  id : UInt16
  name : Bytes
  instanceSize : UInt32
  memberCount : UInt16
  fields : List UdtField
  deriving DecidableEq, Repr

/-- The names of `cipTypes`. -/
def cipTypeName (typeCode : UInt16) : Option String :=
  if typeCode = 0xC1 then some "BOOL"
  else if typeCode = 0xC2 then some "SINT"
  else if typeCode = 0xC3 then some "INT"
  else if typeCode = 0xC4 then some "DINT"
  else if typeCode = 0xC5 then some "LINT"
  else if typeCode = 0xC6 then some "USINT"
  else if typeCode = 0xC7 then some "UINT"
  else if typeCode = 0xC8 then some "UDINT"
  else if typeCode = 0xC9 then some "ULINT"
  else if typeCode = 0xCA then some "REAL"
  else if typeCode = 0xCB then some "LREAL"
  else if typeCode = 0xCC then some "STIME"
  else if typeCode = 0xCD then some "DATE"
  else if typeCode = 0xCE then some "TIME_OF_DAY"
  else if typeCode = 0xCF then some "DATE_AND_TIME"
  else if typeCode = 0xD0 then some "STRING"
  else if typeCode = 0xD1 then some "BYTE"
  else if typeCode = 0xD2 then some "WORD"
  else if typeCode = 0xD3 then some "DWORD"
  else if typeCode = 0xD4 then some "LWORD"
  else if typeCode = 0xA0 then some "BIT_STRING"
  else none

/-- The loop over the member descriptors, from the `i`th on; `remaining` of them are announced. -/
def descLoop [UintAccess] (tag : Bytes) (descOffset i remaining : Nat) :
    Outcome String (List UdtFieldDesc) :=
  match remaining with
  | 0 => .ok []
  | remaining + 1 =>
    let off := descOffset + i * 8
    if off + 8 > tag.length then .ok []
    else do
      let metadata ← getUint16 tag off
      let typeCode ← getUint16 tag (off + 2)
      let offset ← getUint32 tag (off + 4)
      let rest ← descLoop tag descOffset (i + 1) remaining
      return ⟨metadata, typeCode, offset⟩ :: rest

/-- A byte from 128 on is never part of a rune below. -/
def isPrintable (s : Bytes) : Bool := s.all fun b => 0x20 ≤ b && b ≤ 0x7e

/-- One byte of `readNullTerminatedStrings`; `start` is where the string began. -/
def stringStep [UintAccess] (tag : Bytes) (state : Nat × List Bytes) (i : Nat) :
    Outcome String (Nat × List Bytes) := do
  let b ← getUint8 tag i
  if b = 0 then
    if i > state.1 then do
      let buf ← getRawBytes tag state.1 (i - state.1)
      return (i + 1, state.2 ++ [buf])
    else return (i + 1, state.2)
  else return state

def readNullTerminatedStrings [UintAccess] (tag : Bytes) (offset : Nat) :
    Outcome String (List Bytes) := do
  let (start, strs) ←
    (List.range' offset (tag.length - offset)).foldlM (stringStep tag) (offset, [])
  if start < tag.length then do
    let s ← getRawBytes tag start (tag.length - start)
    if 0 < s.length && isPrintable s then return strs ++ [s] else return strs
  else return strs

/-- What stands before the first byte `c`. -/
def before (c : UInt8) (s : Bytes) : Bytes := s.takeWhile (· != c)

/-- The name of the template and those of its members. -/
def templateNames (templateID : UInt16) (allStrings : List Bytes) : Bytes × List Bytes :=
  let names :=
    match allStrings with
    | [] => ([], [])
    | first :: rest => (before 0x3A (before 0x3B first), rest)
  if names.1 = [] then (ascii ("Template_" ++ toString templateID.toNat), names.2) else names

def makeField (fieldNames : List Bytes) (i : Nat) (desc : UdtFieldDesc) : UdtField :=
  let name := (fieldNames[i]?).getD (ascii ("_member" ++ toString i))
  { name := name
    desc := desc
    datatype :=
      if desc.isStruct then "STRUCT" else (cipTypeName (desc.typeCode &&& 0x00FF)).getD "UNKNOWN"
    udtName := ""
    isArray := desc.isArray
    isHidden := (ascii "ZZZZZ").isPrefixOf name || (ascii "__").isPrefixOf name }

def parseUdtTemplate [UintAccess] (tag : Bytes) (templateID : UInt16) :
    Outcome String UdtTemplate :=
  if tag.length < 14 then
    .err ("@udt/" ++ toString templateID.toNat ++ " response too small: " ++ toString tag.length ++
      " bytes")
  else do
    let memberDescWords ← getUint32 tag 2
    let instanceSize ← getUint32 tag 6
    let memberCount ← getUint16 tag 10
    let descs ← descLoop tag 14 0 memberCount.toNat
    let stringOffset := 14 + memberDescWords.toNat * 4
    let stringOffset :=
      if stringOffset ≥ tag.length then 14 + memberCount.toNat * 8 else stringOffset
    let allStrings ← readNullTerminatedStrings tag stringOffset
    let (udtName, fieldNames) := templateNames templateID allStrings
    return ⟨templateID, udtName, instanceSize, memberCount, descs.mapIdx (makeField fieldNames)⟩

/-! ## No read is out of range -/

section Safe

variable [UintAccess] {ε : Type} {tag : Bytes} {offset : Nat}

theorem safe_getUint16 (h : offset + 2 ≤ tag.length) :
    (getUint16 tag offset : Outcome ε _).Ensures fun _ => True := by
  rw [getUint16_ok h]
  trivial

theorem safe_getUint32 (h : offset + 4 ≤ tag.length) :
    (getUint32 tag offset : Outcome ε _).Ensures fun _ => True := by
  rw [getUint32_ok h]
  trivial

theorem safe_getRawBytes {length : Nat} (h : offset + length ≤ tag.length) :
    (getRawBytes tag offset length : Outcome ε _).Ensures fun _ => True := by
  rw [getRawBytes_ok h]
  trivial

end Safe

/-- The loop ends, and it returns what it has collected. -/
theorem tagLoop_ok [UintAccess] (tag : Bytes) (offset : Nat) (r : TagListResult) :
    ∃ r', tagLoop tag offset r = .ok r' := by
  induction hn : tag.length - offset using Nat.strong_induction_on generalizing offset r with
  | _ n ih =>
    rw [tagLoop]
    by_cases hoffset : offset < tag.length
    · rw [if_pos hoffset]
      by_cases hshort : offset + 22 > tag.length
      · exact ⟨r, by rw [if_pos hshort]⟩
      · rw [if_neg hshort, getUint16_ok (by omega), ok_bind, getUint16_ok (by omega), ok_bind,
          getUint32_ok (by omega), ok_bind, getUint32_ok (by omega), ok_bind,
          getUint32_ok (by omega), ok_bind, getUint16_ok (by omega), ok_bind]
        split
        · exact ⟨r, rfl⟩
        · rename_i hname
          rw [getRawBytes_ok (by omega), ok_bind]
          exact ih _ (by omega) _ _ rfl
    · exact ⟨r, by rw [if_neg hoffset]⟩

/-- The loop over the descriptors reads inside the template only. -/
theorem descLoop_safe [UintAccess] (tag : Bytes) (descOffset i remaining : Nat) :
    (descLoop tag descOffset i remaining).Safe := by
  induction remaining generalizing i with
  | zero => exact safe_ok []
  | succ remaining ih =>
    rw [descLoop]
    split
    · exact safe_ok []
    · apply (safe_getUint16 (by omega)).bind
      intro metadata _
      apply (safe_getUint16 (by omega)).bind
      intro typeCode _
      apply (safe_getUint32 (by omega)).bind
      intro offset _
      apply (ih (i + 1)).bind
      intro rest _
      trivial

/-- A byte inside the template is read without a panic. -/
theorem stringStep_safe [UintAccess] {tag : Bytes} (state : Nat × List Bytes) {i : Nat}
    (h : i < tag.length) : (stringStep tag state i).Safe := by
  rw [stringStep, getUint8_ok h, ok_bind]
  split
  · split
    · apply (safe_getRawBytes (by omega)).bind
      intro buf _
      trivial
    · trivial
  · trivial

/-- Names without an end are cut at the end of the template. -/
theorem readNullTerminatedStrings_safe [UintAccess] (tag : Bytes) (offset : Nat) :
    (readNullTerminatedStrings tag offset).Safe := by
  apply Ensures.bind (P := fun _ => True)
  · refine ensures_foldlM (I := fun _ => True) ?_ trivial
    intro i hi state _
    rw [List.mem_range'_1] at hi
    exact stringStep_safe state (by omega)
  · rintro ⟨start, strs⟩ _
    dsimp only
    split
    · apply (safe_getRawBytes (by omega)).bind
      intro s _
      split <;> trivial
    · trivial

/-- No bytes of a template make its parser panic. -/
theorem parseUdtTemplate_safe [UintAccess] (tag : Bytes) (templateID : UInt16) :
    (parseUdtTemplate tag templateID).Safe := by
  rw [parseUdtTemplate]
  split
  · exact safe_err _
  · apply (safe_getUint32 (by omega)).bind
    intro memberDescWords _
    apply (safe_getUint32 (by omega)).bind
    intro instanceSize _
    apply (safe_getUint16 (by omega)).bind
    intro memberCount _
    apply (descLoop_safe tag 14 0 memberCount.toNat).bind
    intro descs _
    apply (readNullTerminatedStrings_safe tag _).bind
    intro allStrings _
    trivial

/-! ## The `@tags` format -/

/-- A symbol of the controller. -/
structure TagRecord where
  instanceId : UInt32
  symbolType : UInt16
  elemSize : UInt16
  arrayDims : UInt32 × UInt32 × UInt32
  name : { name : Bytes // name.length < 65536 }

/-- The bytes of a record: twenty-two of a fixed layout and the name. -/
def TagRecord.encode (r : TagRecord) : Bytes :=
  putLittleEndian 4 r.instanceId.toNat ++ putLittleEndian 2 r.symbolType.toNat ++
    putLittleEndian 2 r.elemSize.toNat ++ putLittleEndian 4 r.arrayDims.1.toNat ++
    putLittleEndian 4 r.arrayDims.2.1.toNat ++ putLittleEndian 4 r.arrayDims.2.2.toNat ++
    putLittleEndian 2 r.name.val.length ++ r.name.val

def TagRecord.isSystem (r : TagRecord) : Bool := r.symbolType &&& 0x1000 != 0

def TagRecord.entry (r : TagRecord) : TagEntry := ⟨r.name, r.symbolType, r.elemSize, r.arrayDims⟩

/-- The program that a record announces. -/
def TagRecord.program? (r : TagRecord) : Option Bytes :=
  if r.isSystem then r.name.val.dropPrefix? (ascii "Program:") else none

theorem length_encode (r : TagRecord) : r.encode.length = 22 + r.name.val.length := by
  simp only [TagRecord.encode, List.length_append, length_putLittleEndian]

/-- The loop takes one record after the other. -/
theorem tagLoop_encode [UintAccess] (records : List TagRecord) {tag : Bytes} {offset : Nat}
    (r : TagListResult) (h : At tag offset (records.flatMap TagRecord.encode)) :
    tagLoop tag offset r = .ok (records.foldl (fun r x => r.add x.entry) r) := by
  induction records generalizing offset r with
  | nil =>
    have hlength := h.length
    simp only [List.flatMap_nil, List.length_nil] at hlength
    rw [tagLoop, if_neg (by omega)]
    rfl
  | cons record records ih =>
    have hlen : (UInt16.ofNat record.name.val.length).toNat = record.name.val.length :=
      UInt16.toNat_ofNat_of_lt' record.name.property
    rw [List.flatMap_cons] at h
    have hlength := h.length
    rw [List.length_append, length_encode] at hlength
    have hnext := ih (r.add record.entry) (h.next (length_encode record))
    rw [TagRecord.encode, ← hlen] at h
    simp only [List.append_assoc] at h
    have h4 := h.next (length_putLittleEndian 4 _)
    have h6 := h4.next (length_putLittleEndian 2 _)
    have h8 := h6.next (length_putLittleEndian 2 _)
    have h12 := h8.next (length_putLittleEndian 4 _)
    have h16 := h12.next (length_putLittleEndian 4 _)
    have h20 := h16.next (length_putLittleEndian 4 _)
    have h22 := h20.next (length_putLittleEndian 2 _)
    simp only [Nat.add_assoc, Nat.reduceAdd] at h6 h8 h12 h16 h20 h22
    rw [tagLoop, if_pos (by omega), if_neg (by omega), getUint16_at h4, ok_bind, getUint16_at h6,
      ok_bind, getUint32_at h8, ok_bind, getUint32_at h12, ok_bind, getUint32_at h16, ok_bind,
      getUint16_at h20, ok_bind, hlen, if_neg (by omega), getRawBytes_at h22, ok_bind]
    rw [Nat.add_assoc]
    exact hnext

/-- `strings.HasPrefix` and `strings.TrimPrefix` together. -/
theorem dropPrefix?_eq (s p : Bytes) :
    s.dropPrefix? p = if p.isPrefixOf s then some (s.drop p.length) else none := by
  induction p generalizing s with
  | nil => simp
  | cons b p ih =>
    cases s with
    | nil => rfl
    | cons a s =>
      rw [List.dropPrefix?, List.isPrefixOf, ih]
      by_cases hab : a = b
      · simp [hab]
      · have hba : b ≠ a := fun h => hab h.symm
        simp [hab, hba]

/-- A record goes to the tags or, if it is one, to the programs. -/
theorem add_entry (r : TagListResult) (record : TagRecord) :
    r.add record.entry =
      ⟨r.tags ++ if record.isSystem then [] else [record.entry],
        r.programs ++ record.program?.toList⟩ := by
  have hname : record.entry.name = record.name.val := rfl
  rw [TagRecord.program?, dropPrefix?_eq]
  by_cases hsystem : record.isSystem = true
  · have hbit : (record.entry.symbolType &&& 0x1000 != 0) = true := hsystem
    rw [TagListResult.add, if_pos hbit, if_pos hsystem, if_pos hsystem, List.append_nil, hname]
    by_cases hprogram : (ascii "Program:").isPrefixOf record.name.val = true
    · rw [if_pos hprogram, if_pos hprogram]
      rfl
    · rw [if_neg hprogram, if_neg hprogram]
      simp
  · have hbit : ¬(record.entry.symbolType &&& 0x1000 != 0) = true := hsystem
    rw [TagListResult.add, if_neg hbit, if_neg hsystem, if_neg hsystem]
    simp

/-- The records fall into tags and programs, each in its order. -/
theorem foldl_add (records : List TagRecord) (r : TagListResult) :
    records.foldl (fun r x => r.add x.entry) r =
      ⟨r.tags ++ (records.filter fun x => !x.isSystem).map TagRecord.entry,
        r.programs ++ records.filterMap TagRecord.program?⟩ := by
  induction records generalizing r with
  | nil => simp
  | cons record records ih =>
    rw [List.foldl_cons, ih, add_entry]
    cases hsystem : record.isSystem <;> cases hprogram : record.program? <;>
      simp [hsystem, hprogram]

/-- The parsers end on every buffer and read only within it, and from an encoded list of tags
come its tags that are not of the system and the names of its programs, in their order. -/
theorem browse_parsers_sound [UintAccess] :
    (∀ tag, ∃ r, parseTagList tag = .ok r) ∧
    (∀ tag templateID, (parseUdtTemplate tag templateID).Safe) ∧
    ∀ records : List TagRecord, parseTagList (records.flatMap TagRecord.encode) =
      .ok { tags := (records.filter fun x => !x.isSystem).map TagRecord.entry
            programs := records.filterMap TagRecord.program? } := by
  refine ⟨fun tag => tagLoop_ok tag 0 {}, parseUdtTemplate_safe, ?_⟩
  intro records
  rw [parseTagList, tagLoop_encode records {} (At.start rfl), foldl_add]
  simp

end EthernetIpBrowse
