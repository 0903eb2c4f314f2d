import Tentacle.ModbusServer

/-!
# Writes of a Modbus client on the bus

A write of a client should reach the owner of every writable tag that it changes. The
server calls `onWrite` at the addresses it signals: the start address of a register
write and every address of a coil write. A tag is found there only if it starts there
and no later tag has the same function code and address.
-/

namespace ModbusServer

open GoValues GoSlices BigEndian ModbusCodec
open ModbusScanner (ModbusTagConfig)

/-! ## Write requests -/

/-- A write that the server accepts: the values from an address on. Of coils the server
signals as many addresses as the request announces, also where its bytes end earlier. -/
inductive WriteRequest where
  | coils (address : Nat) (values : List Bool) (announced : Nat)
  | registers (address : Nat) (words : List UInt16)
  deriving DecidableEq, Repr

namespace WriteRequest

def fc : WriteRequest → String
  | coils .. => "coil"
  | registers .. => "holding"

def address : WriteRequest → Nat
  | coils address _ _ => address
  | registers address _ => address

/-- How many coils or registers are written. -/
def count : WriteRequest → Nat
  | coils _ values _ => values.length
  | registers _ words => words.length

/-- The addresses that the server signals. -/
def signalled : WriteRequest → List Int
  | coils address _ announced => (List.range announced).map fun (i : Nat) => address + (i : Int)
  | registers address _ => [(address : Int)]

def apply (w : WriteRequest) (s : RegisterStore) : RegisterStore :=
  match w with
  | coils address values _ => { s with coils := writeWords s.coils address values }
  | registers address words => { s with holding := writeWords s.holding address words }

end WriteRequest

/-- The `i`-th coil of a request. -/
def coilBit (pdu : Bytes) (i : Nat) : Bool :=
  (((pdu.drop (6 + i / 8)).headD 0) >>> UInt8.ofNat (i % 8)) &&& 1 = 1

/-- The `i`-th register of a request. -/
def registerWord (pdu : Bytes) (i : Nat) : UInt16 :=
  UInt16.ofNat (uint ((pdu.drop (6 + i * 2)).take 2))

/-- The address field, and the count or the value that follows it. -/
def requestAddress (pdu : Bytes) : Nat := (UInt16.ofNat (uint ((pdu.drop 1).take 2))).toNat

def requestSecond (pdu : Bytes) : UInt16 := UInt16.ofNat (uint ((pdu.drop 3).take 2))

/-- The write that a request is, if the server accepts it. -/
def writeRequest (pdu : Bytes) : Option WriteRequest :=
  if pdu.head? = some 0x05 then
    if pdu.length < 5 then none
    else some (.coils (requestAddress pdu) [requestSecond pdu = 0xFF00] 1)
  else if pdu.head? = some 0x06 then
    if pdu.length < 5 then none
    else some (.registers (requestAddress pdu) [requestSecond pdu])
  else if pdu.head? = some 0x0F then
    if pdu.length < 6 ∨ pdu.length < 6 + ((pdu.drop 5).headD 0).toNat then none
    else
      let count := (requestSecond pdu).toNat
      some (.coils (requestAddress pdu)
        ((List.range (min count (8 * (pdu.length - 6)))).map (coilBit pdu)) count)
  else if pdu.head? = some 0x10 then
    let count := (requestSecond pdu).toNat
    if pdu.length < 6 ∨ pdu.length < 6 + count * 2 then none
    else some (.registers (requestAddress pdu) ((List.range count).map (registerWord pdu)))
  else none

/-! ## What the handlers do -/

/-- Two lists are written one behind the other. -/
theorem writeWords_append {W : Type} (store : Int → W) (address : Int) (xs ys : List W) :
    writeWords store address (xs ++ ys) =
      writeWords (writeWords store address xs) (address + xs.length) ys := by
  induction xs generalizing store address with
  | nil => simp [writeWords]
  | cons x xs ih =>
    rw [List.cons_append, writeWords, writeWords, ih, List.length_cons]
    congr 1
    push_cast
    omega

theorem index_headD {pdu : Bytes} {i : Nat} (h : i < pdu.length) :
    (index pdu i : Go UInt8) = .ok ((pdu.drop i).headD 0) := by
  rw [index_ok h, List.drop_eq_getElem_cons h, List.headD_cons]

/-- The loop writes the bits that are there, up to the number that was asked for. -/
theorem writeBits_eq (pdu : Bytes) (addr n i : Nat) (coils : Int → Bool) :
    writeBits pdu addr n i coils = .ok (writeWords coils (addr + i)
      ((List.range' i (min n (8 * (pdu.length - 6) - i))).map (coilBit pdu))) := by
  induction n generalizing i coils with
  | zero => simp [writeBits, writeWords]
  | succ n ih =>
    rw [writeBits]
    split
    next hend =>
      have hzero : 8 * (pdu.length - 6) - i = 0 := by omega
      simp [hzero, writeWords]
    next hlong =>
      have hcount : min (n + 1) (8 * (pdu.length - 6) - i) =
          min n (8 * (pdu.length - 6) - (i + 1)) + 1 := by omega
      rw [index_headD (by omega), Outcome.ok_bind, ih, hcount, List.range'_succ, List.map_cons,
        writeWords, Nat.cast_succ, add_assoc]
      rfl

/-- The loop writes the words of the request. -/
theorem writeRegisters_eq {pdu : Bytes} (addr : Nat) (holding : Int → UInt16) {n : Nat}
    (h : 6 + n * 2 ≤ pdu.length) :
    ((List.range n).foldlM (fun holding i => do
      let word ← uint16 pdu (6 + i * 2) (8 + i * 2)
      return Function.update holding (addr + (i : Int)) word) holding : Go (Int → UInt16)) =
    .ok (writeWords holding addr ((List.range n).map (registerWord pdu))) := by
  induction n with
  | zero => rfl
  | succ n ih =>
    rw [List.range_succ, List.foldlM_append, ih (by omega), Outcome.ok_bind, List.foldlM_cons,
      uint16_ok (by omega) (by omega), List.map_append, writeWords_append]
    simp [writeWords, registerWord]

theorem echo_eq (fc : UInt8) (x y : UInt16) :
    echo fc x y = .ok (fc :: putUint 2 x.toNat ++ putUint 2 y.toNat) := by
  simp [echo, makeSlice, assign, putUint16, slice, putUint]

/-- What a handler returns for a write that it performs. -/
def performed (s : RegisterStore) (w : WriteRequest) (response : Bytes) : Handled where
  response := response
  store := w.apply s
  signals := w.signalled.map fun address => (w.fc, address)

theorem handleWriteSingleCoil_eq (s : RegisterStore) {pdu : Bytes} (h : 5 ≤ pdu.length) :
    ∃ rest, handleWriteSingleCoil s pdu = .ok
      (performed s (.coils (requestAddress pdu) [requestSecond pdu = 0xFF00] 1)
        (0x05 :: rest)) := by
  rw [handleWriteSingleCoil, if_neg (by omega), uint16_ok rfl (by omega), Outcome.ok_bind,
    uint16_ok rfl (by omega), Outcome.ok_bind, echo_eq]
  exact ⟨_, rfl⟩

theorem handleWriteSingleRegister_eq (s : RegisterStore) {pdu : Bytes} (h : 5 ≤ pdu.length) :
    ∃ rest, handleWriteSingleRegister s pdu = .ok
      (performed s (.registers (requestAddress pdu) [requestSecond pdu]) (0x06 :: rest)) := by
  rw [handleWriteSingleRegister, if_neg (by omega), uint16_ok rfl (by omega), Outcome.ok_bind,
    uint16_ok rfl (by omega), Outcome.ok_bind, echo_eq]
  exact ⟨_, rfl⟩

/-- A write of coils that is long enough performs the write of its bits. -/
theorem handleWriteMultipleCoils_eq (s : RegisterStore) {pdu : Bytes} (h : 6 ≤ pdu.length)
    (hbytes : ¬pdu.length < 6 + ((pdu.drop 5).headD 0).toNat) :
    ∃ rest, handleWriteMultipleCoils s pdu = .ok (performed s (.coils (requestAddress pdu)
      ((List.range (min (requestSecond pdu).toNat (8 * (pdu.length - 6)))).map (coilBit pdu))
      (requestSecond pdu).toNat) (0x0F :: rest)) := by
  rw [handleWriteMultipleCoils, if_neg (by omega), uint16_ok rfl (by omega), Outcome.ok_bind,
    uint16_ok rfl (by omega), Outcome.ok_bind, index_headD (by omega), Outcome.ok_bind,
    if_neg hbytes, writeBits_eq, Outcome.ok_bind, echo_eq, Nat.sub_zero, ← List.range_eq_range',
    Nat.cast_zero, add_zero]
  refine ⟨putUint 2 (requestAddress pdu) ++ putUint 2 (requestSecond pdu).toNat, ?_⟩
  rw [performed, WriteRequest.signalled, List.map_map]
  rfl

/-- A write of registers that is long enough performs the write of its words. -/
theorem handleWriteMultipleRegisters_eq (s : RegisterStore) {pdu : Bytes} (h : 6 ≤ pdu.length)
    (hbytes : 6 + (requestSecond pdu).toNat * 2 ≤ pdu.length) :
    ∃ rest, handleWriteMultipleRegisters s pdu = .ok (performed s (.registers (requestAddress pdu)
      ((List.range (requestSecond pdu).toNat).map (registerWord pdu))) (0x10 :: rest)) := by
  rw [handleWriteMultipleRegisters, if_neg (by omega), uint16_ok rfl (by omega), Outcome.ok_bind,
    uint16_ok rfl (by omega), Outcome.ok_bind, ← requestSecond, if_neg (by omega),
    writeRegisters_eq _ _ hbytes, Outcome.ok_bind, echo_eq]
  exact ⟨_, rfl⟩

/-- The function codes of the writes. -/
def writeCodes : List UInt8 := [0x05, 0x06, 0x0F, 0x10]

/-- A request that is a write is answered with its own function code, the store is
written and the addresses are signalled. -/
theorem handlePDU_write (s : RegisterStore) {pdu : Bytes} {w : WriteRequest}
    (hw : writeRequest pdu = some w) :
    ∃ fc ∈ writeCodes, pdu.head? = some fc ∧
      ∃ rest, handlePDU s pdu = .ok (performed s w (fc :: rest)) := by
  unfold writeRequest at hw
  cases pdu with
  | nil => simp at hw
  | cons fc tail =>
    simp only [List.head?_cons, Option.some.injEq] at hw
    split at hw
    next hfc =>
      subst hfc
      split at hw
      · cases hw
      next hlong =>
        cases hw
        obtain ⟨rest, hrest⟩ := handleWriteSingleCoil_eq s (not_lt.mp hlong)
        exact ⟨_, by decide, rfl, rest, hrest⟩
    split at hw
    next hfc =>
      subst hfc
      split at hw
      · cases hw
      next hlong =>
        cases hw
        obtain ⟨rest, hrest⟩ := handleWriteSingleRegister_eq s (not_lt.mp hlong)
        exact ⟨_, by decide, rfl, rest, hrest⟩
    split at hw
    next hfc =>
      subst hfc
      split at hw
      · cases hw
      next hlong =>
        cases hw
        obtain ⟨rest, hrest⟩ := handleWriteMultipleCoils_eq s (by omega) (not_or.mp hlong).2
        exact ⟨_, by decide, rfl, rest, hrest⟩
    split at hw
    next hfc =>
      subst hfc
      split at hw
      · cases hw
      next hlong =>
        cases hw
        have hlength : 6 ≤ (0x10 :: tail : Bytes).length := by omega
        obtain ⟨rest, hrest⟩ := handleWriteMultipleRegisters_eq s hlength (by omega)
        exact ⟨_, by decide, rfl, rest, hrest⟩
    · cases hw

/-- A write that is not accepted is answered with an exception and changes nothing. -/
theorem handlePDU_refused (s : RegisterStore) {fc : UInt8} {tail : Bytes} (hfc : fc ∈ writeCodes)
    (hw : writeRequest (fc :: tail) = none) :
    handlePDU s (fc :: tail) = .ok { response := [fc ||| 0x80, 0x03], store := s } := by
  simp only [writeCodes, List.mem_cons, List.not_mem_nil, or_false] at hfc
  obtain rfl | rfl | rfl | rfl := hfc
  · have hshort : (0x05 :: tail : Bytes).length < 5 := by
      by_contra hlong
      simp only [writeRequest, List.head?_cons, if_neg hlong] at hw
      cases hw
    simp only [handlePDU, handleWriteSingleCoil, if_pos hshort]
    rfl
  · have hshort : (0x06 :: tail : Bytes).length < 5 := by
      by_contra hlong
      simp only [writeRequest, List.head?_cons, if_neg hlong] at hw
      cases hw
    simp only [handlePDU, handleWriteSingleRegister, if_pos hshort]
    rfl
  · by_cases hlong : (0x0F :: tail : Bytes).length < 6
    · simp only [handlePDU, handleWriteMultipleCoils, if_pos hlong]
      rfl
    have hshort : (0x0F :: tail : Bytes).length <
        6 + ((List.drop 5 (0x0F :: tail)).headD 0).toNat := by
      by_contra hbytes
      simp only [writeRequest, List.head?_cons, if_neg (not_or.mpr ⟨hlong, hbytes⟩)] at hw
      cases hw
    change handleWriteMultipleCoils s (0x0F :: tail) = _
    rw [handleWriteMultipleCoils, if_neg hlong, uint16_ok rfl (by omega), Outcome.ok_bind,
      uint16_ok rfl (by omega), Outcome.ok_bind, index_headD (by omega), Outcome.ok_bind,
      if_pos hshort]
    rfl
  · by_cases hlong : (0x10 :: tail : Bytes).length < 6
    · simp only [handlePDU, handleWriteMultipleRegisters, if_pos hlong]
      rfl
    have hshort : (0x10 :: tail : Bytes).length < 6 + (requestSecond (0x10 :: tail)).toNat * 2 := by
      by_contra hbytes
      simp only [writeRequest, List.head?_cons, if_neg (not_or.mpr ⟨hlong, hbytes⟩)] at hw
      cases hw
    change handleWriteMultipleRegisters s (0x10 :: tail) = _
    rw [handleWriteMultipleRegisters, if_neg hlong, uint16_ok rfl (by omega), Outcome.ok_bind,
      uint16_ok rfl (by omega), Outcome.ok_bind, ← requestSecond, if_pos hshort]
    rfl

/-- The request is a write and is answered with its own function code. -/
def Successful (pdu : Bytes) (handled : Handled) : Prop :=
  ∃ fc ∈ writeCodes, pdu.head? = some fc ∧ handled.response.head? = some fc

/-- The requests that are writes are exactly the successful ones. -/
theorem successful_iff {s : RegisterStore} {pdu : Bytes} {handled : Handled}
    (h : handlePDU s pdu = .ok handled) :
    Successful pdu handled ↔ (writeRequest pdu).isSome := by
  constructor
  · rintro ⟨fc, hfc, hhead, hresponse⟩
    obtain ⟨tail, rfl⟩ : ∃ tail, pdu = fc :: tail := ⟨_, (List.eq_cons_of_mem_head? hhead)⟩
    by_contra hnone
    rw [handlePDU_refused s hfc (Option.not_isSome_iff_eq_none.mp hnone)] at h
    cases h
    have hne : ∀ code ∈ writeCodes, code ||| 0x80 ≠ code := by decide +kernel
    exact hne fc hfc (Option.some.inj hresponse)
  · intro hsome
    obtain ⟨w, hw⟩ := Option.isSome_iff_exists.mp hsome
    obtain ⟨fc, hfc, hhead, rest, hperformed⟩ := handlePDU_write s hw
    rw [hperformed] at h
    cases h
    exact ⟨fc, hfc, hhead, rfl⟩

/-! ## The tags of a device -/

/-- The last of the tags with a function code and an address. -/
def keptTag (tags : List ModbusTagConfig) (fc : String) (address : Int) : Option ModbusTagConfig :=
  tags.reverse.find? fun tag => tag.functionCode = fc ∧ tag.address = address

/-- Of several tags at one address the one that is kept is found. -/
theorem lookup_foldl_registerTag (tags : List ModbusTagConfig) (s : RegisterStore) (fc : String)
    (address : Int) :
    (tags.foldl registerTag s).tagsByAddress.lookup (fc, address) =
      (keptTag tags fc address).or (s.tagsByAddress.lookup (fc, address)) := by
  induction tags using List.reverseRecOn with
  | nil => rfl
  | append_singleton tags tag ih =>
    rw [List.foldl_append, List.foldl_cons, List.foldl_nil, registerTag, keptTag,
      List.reverse_append, List.reverse_singleton, List.singleton_append, List.find?_cons]
    by_cases htag : tag.functionCode = fc ∧ tag.address = address
    · obtain ⟨rfl, rfl⟩ := htag
      simp
    · have hkey : (fc, address) ≠ (tag.functionCode, tag.address) := by
        rintro ⟨⟩
        exact htag ⟨rfl, rfl⟩
      simp only [htag, decide_false, AList.lookup_insert_ne hkey, ih, keptTag]

theorem keptTag_spec {tags : List ModbusTagConfig} {fc : String} {address : Int}
    {tag : ModbusTagConfig} (h : keptTag tags fc address = some tag) :
    tag ∈ tags ∧ tag.functionCode = fc ∧ tag.address = address := by
  have hmem := List.mem_of_find?_eq_some h
  have hkey := List.find?_some h
  exact ⟨List.mem_reverse.mp hmem, of_decide_eq_true hkey⟩

theorem lookup_deviceStore (values : RegisterStore) (tags : List ModbusTagConfig) (fc : String)
    (address : Int) :
    (deviceStore values tags).tagsByAddress.lookup (fc, address) = keptTag tags fc address := by
  rw [deviceStore, lookup_foldl_registerTag]
  exact Option.or_none

inductive Space where
  | coils | discretes | holding | input
  deriving DecidableEq, Repr

/-- The space in which the store keeps the value of a tag. -/
def spaceOf (tag : ModbusTagConfig) : Space :=
  if tag.functionCode = "coil" then .coils
  else if tag.functionCode = "discrete" then .discretes
  else if tag.functionCode = "input" then .input
  else .holding

def WriteRequest.space : WriteRequest → Space
  | coils .. => .coils
  | registers .. => .holding

/-- How many coils or registers a tag has. -/
def tagCount (tag : ModbusTagConfig) : Nat :=
  match spaceOf tag with
  | .coils | .discretes => 1
  | .holding | .input => registerCount (.ofString tag.datatype)

/-- The value that the coils or registers of a tag hold. -/
def typedValue (s : RegisterStore) (tag : ModbusTagConfig) : GoValue :=
  let decode (store : Int → UInt16) := decodeFromRegisters
    (readWords store tag.address (tagCount tag)) (.ofString tag.datatype) (byteOrderOf tag)
  match spaceOf tag with
  | .coils => .bool (s.coils tag.address)
  | .discretes => .bool (s.discretes tag.address)
  | .holding => decode s.holding
  | .input => decode s.input

/-- The write changes a coil or register of the tag. -/
def Touches (w : WriteRequest) (tag : ModbusTagConfig) : Prop :=
  spaceOf tag = w.space ∧ tag.address < w.address + w.count ∧ w.address < tag.address + tagCount tag

instance (w : WriteRequest) (tag : ModbusTagConfig) : Decidable (Touches w tag) :=
  inferInstanceAs (Decidable (_ ∧ _ ∧ _))

theorem spaceOf_of_functionCode {w : WriteRequest} {tag : ModbusTagConfig}
    (h : tag.functionCode = w.fc) : spaceOf tag = w.space := by
  cases w with
  | coils => simp [spaceOf, h, WriteRequest.fc, WriteRequest.space]
  | registers => simp [spaceOf, h, WriteRequest.fc, WriteRequest.space]

/-! ## The commands -/

/-- The command is published by a call of `onWrite` that finds the tag. -/
def PublishedFor (ctx : WriteContext) (handled : Handled) (tag : ModbusTagConfig) (c : Command) :
    Prop :=
  ∃ signal ∈ handled.signals, handled.store.tagsByAddress.lookup signal = some tag ∧
    onWrite ctx handled.store signal.1 signal.2 = some c

/-- A write to the address of a tag commands its variable, if the tag is writable. -/
theorem onWrite_eq (ctx : WriteContext) {s : RegisterStore} {w : WriteRequest}
    {tag : ModbusTagConfig} (hfc : tag.functionCode = w.fc)
    (hlookup : s.tagsByAddress.lookup (w.fc, tag.address) = some tag) :
    onWrite ctx s w.fc tag.address =
      if tag.writable then (marshalValue (typedValue s tag)).map (commandOf ctx w.fc tag.id)
      else none := by
  have hspace := spaceOf_of_functionCode hfc
  have hread : readTypedValue s w.fc tag.address = some
      { variableID := tag.id
        value := typedValue s tag
        writable := tag.writable } := by
    rw [readTypedValue, hlookup, Option.map_some]
    cases w with
    | coils => simp [typedValue, hspace, WriteRequest.space, WriteRequest.fc]
    | registers => simp [typedValue, tagCount, hspace, WriteRequest.space, WriteRequest.fc]
  rw [onWrite, hread]
  cases tag.writable <;> rfl

/-- A command for a tag is published exactly if its first address is signalled and the tag is
kept. -/
theorem publishedFor_iff (ctx : WriteContext) (values : RegisterStore)
    (tags : List ModbusTagConfig) (w : WriteRequest) (response : Bytes) (tag : ModbusTagConfig)
    (c : Command) :
    PublishedFor ctx (performed (deviceStore values tags) w response) tag c ↔
      tag.address ∈ w.signalled ∧ keptTag tags w.fc tag.address = some tag ∧ tag.writable = true ∧
      ∃ value, marshalValue (typedValue (w.apply (deviceStore values tags)) tag) = some value ∧
        c = commandOf ctx w.fc tag.id value := by
  have htags : (w.apply (deviceStore values tags)).tagsByAddress =
      (deviceStore values tags).tagsByAddress := by
    cases w <;> rfl
  have hlookup : ∀ address, (w.apply (deviceStore values tags)).tagsByAddress.lookup
      (w.fc, address) = keptTag tags w.fc address := by
    intro address
    rw [htags, lookup_deviceStore]
  constructor
  · rintro ⟨signal, hsignal, hfound, hpublished⟩
    obtain ⟨address, haddress, rfl⟩ := List.mem_map.mp hsignal
    rw [performed, hlookup] at hfound
    obtain ⟨-, hfc, rfl⟩ := keptTag_spec hfound
    rw [performed, onWrite_eq ctx hfc ((hlookup _).trans hfound), Option.ite_none_right_eq_some,
      Option.map_eq_some_iff] at hpublished
    obtain ⟨hwritable, value, hvalue, rfl⟩ := hpublished
    exact ⟨haddress, hfound, hwritable, value, hvalue, rfl⟩
  · rintro ⟨haddress, hkept, hwritable, value, hvalue, rfl⟩
    obtain ⟨-, hfc, -⟩ := keptTag_spec hkept
    refine ⟨(w.fc, tag.address), List.mem_map_of_mem haddress, (hlookup _).trans hkept, ?_⟩
    rw [performed, onWrite_eq ctx hfc ((hlookup _).trans hkept), if_pos hwritable, hvalue]
    rfl

/-- A successful write publishes a command with its new value for each writable tag that
it touches, and commands for no other tags. -/
def WriteThrough (ctx : WriteContext) (values : RegisterStore) (tags : List ModbusTagConfig)
    (pdu : Bytes) : Prop :=
  ∀ (handled : Handled) (w : WriteRequest),
    handlePDU (deviceStore values tags) pdu = .ok handled → Successful pdu handled →
    writeRequest pdu = some w →
    (∀ tag ∈ tags, tag.writable = true → Touches w tag →
      ∃ value, marshalValue (typedValue handled.store tag) = some value ∧
        PublishedFor ctx handled tag (commandOf ctx w.fc tag.id value)) ∧
    (∀ tag c, PublishedFor ctx handled tag c → tag ∈ tags ∧ tag.writable = true ∧ Touches w tag)

/-- Every writable tag that the write touches starts at a signalled address, is the last
with its function code and address, and gets a value that JSON has; and no such tag
starts at an address that is signalled and not written. -/
structure Addressed (values : RegisterStore) (tags : List ModbusTagConfig) (w : WriteRequest) :
    Prop where
  signalled : ∀ tag ∈ tags, tag.writable = true → Touches w tag → tag.address ∈ w.signalled
  kept : ∀ tag ∈ tags, tag.writable = true → Touches w tag →
    keptTag tags w.fc tag.address = some tag
  marshalled : ∀ tag ∈ tags, tag.writable = true → Touches w tag →
    (marshalValue (typedValue (w.apply (deviceStore values tags)) tag)).isSome
  written : ∀ tag ∈ tags, tag.writable = true → tag.address ∈ w.signalled →
    keptTag tags w.fc tag.address = some tag →
    (marshalValue (typedValue (w.apply (deviceStore values tags)) tag)).isSome → Touches w tag

/-- What writes through has each of its tags at an address that is signalled. -/
theorem WriteThrough.addressed {ctx : WriteContext} {values : RegisterStore}
    {tags : List ModbusTagConfig} {pdu : Bytes} (h : WriteThrough ctx values tags pdu)
    {w : WriteRequest} (hw : writeRequest pdu = some w) : Addressed values tags w := by
  obtain ⟨fc, hfc, hhead, rest, hhandled⟩ := handlePDU_write (deviceStore values tags) hw
  obtain ⟨hcomplete, hsound⟩ := h _ w hhandled ⟨fc, hfc, hhead, rfl⟩ hw
  simp only [publishedFor_iff] at hcomplete hsound
  refine ⟨?_, ?_, ?_, ?_⟩
  · intro tag htag hwritable htouches
    obtain ⟨value, -, haddress, -⟩ := hcomplete tag htag hwritable htouches
    exact haddress
  · intro tag htag hwritable htouches
    obtain ⟨value, -, -, hkept, -⟩ := hcomplete tag htag hwritable htouches
    exact hkept
  · intro tag htag hwritable htouches
    obtain ⟨value, hvalue, -⟩ := hcomplete tag htag hwritable htouches
    exact Option.isSome_iff_exists.mpr ⟨value, hvalue⟩
  · intro tag htag hwritable haddress hkept hmarshal
    obtain ⟨value, hvalue⟩ := Option.isSome_iff_exists.mp hmarshal
    exact (hsound tag _ ⟨haddress, hkept, hwritable, value, hvalue, rfl⟩).2.2

/-- A write is told to exactly the writable variables that it touches if and only if each of them is
found at an address that is signalled, and no other one is. -/
theorem writeThrough_iff (ctx : WriteContext) (values : RegisterStore)
    (tags : List ModbusTagConfig) (pdu : Bytes) :
    WriteThrough ctx values tags pdu ↔
      ∀ w, writeRequest pdu = some w → Addressed values tags w := by
  constructor
  · intro h w hw
    exact h.addressed hw
  · intro h handled w hhandled _ hw
    obtain ⟨fc, -, -, rest, hperformed⟩ := handlePDU_write (deviceStore values tags) hw
    rw [hperformed] at hhandled
    cases hhandled
    have haddressed := h w hw
    simp only [publishedFor_iff]
    constructor
    · intro tag htag hwritable htouches
      obtain ⟨value, hvalue⟩ :=
        Option.isSome_iff_exists.mp (haddressed.marshalled tag htag hwritable htouches)
      exact ⟨value, hvalue, haddressed.signalled tag htag hwritable htouches,
        haddressed.kept tag htag hwritable htouches, hwritable, value, hvalue, rfl⟩
    · rintro tag c ⟨haddress, hkept, hwritable, value, hvalue, -⟩
      have htag := (keptTag_spec hkept).1
      exact ⟨htag, hwritable, haddressed.written tag htag hwritable haddress hkept
        (Option.isSome_iff_exists.mpr ⟨value, hvalue⟩)⟩

/-- A `float32` in the holding registers 0 and 1. -/
def setpoint : ModbusTagConfig where
  id := "setpoint"
  address := 0
  functionCode := "holding"
  datatype := "float32"
  writable := true

/-- A write of the second register of a value is not published. -/
theorem writeThrough_fails_at_second_register :
    ¬WriteThrough ⟨"modbus-server", "d", "plc", 0⟩ {} [setpoint] [0x06, 0, 1, 0x40, 0] := by
  intro h
  have hw : writeRequest [0x06, 0, 1, 0x40, 0] = some (.registers 1 [0x4000]) := by decide
  have hsignalled := (h.addressed hw).signalled setpoint (by simp) rfl (by decide)
  simp [setpoint, WriteRequest.signalled] at hsignalled

end ModbusServer
