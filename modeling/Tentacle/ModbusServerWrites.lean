import Tentacle.ModbusWriteThrough

/-!
# What a write request may do

A write request names coils or holding registers and carries a value for each. A
successful answer should mean that the store holds exactly these values at these
addresses, that the request brought them all, and that no read-only tag was changed. The
server checks less: it learns that a tag is read-only only after it has written, it takes
as many coils as the bytes give, and any value of FC05 other than the one for "on" is
"off" to it.
-/

namespace ModbusServer

open GoValues GoSlices BigEndian ModbusCodec
open ModbusScanner (ModbusTagConfig)

/-! ## Runs of words in a register space -/

theorem writeWords_other {W : Type} (store : Int → W) {address a : Int} {ws : List W}
    (h : a < address ∨ address + ws.length ≤ a) : writeWords store address ws a = store a := by
  induction ws generalizing store address with
  | nil => rfl
  | cons w ws ih =>
    rw [List.length_cons] at h
    rw [writeWords, ih _ (by omega), Function.update_of_ne (by omega)]

/-- Each value is found at its own address. -/
theorem writeWords_apply {W : Type} (store : Int → W) (address : Int) {ws : List W} {i : Nat}
    (h : i < ws.length) : writeWords store address ws (address + i) = ws[i] := by
  induction ws generalizing store address i with
  | nil => simp at h
  | cons w ws ih =>
    rw [writeWords]
    cases i with
    | zero =>
      rw [writeWords_other _ (by omega), Nat.cast_zero, add_zero, Function.update_self]
      rfl
    | succ i =>
      have hnext : address + ((i + 1 : Nat) : Int) = address + 1 + i := by omega
      rw [hnext, ih _ _ (by simpa using h), List.getElem_cons_succ]

/-! ## The items of a request -/

/-- How many coils or registers the request names. -/
def itemCount (pdu : Bytes) : Nat :=
  if pdu.head? = some 0x0F ∨ pdu.head? = some 0x10 then (requestSecond pdu).toNat else 1

def itemSpace (pdu : Bytes) : Space :=
  if pdu.head? = some 0x05 ∨ pdu.head? = some 0x0F then .coils else .holding

/-- The request names this coil or register. -/
def Requested (pdu : Bytes) (space : Space) (address : Int) : Prop :=
  itemSpace pdu = space ∧ requestAddress pdu ≤ address ∧
    address < requestAddress pdu + itemCount pdu

/-- Where the value of the `i`-th item ends in the request. -/
def itemEnd (pdu : Bytes) (i : Nat) : Nat :=
  if pdu.head? = some 0x0F then 6 + i / 8 + 1
  else if pdu.head? = some 0x10 then 6 + i * 2 + 2
  else 5

/-- The two values of a coil in a request of one coil, as the client of the repository
writes them (`buildWriteSingleCoilPDU`). -/
def coilWord (value : Bool) : UInt16 := if value then 0xFF00 else 0

/-- The store holds the value that the request has for its `i`-th item. -/
def HoldsItem (s : RegisterStore) (pdu : Bytes) (i : Nat) : Prop :=
  if pdu.head? = some 0x05 then coilWord (s.coils (requestAddress pdu + i)) = requestSecond pdu
  else if pdu.head? = some 0x06 then s.holding (requestAddress pdu + i) = requestSecond pdu
  else if pdu.head? = some 0x0F then s.coils (requestAddress pdu + i) = coilBit pdu i
  else s.holding (requestAddress pdu + i) = registerWord pdu i

/-- Exactly the requested items hold the data of the request: they do, and nothing else of
the store has changed. -/
structure Written (s s' : RegisterStore) (pdu : Bytes) : Prop where
  holds : ∀ i < itemCount pdu, HoldsItem s' pdu i
  coils : ∀ a, ¬Requested pdu .coils a → s'.coils a = s.coils a
  holding : ∀ a, ¬Requested pdu .holding a → s'.holding a = s.holding a
  discretes : s'.discretes = s.discretes
  input : s'.input = s.input
  byVariable : s'.tagsByVariable = s.tagsByVariable
  byAddress : s'.tagsByAddress = s.tagsByAddress

def Registered (s : RegisterStore) (tag : ModbusTagConfig) : Prop :=
  (∃ id, s.tagsByVariable.lookup id = some tag) ∨ ∃ key, s.tagsByAddress.lookup key = some tag

/-- An item of the request belongs to a tag that is registered as not writable. -/
def Protected (s : RegisterStore) (pdu : Bytes) : Prop :=
  ∃ tag a, Registered s tag ∧ tag.writable = false ∧ Requested pdu (spaceOf tag) a ∧
    tag.address ≤ a ∧ a < tag.address + tagCount tag

def IsException (response : Bytes) : Prop := ∃ b ∈ response.head?, b &&& 0x80 ≠ 0

/-- What the answer to a write request should mean. -/
def WriteSemantics (s : RegisterStore) (pdu : Bytes) : Prop :=
  ∃ handled, handlePDU s pdu = .ok handled ∧
    (¬IsException handled.response →
      Written s handled.store pdu ∧ (∀ i < itemCount pdu, itemEnd pdu i ≤ pdu.length) ∧
        ¬Protected s pdu) ∧
    (IsException handled.response → handled.store = s)

/-! ## The condition -/

/-- The request is shorter than its header, or than the bytes it announces. -/
def TooShort (pdu : Bytes) : Prop :=
  if pdu.head? = some 0x0F then
    pdu.length < 6 ∨ pdu.length < 6 + ((pdu.drop 5).headD 0).toNat
  else if pdu.head? = some 0x10 then
    pdu.length < 6 ∨ pdu.length < 6 + (requestSecond pdu).toNat * 2
  else pdu.length < 5

/-- The bytes of FC0F are enough for its coils, and the value of FC05 is one of the two. -/
def Meaningful (pdu : Bytes) : Prop :=
  (pdu.head? = some 0x0F → (requestSecond pdu).toNat ≤ 8 * (pdu.length - 6)) ∧
  (pdu.head? = some 0x05 → requestSecond pdu = 0xFF00 ∨ requestSecond pdu = 0)

/-- A request that is too short is no write. -/
theorem writeRequest_of_tooShort {fc : UInt8} {tail : Bytes} (hfc : fc ∈ writeCodes)
    (h : TooShort (fc :: tail)) : writeRequest (fc :: tail) = none := by
  simp only [writeCodes, List.mem_cons, List.not_mem_nil, or_false] at hfc
  obtain rfl | rfl | rfl | rfl := hfc
  · simp +decide only [TooShort, List.head?_cons, if_false] at h
    simp +decide only [writeRequest, List.head?_cons, if_true, if_pos h]
  · simp +decide only [TooShort, List.head?_cons, if_false] at h
    simp +decide only [writeRequest, List.head?_cons, if_true, if_false, if_pos h]
  · simp +decide only [TooShort, List.head?_cons, if_true] at h
    simp +decide only [writeRequest, List.head?_cons, if_true, if_false, if_pos h]
  · simp +decide only [TooShort, List.head?_cons, if_true, if_false] at h
    simp +decide only [writeRequest, List.head?_cons, if_true, if_false, if_pos h]

/-- A request that is too short is refused, and nothing changes. -/
theorem writeSemantics_of_tooShort (s : RegisterStore) {fc : UInt8} {tail : Bytes}
    (hfc : fc ∈ writeCodes) (h : TooShort (fc :: tail)) : WriteSemantics s (fc :: tail) := by
  refine ⟨_, handlePDU_refused s hfc (writeRequest_of_tooShort hfc h), ?_, fun _ => rfl⟩
  intro hresponse
  have hset : ∀ code ∈ writeCodes, (code ||| 0x80) &&& 0x80 ≠ 0 := by decide +kernel
  exact absurd ⟨_, rfl, hset fc hfc⟩ hresponse

/-- A request that is performed means what it should exactly when its effect and its bytes
are right and it leaves the read-only tags alone. -/
theorem writeSemantics_of_performed (s : RegisterStore) {pdu : Bytes} {w : WriteRequest}
    (hw : writeRequest pdu = some w) :
    WriteSemantics s pdu ↔ (Written s (w.apply s) pdu ∧
      ∀ i < itemCount pdu, itemEnd pdu i ≤ pdu.length) ∧ ¬Protected s pdu := by
  obtain ⟨fc, hfc, -, rest, hhandled⟩ := handlePDU_write s hw
  have hclear : ∀ code ∈ writeCodes, code &&& 0x80 = 0 := by decide +kernel
  have hresponse : ¬IsException (performed s w (fc :: rest)).response := by
    rintro ⟨b, hb, hset⟩
    cases hb
    exact hset (hclear fc hfc)
  rw [and_assoc]
  constructor
  · rintro ⟨handled, h, hsuccess, -⟩
    cases hhandled.symm.trans h
    exact hsuccess hresponse
  · intro h
    exact ⟨_, hhandled, fun _ => h, fun hexception => absurd hexception hresponse⟩

/-! ## The effect of each code -/

/-- A write of coils that holds its items at their addresses has written what was asked for. -/
theorem written_coils {s : RegisterStore} {pdu : Bytes} {values : List Bool} {announced : Nat}
    (hspace : itemSpace pdu = .coils) (hcount : values.length = itemCount pdu)
    (hholds : ∀ i < itemCount pdu,
      HoldsItem ((WriteRequest.coils (requestAddress pdu) values announced).apply s) pdu i) :
    Written s ((WriteRequest.coils (requestAddress pdu) values announced).apply s) pdu := by
  refine ⟨hholds, ?_, fun _ _ => rfl, rfl, rfl, rfl, rfl⟩
  intro a ha
  refine writeWords_other _ ?_
  by_contra hin
  exact ha ⟨hspace, by omega, by omega⟩

theorem written_registers {s : RegisterStore} {pdu : Bytes} {words : List UInt16}
    (hspace : itemSpace pdu = .holding) (hcount : words.length = itemCount pdu)
    (hholds : ∀ i < itemCount pdu,
      HoldsItem ((WriteRequest.registers (requestAddress pdu) words).apply s) pdu i) :
    Written s ((WriteRequest.registers (requestAddress pdu) words).apply s) pdu := by
  refine ⟨hholds, fun _ _ => rfl, ?_, rfl, rfl, rfl, rfl⟩
  intro a ha
  refine writeWords_other _ ?_
  by_contra hin
  exact ha ⟨hspace, by omega, by omega⟩

/-- Between a coil and the word for it the code loses every word but the two. -/
theorem coilWord_decide_iff (raw : UInt16) :
    coilWord (decide (raw = 0xFF00)) = raw ↔ raw = 0xFF00 ∨ raw = 0 := by
  by_cases hon : raw = 0xFF00
  · simp [coilWord, hon]
  · simp [coilWord, hon, eq_comm]

/-- What the theorem says of one code: the request is performed, and its effect and its
bytes are right exactly when it is meaningful. -/
def PerformedWhenMeaningful (s : RegisterStore) (pdu : Bytes) : Prop :=
  ∃ w, writeRequest pdu = some w ∧
    (Written s (w.apply s) pdu ∧ (∀ i < itemCount pdu, itemEnd pdu i ≤ pdu.length) ↔
      Meaningful pdu)

/-- The write of a coil does what it says where it says something. -/
theorem singleCoil_performed (s : RegisterStore) {tail : Bytes} (h : ¬TooShort (0x05 :: tail)) :
    PerformedWhenMeaningful s (0x05 :: tail) := by
  simp +decide only [TooShort, List.head?_cons, if_false] at h
  have hw : writeRequest (0x05 :: tail) = some (.coils (requestAddress (0x05 :: tail))
      [requestSecond (0x05 :: tail) = 0xFF00] 1) := by
    simp +decide only [writeRequest, List.head?_cons, if_true, if_neg h]
  have hcount : itemCount (0x05 :: tail) = 1 := by
    simp +decide only [itemCount, List.head?_cons, if_false]
  have hholds : HoldsItem ((WriteRequest.coils (requestAddress (0x05 :: tail))
      [requestSecond (0x05 :: tail) = 0xFF00] 1).apply s) (0x05 :: tail) 0 ↔
      requestSecond (0x05 :: tail) = 0xFF00 ∨ requestSecond (0x05 :: tail) = 0 := by
    rw [← coilWord_decide_iff]
    simp [HoldsItem, WriteRequest.apply, writeWords]
  refine ⟨_, hw, ?_, ?_⟩
  · rintro ⟨hwritten, -⟩
    refine ⟨fun hfc => absurd hfc (by simp +decide), fun _ => ?_⟩
    exact hholds.mp (hwritten.holds 0 (by omega))
  · rintro ⟨-, hvalue⟩
    refine ⟨written_coils (by simp +decide [itemSpace]) hcount.symm ?_, ?_⟩
    · intro i hi
      obtain rfl : i = 0 := by omega
      exact hholds.mpr (hvalue rfl)
    · intro i _
      simp +decide only [itemEnd, List.head?_cons, if_false]
      exact not_lt.mp h

theorem singleRegister_performed (s : RegisterStore) {tail : Bytes}
    (h : ¬TooShort (0x06 :: tail)) : PerformedWhenMeaningful s (0x06 :: tail) := by
  simp +decide only [TooShort, List.head?_cons, if_false] at h
  have hw : writeRequest (0x06 :: tail) = some (.registers (requestAddress (0x06 :: tail))
      [requestSecond (0x06 :: tail)]) := by
    simp +decide only [writeRequest, List.head?_cons, if_true, if_false, if_neg h]
  have hcount : itemCount (0x06 :: tail) = 1 := by
    simp +decide only [itemCount, List.head?_cons, if_false]
  refine ⟨_, hw, iff_of_true ⟨written_registers (by simp +decide [itemSpace]) hcount.symm ?_, ?_⟩
    ⟨by simp +decide, by simp +decide⟩⟩
  · intro i hi
    obtain rfl : i = 0 := by omega
    simp +decide [HoldsItem, WriteRequest.apply, writeWords]
  · intro i _
    simp +decide only [itemEnd, List.head?_cons, if_false]
    exact not_lt.mp h

theorem multipleCoils_performed (s : RegisterStore) {tail : Bytes}
    (h : ¬TooShort (0x0F :: tail)) : PerformedWhenMeaningful s (0x0F :: tail) := by
  simp +decide only [TooShort, List.head?_cons, if_true] at h
  have hw : writeRequest (0x0F :: tail) = some (.coils (requestAddress (0x0F :: tail))
      ((List.range (min (requestSecond (0x0F :: tail)).toNat
        (8 * ((0x0F :: tail : Bytes).length - 6)))).map (coilBit (0x0F :: tail)))
      (requestSecond (0x0F :: tail)).toNat) := by
    simp +decide only [writeRequest, List.head?_cons, if_true, if_false, if_neg h]
  have hcount : itemCount (0x0F :: tail) = (requestSecond (0x0F :: tail)).toNat := by
    simp +decide only [itemCount, List.head?_cons, if_true]
  have hend : ∀ i, itemEnd (0x0F :: tail) i = 6 + i / 8 + 1 := by
    intro i
    simp +decide only [itemEnd, List.head?_cons, if_true]
  refine ⟨_, hw, ?_, ?_⟩
  · rintro ⟨-, hpresent⟩
    refine ⟨fun _ => ?_, by simp +decide⟩
    -- The last coil of the request is in its bytes only if they reach that far.
    by_contra hmore
    have hlast := hpresent ((requestSecond (0x0F :: tail)).toNat - 1) (by omega)
    rw [hend] at hlast
    omega
  · rintro ⟨hbytes, -⟩
    have henough := hbytes rfl
    refine ⟨written_coils (by simp +decide [itemSpace]) ?_ ?_, ?_⟩
    · rw [List.length_map, List.length_range, hcount, min_eq_left henough]
    · intro i hi
      rw [hcount] at hi
      have hlength : i < ((List.range (min (requestSecond (0x0F :: tail)).toNat
          (8 * ((0x0F :: tail : Bytes).length - 6)))).map (coilBit (0x0F :: tail))).length := by
        rw [List.length_map, List.length_range, min_eq_left henough]
        exact hi
      simp +decide only [HoldsItem, List.head?_cons, if_true, if_false, WriteRequest.apply]
      rw [writeWords_apply _ _ hlength, List.getElem_map, List.getElem_range]
    · intro i hi
      rw [hcount] at hi
      rw [hend]
      omega

theorem multipleRegisters_performed (s : RegisterStore) {tail : Bytes}
    (h : ¬TooShort (0x10 :: tail)) : PerformedWhenMeaningful s (0x10 :: tail) := by
  simp +decide only [TooShort, List.head?_cons, if_true, if_false] at h
  have hw : writeRequest (0x10 :: tail) = some (.registers (requestAddress (0x10 :: tail))
      ((List.range (requestSecond (0x10 :: tail)).toNat).map (registerWord (0x10 :: tail)))) := by
    simp +decide only [writeRequest, List.head?_cons, if_true, if_false, if_neg h]
  have hcount : itemCount (0x10 :: tail) = (requestSecond (0x10 :: tail)).toNat := by
    simp +decide only [itemCount, List.head?_cons, if_true]
  refine ⟨_, hw, iff_of_true ⟨written_registers (by simp +decide [itemSpace]) ?_ ?_, ?_⟩
    ⟨by simp +decide, by simp +decide⟩⟩
  · rw [List.length_map, List.length_range, hcount]
  · intro i hi
    rw [hcount] at hi
    simp +decide only [HoldsItem, List.head?_cons, if_false, WriteRequest.apply]
    rw [writeWords_apply _ _ (by simpa using hi), List.getElem_map, List.getElem_range]
  · intro i hi
    rw [hcount] at hi
    simp +decide only [itemEnd, List.head?_cons, if_true, if_false]
    omega

/-! ## The result -/

/-- A write request means what it should exactly when it is refused as too short, or is
meaningful and leaves the read-only tags alone. -/
theorem writeSemantics_iff (s : RegisterStore) {pdu : Bytes}
    (h : ∃ fc ∈ writeCodes, pdu.head? = some fc) :
    WriteSemantics s pdu ↔ TooShort pdu ∨ Meaningful pdu ∧ ¬Protected s pdu := by
  obtain ⟨fc, hfc, hhead⟩ := h
  obtain ⟨tail, rfl⟩ : ∃ tail, pdu = fc :: tail := ⟨_, List.eq_cons_of_mem_head? hhead⟩
  by_cases hshort : TooShort (fc :: tail)
  · exact iff_of_true (writeSemantics_of_tooShort s hfc hshort) (.inl hshort)
  have hperformed : PerformedWhenMeaningful s (fc :: tail) := by
    simp only [writeCodes, List.mem_cons, List.not_mem_nil, or_false] at hfc
    obtain rfl | rfl | rfl | rfl := hfc
    · exact singleCoil_performed s hshort
    · exact singleRegister_performed s hshort
    · exact multipleCoils_performed s hshort
    · exact multipleRegisters_performed s hshort
  obtain ⟨w, hw, hmeaningful⟩ := hperformed
  rw [writeSemantics_of_performed s hw, hmeaningful]
  exact (or_iff_right hshort).symm

/-- A register without a tag takes its value. -/
theorem writeSemantics_register : WriteSemantics {} [0x06, 0, 1, 0, 5] := by
  refine (writeSemantics_iff {} ⟨0x06, by decide, rfl⟩).mpr (.inr ⟨⟨by decide, by decide⟩, ?_⟩)
  rintro ⟨tag, a, ⟨id, hid⟩ | ⟨key, hkey⟩, -⟩
  · cases hid
  · cases hkey

/-- A coil that clients may only read. -/
def alarm : ModbusTagConfig where
  id := "alarm"
  address := 3
  functionCode := "coil"
  datatype := "boolean"
  writable := false

/-- A client can switch it all the same, and is told that it did. -/
theorem writeSemantics_fails_readOnly :
    ¬∀ (s : RegisterStore) (pdu : Bytes), (∃ fc ∈ writeCodes, pdu.head? = some fc) →
      WriteSemantics s pdu := by
  intro h
  have hw : writeRequest [0x05, 0, 3, 0xFF, 0] = some (.coils 3 [true] 1) := by decide
  have halarm := h (deviceStore {} [alarm]) [0x05, 0, 3, 0xFF, 0] ⟨0x05, by decide, rfl⟩
  rw [writeSemantics_of_performed _ hw] at halarm
  refine halarm.2 ⟨alarm, 3, .inl ⟨"alarm", rfl⟩, rfl, ⟨rfl, ?_, ?_⟩, by decide, by decide⟩
  · decide
  · decide

end ModbusServer
