import Tentacle.ModbusServerSafety
import Tentacle.ModbusWriteThrough

/-!
# The responses of the Modbus server

A response frame carries two lengths: the MBAP length in sixteen bits and, in the response
of a read, the number of data bytes in eight. The server takes the quantity of a read as
the client sends it, so both fields can be too small for what they count.
-/

namespace ModbusServer

open GoValues GoSlices BigEndian Outcome

/-! ## The shape of a read response -/

/-- The function codes of the reads. -/
def readCodes : List UInt8 := [0x01, 0x02, 0x03, 0x04]

/-- How many data bytes a read asks for. -/
def requestedBytes (pdu : Bytes) : Nat :=
  if pdu.head? = some 0x01 ∨ pdu.head? = some 0x02 then ((requestSecond pdu).toNat + 7) / 8
  else (requestSecond pdu).toNat * 2

/-- The response has the byte of a count and as many data bytes as the count says, before
it is cut to a byte. -/
def ReadResponse (fc : UInt8) (n : Nat) (resp : Bytes) : Prop :=
  ∃ data : Bytes, resp = fc :: UInt8.ofNat n :: data ∧ data.length = n

/-- The answer to a read starts with its code and its length. -/
theorem readHeader_eq (fc b : UInt8) (n : Nat) :
    ((do
      let resp ← makeSlice 0 (2 + (n : Int))
      let resp ← assign resp 0 fc
      assign resp 1 b) : Go Bytes) = .ok (fc :: b :: List.replicate n 0) := by
  have hlength : (2 + (n : Int)).toNat = n + 2 := by omega
  rw [makeSlice, if_pos (by omega), hlength, List.replicate_succ, List.replicate_succ]
  simp [assign]

theorem setBit_readResponse {fc : UInt8} {n i : Nat} {resp : Bytes} (h : ReadResponse fc n resp)
    (hi : i / 8 < n) : (setBit resp i).Ensures (ReadResponse fc n) := by
  obtain ⟨data, rfl, hlength⟩ := h
  refine (ensures_index (by simp; omega)).bind fun b _ => ?_
  rw [assign, if_pos (by simp; omega), ensures_ok, Nat.add_comm, List.set_cons_succ,
    List.set_cons_succ]
  exact ⟨_, rfl, by rw [List.length_set, hlength]⟩

/-- A word that is written into the answer leaves its header. -/
theorem putUint16_readResponse {fc : UInt8} {n i : Nat} {resp : Bytes} {word : UInt16}
    (h : ReadResponse fc n resp) (hi : i * 2 + 2 ≤ n) :
    (putUint16 resp (2 + i * 2) (4 + i * 2) word : Go Bytes).Ensures (ReadResponse fc n) := by
  obtain ⟨data, rfl, hlength⟩ := h
  have hwindow : 2 ≤ ((List.take (4 + i * 2) (fc :: UInt8.ofNat n :: data)).drop
      (2 + i * 2)).length := by
    rw [List.length_drop, List.length_take, List.length_cons, List.length_cons]
    omega
  rw [putUint16, slice_ok (by omega) (by simp; omega), ok_bind, if_pos hwindow, ensures_ok]
  refine ⟨data.take (i * 2) ++ putUint 2 word.toNat ++ data.drop (i * 2 + 2), ?_, ?_⟩
  · have htwo : 2 + i * 2 = i * 2 + 1 + 1 := by omega
    have hfour : 2 + i * 2 + 2 = i * 2 + 2 + 1 + 1 := by omega
    rw [hfour, htwo, List.take_succ_cons, List.take_succ_cons, List.drop_succ_cons,
      List.drop_succ_cons]
    rfl
  · simp only [List.length_append, List.length_take, List.length_drop, length_putUint]
    omega

/-- The answer to a read of bits has the bytes that it announces. -/
theorem handleReadBits_response (s : RegisterStore) {fc : UInt8} {tail : Bytes} (isCoil : Bool)
    (h : 5 ≤ (fc :: tail).length) :
    (handleReadBits s (fc :: tail) isCoil).Ensures
      (ReadResponse fc (((requestSecond (fc :: tail)).toNat + 7) / 8)) := by
  have hheader := readHeader_eq fc (UInt8.ofNat (((requestSecond (fc :: tail)).toNat + 7) / 8))
    (((requestSecond (fc :: tail)).toNat + 7) / 8)
  rw [handleReadBits, if_neg (by omega), index_ok (by simp), ok_bind, uint16_ok rfl (by omega),
    ok_bind, uint16_ok rfl h, ok_bind, ← requestSecond]
  simp only [← bind_assoc] at hheader ⊢
  simp only [List.getElem_cons_zero]
  rw [hheader, ok_bind]
  refine ensures_foldlM ?_ ⟨_, rfl, List.length_replicate⟩
  intro i hi resp hresp
  rw [List.mem_range] at hi
  generalize (if isCoil then s.coils else s.discretes) _ = val
  cases val with
  | true => exact setBit_readResponse hresp (by omega)
  | false => exact hresp

theorem handleReadWords_response (s : RegisterStore) {fc : UInt8} {tail : Bytes} (isHolding : Bool)
    (h : 5 ≤ (fc :: tail).length) :
    (handleReadWords s (fc :: tail) isHolding).Ensures
      (ReadResponse fc ((requestSecond (fc :: tail)).toNat * 2)) := by
  have hheader := readHeader_eq fc (UInt8.ofNat ((requestSecond (fc :: tail)).toNat * 2))
    ((requestSecond (fc :: tail)).toNat * 2)
  rw [handleReadWords, if_neg (by omega), index_ok (by simp), ok_bind, uint16_ok rfl (by omega),
    ok_bind, uint16_ok rfl h, ok_bind, ← requestSecond]
  simp only [← bind_assoc, Nat.cast_mul, Nat.cast_ofNat] at hheader ⊢
  simp only [List.getElem_cons_zero]
  rw [hheader, ok_bind]
  refine ensures_foldlM ?_ ⟨_, rfl, List.length_replicate⟩
  intro i hi resp hresp
  rw [List.mem_range] at hi
  exact putUint16_readResponse hresp (by omega)

/-! ## Every response -/

/-- An answer that is no successful read is short, and no code of a read stands in front. -/
def OtherResponse (resp : Bytes) : Prop :=
  resp.length ≤ 5 ∧ ∀ fc ∈ readCodes, resp.head? ≠ some fc

/-- A request that the read handlers take up. -/
def IsRead (pdu : Bytes) : Prop := 5 ≤ pdu.length ∧ ∃ fc ∈ readCodes, pdu.head? = some fc

/-- An exception is short, and its code is none of a read. -/
theorem otherResponse_exception (fc code : UInt8) : OtherResponse [fc ||| 0x80, code] := by
  refine ⟨by simp, ?_⟩
  -- The highest bit marks an exception, and no code has it.
  have hmark : (fc ||| 0x80).toNat.testBit 7 = true := by
    rw [UInt8.toNat_or, Nat.testBit_or]
    exact Bool.or_true _
  have hcodes : ∀ c ∈ readCodes, c.toNat.testBit 7 = false := by
    simp only [readCodes, List.forall_mem_cons]
    exact ⟨rfl, rfl, rfl, rfl, List.forall_mem_nil _⟩
  intro c hc h
  rw [Option.some.inj h, hcodes c hc] at hmark
  cases hmark

theorem echo_response {fc : UInt8} (hfc : fc ∉ readCodes) (x y : UInt16) :
    (echo fc x y).Ensures OtherResponse := by
  rw [echo_eq, ensures_ok]
  refine ⟨by simp [length_putUint], ?_⟩
  intro c hc h
  exact hfc (Option.some.inj h ▸ hc)

/-- What is answered to a write of a coil is an echo or an exception. -/
theorem handleWriteSingleCoil_response (s : RegisterStore) (pdu : Bytes) :
    (handleWriteSingleCoil s pdu).Ensures fun handled => OtherResponse handled.response := by
  rw [handleWriteSingleCoil]
  split
  · exact otherResponse_exception 0x05 0x03
  next hlong =>
    refine (ensures_uint16 rfl (by omega)).bind fun addr _ => ?_
    refine (ensures_uint16 rfl (by omega)).bind fun raw _ => ?_
    exact (echo_response (by decide) addr raw).bind fun _ hresp => hresp

theorem handleWriteSingleRegister_response (s : RegisterStore) (pdu : Bytes) :
    (handleWriteSingleRegister s pdu).Ensures fun handled => OtherResponse handled.response := by
  rw [handleWriteSingleRegister]
  split
  · exact otherResponse_exception 0x06 0x03
  next hlong =>
    refine (ensures_uint16 rfl (by omega)).bind fun addr _ => ?_
    refine (ensures_uint16 rfl (by omega)).bind fun value _ => ?_
    exact (echo_response (by decide) addr value).bind fun _ hresp => hresp

/-- The answer to several coils is an echo of the address and the number, or an exception. -/
theorem handleWriteMultipleCoils_response (s : RegisterStore) (pdu : Bytes) :
    (handleWriteMultipleCoils s pdu).Ensures fun handled => OtherResponse handled.response := by
  rw [handleWriteMultipleCoils]
  split
  · exact otherResponse_exception 0x0F 0x03
  next hlong =>
    refine (ensures_uint16 rfl (by omega)).bind fun addr _ => ?_
    refine (ensures_uint16 rfl (by omega)).bind fun count _ => ?_
    refine (ensures_index (by omega)).bind fun byteCount _ => ?_
    split
    · exact otherResponse_exception 0x0F 0x03
    · refine (writeBits_safe _ _ _ _ _).bind fun coils _ => ?_
      exact (echo_response (by decide) addr count).bind fun _ hresp => hresp

theorem handleWriteMultipleRegisters_response (s : RegisterStore) (pdu : Bytes) :
    (handleWriteMultipleRegisters s pdu).Ensures
      fun handled => OtherResponse handled.response := by
  rw [handleWriteMultipleRegisters]
  split
  · exact otherResponse_exception 0x10 0x03
  next hlong =>
    refine (ensures_uint16 rfl (by omega)).bind fun addr _ => ?_
    refine (ensures_uint16 rfl (by omega)).bind fun count _ => ?_
    split
    · exact otherResponse_exception 0x10 0x03
    next hneeded =>
      rw [writeRegisters_eq _ _ (by omega), ok_bind]
      exact (echo_response (by decide) addr count).bind fun _ hresp => hresp

theorem handleReadBits_short (s : RegisterStore) {fc : UInt8} {tail : Bytes} (isCoil : Bool)
    (h : (fc :: tail).length < 5) :
    (handleReadBits s (fc :: tail) isCoil).Ensures OtherResponse := by
  rw [handleReadBits, if_pos h, index_ok (by simp), ok_bind]
  exact otherResponse_exception fc 0x03

theorem handleReadWords_short (s : RegisterStore) {fc : UInt8} {tail : Bytes} (isHolding : Bool)
    (h : (fc :: tail).length < 5) :
    (handleReadWords s (fc :: tail) isHolding).Ensures OtherResponse := by
  rw [handleReadWords, if_pos h, index_ok (by simp), ok_bind]
  exact otherResponse_exception fc 0x03

/-- A read gets a read response with the bytes it asks for. -/
theorem handlePDU_read (s : RegisterStore) {pdu : Bytes} (h : IsRead pdu) :
    (handlePDU s pdu).Ensures fun handled =>
      ∃ fc ∈ readCodes, ReadResponse fc (requestedBytes pdu) handled.response := by
  obtain ⟨hlong, fc, hfc, hhead⟩ := h
  obtain ⟨tail, rfl⟩ : ∃ tail, pdu = fc :: tail := ⟨_, List.eq_cons_of_mem_head? hhead⟩
  simp only [readCodes, List.mem_cons, List.not_mem_nil, or_false] at hfc
  obtain rfl | rfl | rfl | rfl := hfc
  · exact (handleReadBits_response s true hlong).bind fun resp hresp => ⟨0x01, by decide, hresp⟩
  · exact (handleReadBits_response s false hlong).bind fun resp hresp => ⟨0x02, by decide, hresp⟩
  · exact (handleReadWords_response s true hlong).bind fun resp hresp => ⟨0x03, by decide, hresp⟩
  · exact (handleReadWords_response s false hlong).bind fun resp hresp => ⟨0x04, by decide, hresp⟩

/-- Whatever is not a read is answered in few bytes. -/
theorem handlePDU_other (s : RegisterStore) {pdu : Bytes} (h : ¬IsRead pdu) :
    (handlePDU s pdu).Ensures fun handled => OtherResponse handled.response := by
  cases pdu with
  | nil => exact otherResponse_exception 0x01 0x01
  | cons fc tail =>
    have hshort : ∀ code ∈ readCodes, fc = code → (fc :: tail).length < 5 := by
      intro code hcode hfc
      by_contra hlong
      exact h ⟨not_lt.mp hlong, code, hcode, by rw [hfc]; rfl⟩
    rw [handlePDU]
    split
    next hfc =>
      exact (handleReadBits_short s true (hshort _ (by decide) hfc)).bind fun _ hresp => hresp
    split
    next hfc =>
      exact (handleReadBits_short s false (hshort _ (by decide) hfc)).bind fun _ hresp => hresp
    split
    next hfc =>
      exact (handleReadWords_short s true (hshort _ (by decide) hfc)).bind fun _ hresp => hresp
    split
    next hfc =>
      exact (handleReadWords_short s false (hshort _ (by decide) hfc)).bind fun _ hresp => hresp
    split
    · exact handleWriteSingleCoil_response s _
    split
    · exact handleWriteSingleRegister_response s _
    split
    · exact handleWriteMultipleCoils_response s _
    split
    · exact handleWriteMultipleRegisters_response s _
    · exact otherResponse_exception fc 0x01

/-! ## The frame around a response -/

theorem responseFrame_eq (request : Frame) (response : Bytes) :
    responseFrame request response = .ok (putUint 2 request.txID.toNat ++ [0, 0] ++
      putUint 2 (UInt16.ofNat (1 + response.length)).toNat ++ [request.reqUnitID] ++ response) := by
  have hlength : (7 + response.length : Int).toNat = response.length + 7 := by omega
  rw [responseFrame, makeSlice, if_pos (by omega), ok_bind, hlength]
  simp [List.replicate_succ, putUint16, slice, assign, copyFrom, putUint]
  omega

/-- The length field counts the bytes that follow it, and the byte count of a successful
read its data bytes. -/
def WellFramed (frame : Bytes) : Prop :=
  lengthField frame = (frame.drop 6).length ∧
  ∀ fc ∈ readCodes, ∀ byteCount data, frame.drop 7 = fc :: byteCount :: data →
    byteCount.toNat = data.length

/-- The header says one byte more than the answer has, up to `2 ^ 16`. -/
theorem lengthField_responseFrame {request : Frame} {response frame : Bytes}
    (h : responseFrame request response = .ok frame) :
    lengthField frame = (1 + response.length) % 65536 ∧ frame.drop 7 = response ∧
      (frame.drop 6).length = 1 + response.length := by
  rw [responseFrame_eq] at h
  cases h
  have hlt : (UInt16.ofNat (1 + response.length)).toNat < 256 ^ 2 := UInt16.toNat_lt _
  refine ⟨?_, ?_, ?_⟩
  · rw [lengthField, List.append_assoc, List.append_assoc,
      List.drop_left' (by simp [length_putUint]), List.take_left' (length_putUint 2 _),
      uint_putUint_of_lt hlt]
    exact UInt16.toNat_ofNat'
  · rw [List.drop_left' (by simp [length_putUint])]
  · rw [List.append_assoc, List.drop_left' (by simp [length_putUint])]
    simp [Nat.add_comm]

/-- A read of more than 2040 bits or 127 registers. -/
def Oversized (pdu : Bytes) : Prop :=
  5 ≤ pdu.length ∧
    ((pdu.head? = some 0x01 ∨ pdu.head? = some 0x02) ∧ 2040 < (requestSecond pdu).toNat ∨
      (pdu.head? = some 0x03 ∨ pdu.head? = some 0x04) ∧ 127 < (requestSecond pdu).toNat)

/-- These are the reads whose data does not fit the byte count. -/
theorem oversized_iff (pdu : Bytes) : Oversized pdu ↔ IsRead pdu ∧ 255 < requestedBytes pdu := by
  constructor
  · rintro ⟨hlong, ⟨hbits, hcount⟩ | ⟨hwords, hcount⟩⟩
    · refine ⟨⟨hlong, ?_⟩, ?_⟩
      · obtain hfc | hfc := hbits
        · exact ⟨_, by decide, hfc⟩
        · exact ⟨_, by decide, hfc⟩
      · rw [requestedBytes, if_pos hbits]
        omega
    · refine ⟨⟨hlong, ?_⟩, ?_⟩
      · obtain hfc | hfc := hwords
        · exact ⟨_, by decide, hfc⟩
        · exact ⟨_, by decide, hfc⟩
      · rw [requestedBytes, if_neg (by obtain hfc | hfc := hwords <;> simp [hfc])]
        omega
  · rintro ⟨⟨hlong, fc, hfc, hhead⟩, hbytes⟩
    rw [requestedBytes] at hbytes
    simp only [readCodes, List.mem_cons, List.not_mem_nil, or_false] at hfc
    obtain rfl | rfl | rfl | rfl := hfc
    · rw [if_pos (.inl hhead)] at hbytes
      exact ⟨hlong, .inl ⟨.inl hhead, by omega⟩⟩
    · rw [if_pos (.inr hhead)] at hbytes
      exact ⟨hlong, .inl ⟨.inr hhead, by omega⟩⟩
    · rw [if_neg (by simp [hhead])] at hbytes
      exact ⟨hlong, .inr ⟨.inl hhead, by omega⟩⟩
    · rw [if_neg (by simp [hhead])] at hbytes
      exact ⟨hlong, .inr ⟨.inr hhead, by omega⟩⟩

/-- The frame of a read response is right exactly when a byte can hold the count. -/
theorem wellFramed_readResponse {request : Frame} {fc : UInt8} {n : Nat} {response frame : Bytes}
    (hfc : fc ∈ readCodes) (hread : ReadResponse fc n response)
    (h : responseFrame request response = .ok frame) : WellFramed frame ↔ n ≤ 255 := by
  obtain ⟨hfield, hpdu, hrest⟩ := lengthField_responseFrame h
  obtain ⟨data, rfl, hlength⟩ := hread
  rw [WellFramed, hfield, hpdu, hrest]
  constructor
  · rintro ⟨-, hcount⟩
    have hbyte := hcount fc hfc _ _ rfl
    have hlt := UInt8.toNat_lt (UInt8.ofNat n)
    omega
  · intro hn
    refine ⟨Nat.mod_eq_of_lt (by simp only [List.length_cons]; omega), ?_⟩
    rintro fc' - byteCount data' ⟨⟩
    rw [hlength]
    exact UInt8.toNat_ofNat_of_lt' (show n < 256 by omega)

theorem wellFramed_other {request : Frame} {response frame : Bytes}
    (hother : OtherResponse response)
    (h : responseFrame request response = .ok frame) : WellFramed frame := by
  obtain ⟨hfield, hpdu, hrest⟩ := lengthField_responseFrame h
  obtain ⟨hlength, hhead⟩ := hother
  refine ⟨?_, ?_⟩
  · rw [hfield, hrest, Nat.mod_eq_of_lt (by omega)]
  · intro fc hfc byteCount data hdata
    rw [hpdu] at hdata
    exact absurd (by rw [hdata]; rfl) (hhead fc hfc)

/-- An answer to an oversized read announces another length than it has. -/
theorem not_wellFramed_of_oversized {s : RegisterStore} {request : Frame} {handled : Handled}
    {frame : Bytes} (h : Oversized request.pdu) (hhandled : handlePDU s request.pdu = .ok handled)
    (hframe : responseFrame request handled.response = .ok frame) : ¬WellFramed frame := by
  obtain ⟨hread, hbytes⟩ := (oversized_iff _).mp h
  have hresponse := handlePDU_read s hread
  rw [hhandled, ensures_ok] at hresponse
  obtain ⟨fc, hfc, hresponse⟩ := hresponse
  rw [wellFramed_readResponse hfc hresponse hframe]
  omega

/-- Every request is answered, and the lengths in the answer are right exactly when the
request is not a read of more than 127 registers or 2040 bits. -/
theorem responses_wellFramed_iff (s : RegisterStore) (request : Frame) :
    (∃ handled frame, handlePDU s request.pdu = .ok handled ∧
      responseFrame request handled.response = .ok frame ∧ WellFramed frame) ↔
      ¬Oversized request.pdu := by
  constructor
  · rintro ⟨handled, frame, hhandled, hframe, hwell⟩ hover
    exact not_wellFramed_of_oversized hover hhandled hframe hwell
  · intro hover
    rw [oversized_iff] at hover
    by_cases hread : IsRead request.pdu
    · obtain ⟨handled, hhandled, fc, hfc, hresponse⟩ := (handlePDU_read s hread).exists_ok
      have hframe := responseFrame_eq request handled.response
      refine ⟨handled, _, hhandled, hframe, (wellFramed_readResponse hfc hresponse hframe).mpr ?_⟩
      by_contra hmore
      exact hover ⟨hread, not_le.mp hmore⟩
    · obtain ⟨handled, hhandled, hresponse⟩ := (handlePDU_other s hread).exists_ok
      have hframe := responseFrame_eq request handled.response
      exact ⟨handled, _, hhandled, hframe, wellFramed_other hresponse hframe⟩

/-- A read of 128 registers announces no data bytes and sends 256. -/
theorem misframed_registers :
    ¬∀ (s : RegisterStore) (request : Frame), ∃ handled frame,
      handlePDU s request.pdu = .ok handled ∧
      responseFrame request handled.response = .ok frame ∧ WellFramed frame := by
  intro h
  obtain ⟨handled, frame, hhandled, hframe, hwell⟩ := h {} ⟨1, 1, [0x03, 0, 0, 0, 128]⟩
  have hcount : requestSecond [0x03, 0, 0, 0, 128] = 128 := by decide +kernel
  refine not_wellFramed_of_oversized ?_ hhandled hframe hwell
  exact ⟨by decide, .inr ⟨.inl rfl, by simp [hcount]⟩⟩

end ModbusServer
