import Tentacle.ModbusServer

/-!
# Robustness of the Modbus server

Every handler stays within the bytes of its request. The frame loop panics on exactly
one kind of header, one whose length field is zero, and it meets such a header when
the stream of the client is a sequence of frames followed by it, however the stream
is cut into reads.
-/

namespace ModbusServer

open GoValues GoSlices BigEndian Outcome

/-! ## The handlers -/

theorem setBit_ensures {resp : Bytes} {i : Nat} (h : 2 + i / 8 < resp.length) :
    (setBit resp i).Ensures fun r => r.length = resp.length :=
  (ensures_index h).bind fun _ _ => ensures_assign h

/-- Reading bits stays inside the request and the answer. -/
theorem handleReadBits_safe (s : RegisterStore) {pdu : Bytes} (h : pdu ≠ []) (isCoil : Bool) :
    (handleReadBits s pdu isCoil).Safe := by
  have hpos : 0 < pdu.length := List.length_pos_iff.mpr h
  rw [handleReadBits]
  split
  · exact (ensures_index hpos).bind fun _ _ => trivial
  next hlong =>
    refine (ensures_index hpos).bind fun fc _ => ?_
    refine (ensures_uint16 rfl (by omega)).bind fun addr _ => ?_
    refine (ensures_uint16 rfl (by omega)).bind fun count _ => ?_
    refine (ensures_makeSlice (by omega)).bind fun resp hresp => ?_
    refine (ensures_assign (by omega)).bind fun resp' hresp' => ?_
    refine (ensures_assign (by omega)).bind fun resp'' hresp'' => ?_
    refine (ensures_foldlM (I := fun r => r.length = resp''.length) ?_ rfl).safe
    intro i hi r hr
    rw [List.mem_range] at hi
    generalize (if isCoil then s.coils else s.discretes) (addr.toNat + (i : Int)) = val
    cases val with
    | true => exact (setBit_ensures (by omega)).imp fun _ hlength => hlength.trans hr
    | false => exact hr

/-- Reading registers stays inside the request and the answer. -/
theorem handleReadWords_safe (s : RegisterStore) {pdu : Bytes} (h : pdu ≠ []) (isHolding : Bool) :
    (handleReadWords s pdu isHolding).Safe := by
  have hpos : 0 < pdu.length := List.length_pos_iff.mpr h
  rw [handleReadWords]
  split
  · exact (ensures_index hpos).bind fun _ _ => trivial
  next hlong =>
    refine (ensures_index hpos).bind fun fc _ => ?_
    refine (ensures_uint16 rfl (by omega)).bind fun addr _ => ?_
    refine (ensures_uint16 rfl (by omega)).bind fun count _ => ?_
    refine (ensures_makeSlice (by omega)).bind fun resp hresp => ?_
    refine (ensures_assign (by omega)).bind fun resp' hresp' => ?_
    refine (ensures_assign (by omega)).bind fun resp'' hresp'' => ?_
    refine (ensures_foldlM (I := fun r => r.length = resp''.length) ?_ rfl).safe
    intro i hi r hr
    rw [List.mem_range] at hi
    exact (ensures_putUint16 (by omega) (by omega)).imp fun _ hlength => hlength.trans hr

theorem echo_safe (fc : UInt8) (x y : UInt16) : (echo fc x y).Safe := by
  refine (ensures_makeSlice (by omega)).bind fun resp hresp => ?_
  refine (ensures_assign (by omega)).bind fun resp' hresp' => ?_
  refine (ensures_putUint16 (by omega) (by omega)).bind fun resp'' hresp'' => ?_
  exact (ensures_putUint16 (by omega) (by omega)).safe

/-- A write of one coil is read only if it is long enough. -/
theorem handleWriteSingleCoil_safe (s : RegisterStore) (pdu : Bytes) :
    (handleWriteSingleCoil s pdu).Safe := by
  rw [handleWriteSingleCoil]
  split
  · trivial
  next hlong =>
    refine (ensures_uint16 rfl (by omega)).bind fun addr _ => ?_
    refine (ensures_uint16 rfl (by omega)).bind fun raw _ => ?_
    exact (echo_safe _ _ _).bind fun _ _ => trivial

theorem handleWriteSingleRegister_safe (s : RegisterStore) (pdu : Bytes) :
    (handleWriteSingleRegister s pdu).Safe := by
  rw [handleWriteSingleRegister]
  split
  · trivial
  next hlong =>
    refine (ensures_uint16 rfl (by omega)).bind fun addr _ => ?_
    refine (ensures_uint16 rfl (by omega)).bind fun raw _ => ?_
    exact (echo_safe _ _ _).bind fun _ _ => trivial

/-- A bit whose byte is missing is left out. -/
theorem writeBits_safe (pdu : Bytes) (addr n i : Nat) (coils : Int → Bool) :
    (writeBits pdu addr n i coils).Safe := by
  induction n generalizing i coils with
  | zero => trivial
  | succ n ih =>
    rw [writeBits]
    split
    · trivial
    next hlong => exact (ensures_index (by omega)).bind fun _ _ => ih _ _

/-- Several coils are read up to the end of the request. -/
theorem handleWriteMultipleCoils_safe (s : RegisterStore) (pdu : Bytes) :
    (handleWriteMultipleCoils s pdu).Safe := by
  rw [handleWriteMultipleCoils]
  split
  · trivial
  next hlong =>
    refine (ensures_uint16 rfl (by omega)).bind fun addr _ => ?_
    refine (ensures_uint16 rfl (by omega)).bind fun count _ => ?_
    refine (ensures_index (by omega)).bind fun byteCount _ => ?_
    split
    · trivial
    · refine (writeBits_safe _ _ _ _ _).bind fun coils _ => ?_
      exact (echo_safe _ _ _).bind fun _ _ => trivial

/-- Several registers are read only if all of them are there. -/
theorem handleWriteMultipleRegisters_safe (s : RegisterStore) (pdu : Bytes) :
    (handleWriteMultipleRegisters s pdu).Safe := by
  rw [handleWriteMultipleRegisters]
  split
  · trivial
  next hlong =>
    refine (ensures_uint16 rfl (by omega)).bind fun addr _ => ?_
    refine (ensures_uint16 rfl (by omega)).bind fun count _ => ?_
    split
    · trivial
    next hneeded =>
      refine Ensures.bind (P := fun _ => True) ?_ fun holding _ => ?_
      · refine ensures_foldlM ?_ trivial
        intro i hi holding _
        rw [List.mem_range] at hi
        exact (ensures_uint16 (by omega) (by omega)).bind fun _ _ => trivial
      · exact (echo_safe _ _ _).bind fun _ _ => trivial

/-- No request makes the server panic once it has a frame. -/
theorem handlePDU_safe (s : RegisterStore) (pdu : Bytes) : (handlePDU s pdu).Safe := by
  cases pdu with
  | nil => trivial
  | cons fc rest =>
    have hne : fc :: rest ≠ [] := List.cons_ne_nil _ _
    rw [handlePDU]
    split
    · exact (handleReadBits_safe s hne true).bind fun _ _ => trivial
    split
    · exact (handleReadBits_safe s hne false).bind fun _ _ => trivial
    split
    · exact (handleReadWords_safe s hne true).bind fun _ _ => trivial
    split
    · exact (handleReadWords_safe s hne false).bind fun _ _ => trivial
    split
    · exact handleWriteSingleCoil_safe s _
    split
    · exact handleWriteSingleRegister_safe s _
    split
    · exact handleWriteMultipleCoils_safe s _
    split
    · exact handleWriteMultipleRegisters_safe s _
    · trivial

theorem responseFrame_safe (request : Frame) (response : Bytes) :
    (responseFrame request response).Safe := by
  refine (ensures_makeSlice (by omega)).bind fun frame hframe => ?_
  refine (ensures_putUint16 (by omega) (by omega)).bind fun frame₁ h₁ => ?_
  refine (ensures_putUint16 (by omega) (by omega)).bind fun frame₂ h₂ => ?_
  refine (ensures_putUint16 (by omega) (by omega)).bind fun frame₃ h₃ => ?_
  refine (ensures_assign (by omega)).bind fun frame₄ h₄ => ?_
  exact (ensures_copyFrom (by omega)).safe

theorem respond_ensures (writeOK : Nat → Bool) (ctx : WriteContext) (c : Connection)
    (request : Frame) :
    (respond writeOK ctx c request).Ensures fun r => r.closed = !writeOK c.sent.length := by
  refine (handlePDU_safe c.store request.pdu).bind fun handled _ => ?_
  exact (responseFrame_safe request handled.response).bind fun frame _ => rfl

/-! ## The frames of a stream -/

def IsFrame (f : Bytes) : Prop := 7 ≤ f.length ∧ f.length = 6 + lengthField f

/-- The buffer does not yet hold the frame that it begins with. -/
def Waiting (buf : Bytes) : Prop := buf.length < 7 ∨ buf.length < 6 + lengthField buf

/-- The stream is a sequence of frames followed by a header whose length field is zero. -/
def ReachesZeroLength (stream : Bytes) : Prop :=
  ∃ (frames : List Bytes) (rest : Bytes), (∀ f ∈ frames, IsFrame f) ∧
    stream = frames.flatten ++ rest ∧ 7 ≤ rest.length ∧ lengthField rest = 0

theorem lengthField_append {a : Bytes} (h : 6 ≤ a.length) (b : Bytes) :
    lengthField (a ++ b) = lengthField a := by
  have hlength : 2 ≤ (a.drop 4).length := by
    rw [List.length_drop]
    omega
  rw [lengthField, lengthField, List.drop_append_of_le_length (by omega),
    List.take_append_of_le_length hlength]

theorem IsFrame.append_inj {f g s t : Bytes} (hf : IsFrame f) (hg : IsFrame g)
    (h : f ++ s = g ++ t) : f = g ∧ s = t := by
  have hfield : lengthField f = lengthField g := by
    rw [← lengthField_append (by have := hf.1; omega) s, h,
      lengthField_append (by have := hg.1; omega)]
  exact List.append_inj h (by rw [hf.2, hg.2, hfield])

theorem ReachesZeroLength.append {s : Bytes} (h : ReachesZeroLength s) (t : Bytes) :
    ReachesZeroLength (s ++ t) := by
  obtain ⟨frames, rest, hframes, rfl, hlong, hzero⟩ := h
  refine ⟨frames, rest ++ t, hframes, List.append_assoc _ _ _, ?_, ?_⟩
  · rw [List.length_append]
    omega
  · rw [lengthField_append (by omega), hzero]

/-- A frame at the front does not matter. -/
theorem reachesZeroLength_frame {f : Bytes} (hf : IsFrame f) (s : Bytes) :
    ReachesZeroLength (f ++ s) ↔ ReachesZeroLength s := by
  constructor
  · rintro ⟨frames, rest, hframes, hstream, hlong, hzero⟩
    cases frames with
    | nil =>
      have hfield : lengthField (f ++ s) = lengthField f :=
        lengthField_append (by have := hf.1; omega) s
      have hlength := hf.2
      have := hf.1
      rw [hstream, List.flatten_nil, List.nil_append, hzero] at hfield
      omega
    | cons g frames =>
      rw [List.flatten_cons, List.append_assoc] at hstream
      obtain ⟨-, rfl⟩ := hf.append_inj (hframes g (by simp)) hstream
      exact ⟨frames, rest, fun f hf => hframes f (by simp [hf]), rfl, hlong, hzero⟩
  · rintro ⟨frames, rest, hframes, rfl, hlong, hzero⟩
    refine ⟨f :: frames, rest, ?_, by simp, hlong, hzero⟩
    simpa using ⟨hf, hframes⟩

theorem reachesZeroLength_frames {frames : List Bytes} (hframes : ∀ f ∈ frames, IsFrame f)
    (s : Bytes) : ReachesZeroLength (frames.flatten ++ s) ↔ ReachesZeroLength s := by
  induction frames with
  | nil => simp
  | cons f frames ih =>
    rw [List.flatten_cons, List.append_assoc, reachesZeroLength_frame (hframes f (by simp)),
      ih fun g hg => hframes g (by simp [hg])]

/-- What waits for more bytes has no frame of length zero at its front. -/
theorem Waiting.not_reachesZeroLength {buf : Bytes} (h : Waiting buf) : ¬ReachesZeroLength buf := by
  rintro ⟨frames, rest, hframes, rfl, hlong, hzero⟩
  cases frames with
  | nil =>
    simp only [Waiting, List.flatten_nil, List.nil_append, hzero] at h
    omega
  | cons f frames =>
    obtain ⟨hf, hlength⟩ := hframes f (by simp)
    rw [Waiting, List.flatten_cons, List.append_assoc, lengthField_append (by omega),
      List.length_append] at h
    omega

/-- Taking a frame waits, panics on a length field of zero, or splits a frame off. -/
theorem takeFrame_cases (buf : Bytes) :
    (Waiting buf ∧ takeFrame buf = .ok none) ∨
    (7 ≤ buf.length ∧ lengthField buf = 0 ∧ takeFrame buf = .panic (.makeLen (-1))) ∨
    ∃ f frame rest, IsFrame f ∧ buf = f ++ rest ∧ takeFrame buf = .ok (some (frame, rest)) := by
  by_cases hlong : 7 ≤ buf.length
  · rw [takeFrame_eq hlong]
    by_cases hwait : buf.length < 6 + lengthField buf
    · exact .inl ⟨.inr hwait, if_pos hwait⟩
    rw [if_neg hwait]
    by_cases hzero : lengthField buf = 0
    · exact .inr (.inl ⟨hlong, hzero, if_pos hzero⟩)
    rw [if_neg hzero]
    have hlength : (buf.take (6 + lengthField buf)).length = 6 + lengthField buf := by
      rw [List.length_take]
      omega
    have hfield : lengthField (buf.take (6 + lengthField buf)) = lengthField buf := by
      rw [← lengthField_append (by omega) (buf.drop (6 + lengthField buf)), List.take_append_drop]
    refine .inr (.inr ⟨buf.take (6 + lengthField buf), _, _, ⟨?_, ?_⟩, ?_, rfl⟩)
    · omega
    · rw [hfield, hlength]
    · rw [List.take_append_drop]
  · refine .inl ⟨.inl (by omega), ?_⟩
    rw [takeFrame, if_pos (by omega)]

theorem takeFrame_none {buf : Bytes} (h : takeFrame buf = .ok none) : Waiting buf := by
  obtain ⟨hwait, -⟩ | ⟨-, -, h'⟩ | ⟨_, _, _, -, -, h'⟩ := takeFrame_cases buf
  · exact hwait
  · cases h.symm.trans h'
  · cases h.symm.trans h'

theorem takeFrame_panic {buf : Bytes} {p : Panic} (h : takeFrame buf = .panic p) :
    ReachesZeroLength buf := by
  obtain ⟨-, h'⟩ | ⟨hlong, hzero, -⟩ | ⟨_, _, _, -, -, h'⟩ := takeFrame_cases buf
  · cases h.symm.trans h'
  · exact ⟨[], buf, by simp, by simp, hlong, hzero⟩
  · cases h.symm.trans h'

theorem takeFrame_frame {buf rest : Bytes} {frame : Frame}
    (h : takeFrame buf = .ok (some (frame, rest))) : ∃ f, IsFrame f ∧ buf = f ++ rest := by
  obtain ⟨-, h'⟩ | ⟨-, -, h'⟩ | ⟨f, _, _, hf, hbuf, h'⟩ := takeFrame_cases buf
  · cases h.symm.trans h'
  · cases h.symm.trans h'
  · cases h.symm.trans h'
    exact ⟨f, hf, hbuf⟩

/-! ## The loops -/

variable (unitID : Int) (ctx : WriteContext)

/-- What the loop leaves of a buffer: the frames are gone, or a write failed. -/
def Drained (writeOK : Nat → Bool) (buf : Bytes) (r : Connection) : Prop :=
  (r.closed = true ∧ ∃ n, writeOK n = false) ∨
  (r.closed = false ∧ ∃ frames : List Bytes, (∀ f ∈ frames, IsFrame f) ∧
    buf = frames.flatten ++ r.buf ∧ Waiting r.buf)

theorem Drained.frame {writeOK : Nat → Bool} {f rest : Bytes} {r : Connection} (hf : IsFrame f)
    (h : Drained writeOK rest r) : Drained writeOK (f ++ rest) r := by
  obtain hclosed | ⟨hopen, frames, hframes, rfl, hwait⟩ := h
  · exact .inl hclosed
  · refine .inr ⟨hopen, f :: frames, ?_, by simp, hwait⟩
    simpa using ⟨hf, hframes⟩

/-- Without such a frame all that is complete is answered, and the rest waits. -/
theorem processFrames_ensures (writeOK : Nat → Bool) (c : Connection) (hc : c.closed = false)
    (h : ¬ReachesZeroLength c.buf) :
    (processFrames writeOK unitID ctx c).Ensures (Drained writeOK c.buf) := by
  fun_induction processFrames writeOK unitID ctx c with
  | case1 c p hpanic => exact h (takeFrame_panic hpanic)
  | case2 c hnone => exact .inr ⟨hc, [], by simp, by simp, takeFrame_none hnone⟩
  | case3 c request rest hsome hother ih =>
    obtain ⟨f, hf, hbuf⟩ := takeFrame_frame hsome
    rw [hbuf, reachesZeroLength_frame hf] at h
    rw [hbuf]
    exact (ih hc h).imp fun r hr => hr.frame hf
  | case4 c request rest hsome hours p hrespond =>
    have hsafe := respond_ensures writeOK ctx c request
    rw [hrespond] at hsafe
    exact hsafe
  | case5 c request rest hsome hours answered hrespond hclosed =>
    have hwrite := respond_ensures writeOK ctx c request
    rw [hrespond, ensures_ok, hclosed] at hwrite
    exact .inl ⟨hclosed, _, by simpa using hwrite.symm⟩
  | case6 c request rest hsome hours answered hrespond hopen ih =>
    obtain ⟨f, hf, hbuf⟩ := takeFrame_frame hsome
    rw [hbuf, reachesZeroLength_frame hf] at h
    rw [hbuf]
    exact (ih (by simpa using hopen) h).imp fun r hr => hr.frame hf

/-- With one the loop panics, if the answers before it can be sent. -/
theorem processFrames_panics {writeOK : Nat → Bool} (hwrite : ∀ n, writeOK n = true)
    (c : Connection) (h : ReachesZeroLength c.buf) :
    ¬(processFrames writeOK unitID ctx c).Safe := by
  fun_induction processFrames writeOK unitID ctx c with
  | case1 c p hpanic => exact id
  | case2 c hnone => exact absurd h (takeFrame_none hnone).not_reachesZeroLength
  | case3 c request rest hsome hother ih =>
    obtain ⟨f, hf, hbuf⟩ := takeFrame_frame hsome
    rw [hbuf, reachesZeroLength_frame hf] at h
    exact ih h
  | case4 c request rest hsome hours p hrespond => exact id
  | case5 c request rest hsome hours answered hrespond hclosed =>
    have hopen := respond_ensures writeOK ctx c request
    rw [hrespond, ensures_ok, hwrite, hclosed] at hopen
    cases hopen
  | case6 c request rest hsome hours answered hrespond hopen ih =>
    obtain ⟨f, hf, hbuf⟩ := takeFrame_frame hsome
    rw [hbuf, reachesZeroLength_frame hf] at h
    exact ih h

/-- A stream without a frame of length zero is served to its end. -/
theorem handleConnection_safe (writeOK : Nat → Bool) (c : Connection) (hc : c.closed = false)
    (chunks : List Bytes) (h : ¬ReachesZeroLength (c.buf ++ chunks.flatten)) :
    (handleConnection writeOK unitID ctx c chunks).Safe := by
  induction chunks generalizing c with
  | nil => trivial
  | cons chunk chunks ih =>
    rw [List.flatten_cons, ← List.append_assoc] at h
    have hnow : ¬ReachesZeroLength (c.buf ++ chunk) := fun h' => h (h'.append _)
    refine (processFrames_ensures unitID ctx writeOK { c with buf := c.buf ++ chunk } hc
      hnow).bind ?_
    rintro r (⟨hclosed, -⟩ | ⟨hopen, frames, hframes, hbuf, -⟩)
    · rw [if_pos hclosed]
      trivial
    · dsimp only at hbuf
      rw [hbuf, List.append_assoc, reachesZeroLength_frames hframes] at h
      rw [if_neg (by simp [hopen])]
      exact ih r hopen h

/-- A stream with one ends in a panic. -/
theorem handleConnection_panics {writeOK : Nat → Bool} (hwrite : ∀ n, writeOK n = true)
    (c : Connection) (hc : c.closed = false) (hwait : Waiting c.buf) (chunks : List Bytes)
    (h : ReachesZeroLength (c.buf ++ chunks.flatten)) :
    ¬(handleConnection writeOK unitID ctx c chunks).Safe := by
  induction chunks generalizing c with
  | nil =>
    rw [List.flatten_nil, List.append_nil] at h
    exact absurd h hwait.not_reachesZeroLength
  | cons chunk chunks ih =>
    rw [List.flatten_cons, ← List.append_assoc] at h
    rw [handleConnection]
    by_cases hnow : ReachesZeroLength (c.buf ++ chunk)
    · exact not_safe_bind (processFrames_panics unitID ctx hwrite _ hnow)
    · obtain ⟨r, hr, hdrained⟩ := (processFrames_ensures unitID ctx writeOK
        { c with buf := c.buf ++ chunk } hc hnow).exists_ok
      obtain ⟨-, n, hn⟩ | ⟨hopen, frames, hframes, hbuf, hwait'⟩ := hdrained
      · simp [hwrite n] at hn
      · dsimp only at hbuf
        rw [hbuf, List.append_assoc, reachesZeroLength_frames hframes] at h
        rw [hr, ok_bind, if_neg (by simp [hopen])]
        exact ih r hopen hwait' h

/-- The server never panics on a stream, whatever the writes do, exactly when the stream
does not come to a length field of zero. -/
theorem handleConnection_safe_iff (store : RegisterStore) (chunks : List Bytes) :
    (∀ writeOK, (handleConnection writeOK unitID ctx { store := store } chunks).Safe) ↔
      ¬ReachesZeroLength chunks.flatten := by
  constructor
  · intro h hzero
    exact handleConnection_panics unitID ctx (fun _ => rfl) { store := store } rfl
      (.inl (by simp)) chunks (by simpa using hzero) (h fun _ => true)
  · intro h writeOK
    exact handleConnection_safe unitID ctx writeOK _ rfl chunks (by simpa using h)

/-- Seven zero bytes are enough to make the server panic. -/
theorem handleConnection_panics_on_zeros :
    ¬∀ (unitID : Int) (ctx : WriteContext) (store : RegisterStore) (chunks : List Bytes) writeOK,
      (handleConnection writeOK unitID ctx { store := store } chunks).Safe := by
  intro h
  have hzero : ReachesZeroLength [[0, 0, 0, 0, 0, 0, 0]].flatten :=
    ⟨[], [0, 0, 0, 0, 0, 0, 0], by simp, rfl, by decide, by decide⟩
  exact handleConnection_panics 1 ⟨"modbus-server", "d", "plc", 0⟩ (fun _ => rfl) { store := {} }
    rfl (.inl (by simp)) [[0, 0, 0, 0, 0, 0, 0]] hzero (h _ _ _ _ fun _ => true)

end ModbusServer
