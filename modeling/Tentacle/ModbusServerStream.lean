import Tentacle.ModbusServerSafety

/-!
# The stream of a Modbus connection

The frame loop works on whatever the reads have brought so far. What it answers and what
it leaves in the store depends on the bytes of the stream only: reading more bytes and
then running the loop is running the loop, reading, and running it again.
-/

namespace ModbusServer

open GoValues GoSlices BigEndian Outcome

/-! ## One frame -/

/-- More bytes behind a complete frame change nothing but the rest. -/
theorem takeFrame_append {buf rest : Bytes} {frame : Frame}
    (h : takeFrame buf = .ok (some (frame, rest))) (t : Bytes) :
    takeFrame (buf ++ t) = .ok (some (frame, rest ++ t)) := by
  by_cases hlong : 7 ≤ buf.length
  · have hlong' : 7 ≤ (buf ++ t).length := by
      rw [List.length_append]
      omega
    rw [takeFrame_eq hlong] at h
    rw [takeFrame_eq hlong', lengthField_append (by omega), List.length_append]
    split at h
    · cases h
    next hcomplete =>
      split at h
      · cases h
      next hpos =>
        cases h
        rw [if_neg (by omega), if_neg hpos, List.take_append_of_le_length (by omega),
          List.take_append_of_le_length (by omega), List.drop_append_of_le_length (by omega),
          List.getElem_append_left]
  · rw [takeFrame, if_pos (by omega)] at h
    cases h

theorem takeFrame_of_waiting {buf : Bytes} (h : Waiting buf) : takeFrame buf = .ok none := by
  obtain ⟨-, h'⟩ | ⟨hlong, hzero, -⟩ | ⟨f, frame, rest, hf, hbuf, -⟩ := takeFrame_cases buf
  · exact h'
  · rw [Waiting] at h
    omega
  · have hlong := hf.1
    have hlength := hf.2
    rw [hbuf, Waiting, lengthField_append (by omega), List.length_append] at h
    omega

/-- Further bytes do not take a panic back. -/
theorem takeFrame_panic_append {buf : Bytes} {p : Panic} (h : takeFrame buf = .panic p)
    (t : Bytes) : takeFrame (buf ++ t) = .panic p := by
  obtain ⟨-, h'⟩ | ⟨hlong, hzero, h'⟩ | ⟨_, _, _, -, -, h'⟩ := takeFrame_cases buf
  · cases h.symm.trans h'
  · cases h.symm.trans h'
    have hlong' : 7 ≤ (buf ++ t).length := by
      rw [List.length_append]
      omega
    rw [takeFrame_eq hlong', lengthField_append (by omega), hzero, if_neg (by omega), if_pos rfl]
  · cases h.symm.trans h'

theorem map_ok {α β : Type} (f : α → β) (a : α) : f <$> (ok a : Go α) = ok (f a) := rfl

variable (writeOK : Nat → Bool) (unitID : Int) (ctx : WriteContext)

/-- The answer does not look at the buffer. -/
theorem respond_buf (c : Connection) (buf : Bytes) (request : Frame) :
    respond writeOK ctx { c with buf := buf } request =
      (fun r => { r with buf := buf }) <$> respond writeOK ctx c request := by
  simp only [respond]
  cases handlePDU c.store request.pdu with
  | panic p => rfl
  | err e => exact e.elim
  | ok handled =>
    simp only [ok_bind]
    cases responseFrame request handled.response with
    | panic p => rfl
    | err e => exact e.elim
    | ok frame => rfl

/-! ## The loop and the bytes that come later -/

/-- What the client, the bus and the device see of a connection: all but its buffer. -/
def Connection.observed (c : Connection) : Connection := { c with buf := [] }

/-- The loop at the head of a buffer, one frame at a time. -/
theorem processFrames_frame {c : Connection} {request : Frame} {rest : Bytes}
    (h : takeFrame c.buf = .ok (some (request, rest))) :
    processFrames writeOK unitID ctx c =
      if (request.reqUnitID.toNat : Int) ≠ unitID ∧ request.reqUnitID ≠ 0 then
        processFrames writeOK unitID ctx { c with buf := rest }
      else (do
        let answered ← respond writeOK ctx c request
        if answered.closed then return { answered with buf := rest }
        processFrames writeOK unitID ctx { answered with buf := rest }) := by
  rw [processFrames]
  split
  next hpanic => cases h.symm.trans hpanic
  next hnone => cases h.symm.trans hnone
  next request' rest' hsome =>
    cases h.symm.trans hsome
    split
    · rfl
    · cases respond writeOK ctx c request with
      | panic p => rfl
      | err e => exact e.elim
      | ok answered => rfl

theorem processFrames_waiting {c : Connection} (h : takeFrame c.buf = .ok none) :
    processFrames writeOK unitID ctx c = .ok c := by
  rw [processFrames]
  split
  next hpanic => cases h.symm.trans hpanic
  next => rfl
  next hsome => cases h.symm.trans hsome

theorem processFrames_panic {c : Connection} {p : Panic} (h : takeFrame c.buf = .panic p) :
    processFrames writeOK unitID ctx c = .panic p := by
  rw [processFrames]
  split
  next hpanic => exact congrArg _ (by cases h.symm.trans hpanic; rfl)
  next hnone => cases h.symm.trans hnone
  next hsome => cases h.symm.trans hsome

/-- Running the loop on a buffer and then on what it leaves with more bytes behind it is
running it on all the bytes at once. -/
theorem processFrames_append (c : Connection) (hc : c.closed = false) (t : Bytes) :
    Connection.observed <$> processFrames writeOK unitID ctx { c with buf := c.buf ++ t } = (do
      let r ← processFrames writeOK unitID ctx c
      if r.closed then return r.observed
      Connection.observed <$> processFrames writeOK unitID ctx { r with buf := r.buf ++ t }) := by
  fun_induction processFrames writeOK unitID ctx c with
  | case1 c p hpanic =>
    rw [processFrames_panic writeOK unitID ctx (takeFrame_panic_append hpanic t)]
    rfl
  | case2 c hnone => rw [ok_bind, if_neg (by simp [hc])]
  | case3 c request rest hsome hother ih =>
    rw [processFrames_frame writeOK unitID ctx (takeFrame_append hsome t), if_pos hother]
    exact ih hc
  | case4 c request rest hsome hours p hrespond =>
    rw [processFrames_frame writeOK unitID ctx (takeFrame_append hsome t), if_neg hours,
      respond_buf, hrespond]
    rfl
  | case5 c request rest hsome hours answered hrespond hclosed =>
    rw [processFrames_frame writeOK unitID ctx (takeFrame_append hsome t), if_neg hours,
      respond_buf, hrespond, map_ok, ok_bind, ok_bind, if_pos hclosed, if_pos hclosed]
    rfl
  | case6 c request rest hsome hours answered hrespond hopen ih =>
    rw [processFrames_frame writeOK unitID ctx (takeFrame_append hsome t), if_neg hours,
      respond_buf, hrespond, map_ok, ok_bind, if_neg hopen]
    exact ih (by simpa using hopen)

/-- However the stream is cut into reads, the connection comes to what the loop makes of
the whole of it. -/
theorem handleConnection_observed (c : Connection) (hc : c.closed = false)
    (hwait : Waiting c.buf) (chunks : List Bytes)
    (h : ¬ReachesZeroLength (c.buf ++ chunks.flatten)) :
    Connection.observed <$> handleConnection writeOK unitID ctx c chunks =
      Connection.observed <$>
        processFrames writeOK unitID ctx { c with buf := c.buf ++ chunks.flatten } := by
  induction chunks generalizing c with
  | nil =>
    have hnone : takeFrame (c.buf ++ ([] : List Bytes).flatten) = .ok none := by
      rw [List.flatten_nil, List.append_nil, takeFrame_of_waiting hwait]
    rw [processFrames_waiting writeOK unitID ctx hnone]
    rfl
  | cons chunk chunks ih =>
    rw [List.flatten_cons, ← List.append_assoc] at h ⊢
    have hnow : ¬ReachesZeroLength (c.buf ++ chunk) := fun h' => h (h'.append _)
    obtain ⟨r, hr, hdrained⟩ := (processFrames_ensures unitID ctx writeOK
      { c with buf := c.buf ++ chunk } hc hnow).exists_ok
    rw [handleConnection, hr, ok_bind,
      processFrames_append writeOK unitID ctx { c with buf := c.buf ++ chunk } hc, hr, ok_bind]
    obtain ⟨hclosed, -⟩ | ⟨hopen, frames, hframes, hbuf, hwait'⟩ := hdrained
    · rw [if_pos hclosed, if_pos hclosed]
      rfl
    · dsimp only at hbuf
      rw [hbuf, List.append_assoc, reachesZeroLength_frames hframes] at h
      rw [if_neg (by simp [hopen]), if_neg (by simp [hopen])]
      exact ih r hopen hwait' h

/-! ## The stream decides -/

/-- A stream of complete frames and an incomplete rest gets the same responses, in the
same order, and leaves the same store and the same commands on the bus, however it is cut
into reads and whichever write fails. -/
theorem handleConnection_chunking (store : RegisterStore) (frames : List Bytes) (rest : Bytes)
    (hframes : ∀ f ∈ frames, IsFrame f) (hrest : Waiting rest) :
    ∃ (sent : List Bytes) (final : RegisterStore) (published : List Command),
      ∀ chunks : List Bytes, chunks.flatten = frames.flatten ++ rest →
        ∃ r, handleConnection writeOK unitID ctx { store := store } chunks = .ok r ∧
          r.sent = sent ∧ r.store = final ∧ r.published = published := by
  have hzero : ¬ReachesZeroLength (frames.flatten ++ rest) := by
    rw [reachesZeroLength_frames hframes]
    exact hrest.not_reachesZeroLength
  obtain ⟨whole, hwhole, -⟩ := (processFrames_ensures unitID ctx writeOK
    { buf := frames.flatten ++ rest, store := store } rfl hzero).exists_ok
  refine ⟨whole.sent, whole.store, whole.published, ?_⟩
  intro chunks hchunks
  have hsafe := handleConnection_safe unitID ctx writeOK { store := store } rfl chunks
    (by rwa [List.nil_append, hchunks])
  obtain ⟨r, hr, -⟩ := hsafe.exists_ok
  have hsame := handleConnection_observed writeOK unitID ctx { store := store } rfl
    (.inl (by simp)) chunks (by rwa [List.nil_append, hchunks])
  rw [hr, List.nil_append, hchunks, hwhole, map_ok, map_ok] at hsame
  injection hsame with hobserved
  simp only [Connection.observed, Connection.mk.injEq, true_and] at hobserved
  obtain ⟨hstore, hsent, hpublished, -⟩ := hobserved
  exact ⟨r, hr, hsent, hstore, hpublished⟩

/-- Switching a coil on, and the first byte of a further request. -/
theorem handleConnection_chunking_coil :
    ∃ (sent : List Bytes) (final : RegisterStore) (published : List Command),
      ∀ chunks : List Bytes,
        chunks.flatten = [[0, 1, 0, 0, 0, 6, 1, 0x05, 0, 7, 0xFF, 0]].flatten ++ [0] →
        ∃ r, handleConnection (fun _ => true) 1 ⟨"modbus-server", "d", "plc", 0⟩ { store := {} }
            chunks = .ok r ∧
          r.sent = sent ∧ r.store = final ∧ r.published = published :=
  handleConnection_chunking (fun _ => true) 1 ⟨"modbus-server", "d", "plc", 0⟩ {}
    [[0, 1, 0, 0, 0, 6, 1, 0x05, 0, 7, 0xFF, 0]] [0]
    (by simp [IsFrame, lengthField, uint]) (.inl (by decide))

end ModbusServer
