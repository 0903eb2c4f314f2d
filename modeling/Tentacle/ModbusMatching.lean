import Tentacle.ModbusClient

/-!
# Responses of the Modbus client and their requests

The frame that is taken as the response of a request should be the device's reply
to that request. It is as long as a request finds nothing of an earlier reply and
the device answers nothing else while the request waits. A command that times out
leaves its connection open, so a later request may find the late reply.
-/

namespace ModbusMatching

open GoValues Runs ModbusClient

/-- What the client has not taken from the connection. -/
def unread (s : ClientState) : Bytes := s.readBuf ++ s.incoming

theorem unread_arrive (s : ClientState) (bytes : Bytes) :
    s.readBuf ++ (s.incoming ++ bytes) = unread s ++ bytes := by
  rw [unread, List.append_assoc]

theorem unread_read (s : ClientState) (n : Nat) :
    s.readBuf ++ s.incoming.take n ++ s.incoming.drop n = unread s := by
  rw [List.append_assoc, List.take_append_drop, unread]

/-- The bytes are one frame with the transaction ID of the request. -/
def Answers (r : Request) (reply : Bytes) : Prop :=
  ∃ frame, decodeMBAPResponse reply = .ok (frame, reply.length) ∧ frame.transactionID = r.txnID

/-- Each accepted frame has the transaction ID of the request it was accepted for,
and it is the frame that the device has sent in reply to that request. -/
def Matched (s : ClientState) : Prop :=
  ∀ e ∈ s.accepted, e.2.transactionID = e.1.txnID ∧
    ∃ reply, (e.1, reply) ∈ s.replies ∧ decodeMBAPResponse reply = .ok (e.2, reply.length)

/-- A request finds no bytes of an earlier reply, and while it waits the device
answers no other request. -/
def punctual (s : ClientState) : ClientAction → Prop
  | .send _ _ => unread s = []
  | .answer i _ _ _ => ∀ q ∈ s.pending[i]?, ∀ r ∈ s.current, q = r
  | _ => True

instance punctual.decidable (s : ClientState) : (act : ClientAction) → Decidable (punctual s act)
  | .send _ _ => inferInstanceAs (Decidable (unread s = []))
  | .answer i _ _ _ => inferInstanceAs (Decidable (∀ q ∈ s.pending[i]?, ∀ r ∈ s.current, q = r))
  | .connect | .writeError _ _ _ | .read _ | .accept | .readError | .disconnect | .stop =>
    isTrue trivial

section Invariant

variable {unitID : UInt8} {s t : ClientState} {act : ClientAction}

/-- Nothing has come for the request, or its reply has and is first in line. -/
structure Waiting (unitID : UInt8) (s : ClientState) (r : Request) : Prop where
  encoded : ∃ pdu, r.frame = encodeMBAPRequest r.txnID unitID pdu
  first : unread s = [] ∨
    ∃ reply more, (r, reply) ∈ s.replies ∧ Answers r reply ∧ unread s = reply ++ more

structure Inv (unitID : UInt8) (s : ClientState) : Prop where
  matched : Matched s
  waiting : ∀ r ∈ s.current, Waiting unitID s r

/-- A frame with the header of the request answers it. -/
theorem answers_responseFrame {r : Request}
    (h : ∃ pdu, r.frame = encodeMBAPRequest r.txnID unitID pdu) (unit functionCode : UInt8)
    {data : Bytes} (hdata : data.length + 2 < 65536) :
    Answers r (responseFrame r.frame unit functionCode data) := by
  obtain ⟨pdu, hframe⟩ := h
  have htake : r.frame.take 2 = BigEndian.putUint 2 r.txnID.toNat := by
    rw [hframe]
    rfl
  have hlength : 2 ≤ r.frame.length := by
    rw [hframe, encodeMBAPRequest]
    simp
  refine ⟨_, decodeMBAPResponse_responseFrame hlength unit functionCode hdata, ?_⟩
  rw [htake, BigEndian.uint_putUint_of_lt r.txnID.toNat_lt]
  exact UInt16.ofNat_toNat

/-- No request is left to wait: the next states have only the log to keep. -/
theorem Inv.idle (hmatched : Matched t) (hcurrent : t.current = none) : Inv unitID t :=
  ⟨hmatched, by simp [hcurrent]⟩

/-- The frame that the buffer starts with is the reply that the request waits for. -/
theorem Waiting.accept {r : Request} (hwait : Waiting unitID s r) {frame : MBAPFrame}
    {consumed : Nat} (hdecode : decodeMBAPResponse s.readBuf = .ok (frame, consumed)) :
    frame.transactionID = r.txnID ∧
      ∃ reply, (r, reply) ∈ s.replies ∧ decodeMBAPResponse reply = .ok (frame, reply.length) := by
  have hunread : decodeMBAPResponse (unread s) = .ok (frame, consumed) :=
    decodeMBAPResponse_append hdecode s.incoming
  rcases hwait.first with hnone | ⟨reply, more, hreply, ⟨frame', hframe', htxn⟩, hunread_eq⟩
  · rw [hnone] at hunread
    cases hunread
  · rw [hunread_eq, decodeMBAPResponse_append hframe'] at hunread
    cases hunread
    exact ⟨htxn, reply, hreply, hframe'⟩

/-- A punctual step keeps what is unread the answer to the request that waits. -/
theorem Inv.step (hinv : Inv unitID s) (hok : punctual s act)
    (hstep : step unitID s act = some t) : Inv unitID t := by
  cases act with
  | connect =>
    simp only [ModbusClient.step, Option.ite_none_right_eq_some, Option.some.injEq] at hstep
    obtain ⟨hfree, rfl⟩ := hstep
    exact Inv.idle hinv.matched (by simp_all [connect])
  | send caller pdu =>
    simp only [ModbusClient.step, Option.ite_none_right_eq_some, Option.some.injEq] at hstep
    obtain ⟨-, rfl⟩ := hstep
    refine ⟨hinv.matched, ?_⟩
    rintro r ⟨⟩
    exact ⟨⟨pdu, rfl⟩, .inl hok⟩
  | writeError caller pdu arrived =>
    simp only [ModbusClient.step, Option.ite_none_right_eq_some, Option.some.injEq] at hstep
    obtain ⟨-, rfl⟩ := hstep
    exact Inv.idle hinv.matched rfl
  | answer i unit functionCode data =>
    simp only [ModbusClient.step, Option.ite_none_right_eq_some, Option.map_eq_some_iff] at hstep
    obtain ⟨hdata, q, hq, rfl⟩ := hstep
    refine ⟨?_, ?_⟩
    · intro e he
      obtain ⟨htxn, reply, hreply, hdecode⟩ := hinv.matched e he
      exact ⟨htxn, reply, List.mem_append_left _ hreply, hdecode⟩
    · intro r hr
      obtain ⟨hencoded, hfirst⟩ := hinv.waiting r hr
      cases hok q hq r hr
      refine ⟨hencoded, .inr ?_⟩
      rcases hfirst with hnone | ⟨reply, more, hreply, hanswers, hunread⟩
      · refine ⟨_, [], List.mem_append_right _ (List.mem_singleton_self _),
          answers_responseFrame hencoded unit functionCode hdata, ?_⟩
        rw [unread, unread_arrive s, hnone, List.nil_append, List.append_nil]
      · refine ⟨reply, more ++ responseFrame q.frame unit functionCode data,
          List.mem_append_left _ hreply, hanswers, ?_⟩
        rw [unread, unread_arrive s, hunread, List.append_assoc]
  | read n =>
    simp only [ModbusClient.step, Option.ite_none_right_eq_some, Option.some.injEq] at hstep
    obtain ⟨-, rfl⟩ := hstep
    refine ⟨hinv.matched, ?_⟩
    intro r hr
    obtain ⟨hencoded, hfirst⟩ := hinv.waiting r hr
    rw [← unread_read s n] at hfirst
    exact ⟨hencoded, hfirst⟩
  | accept =>
    simp only [ModbusClient.step] at hstep
    split at hstep
    case h_1 r frame consumed hcurrent hdecode =>
      cases hstep
      have hmatch := (hinv.waiting r hcurrent).accept hdecode
      refine Inv.idle ?_ rfl
      intro e he
      rcases List.mem_append.mp he with he | he
      · exact hinv.matched e he
      · cases List.mem_singleton.mp he
        exact hmatch
    case h_2 => cases hstep
  | readError =>
    simp only [ModbusClient.step, Option.ite_none_right_eq_some, Option.map_eq_some_iff] at hstep
    obtain ⟨-, r, -, rfl⟩ := hstep
    exact Inv.idle hinv.matched rfl
  | disconnect =>
    simp only [ModbusClient.step, Option.ite_none_right_eq_some, Option.some.injEq] at hstep
    obtain ⟨hfree, rfl⟩ := hstep
    exact Inv.idle hinv.matched (by simp_all [disconnect])
  | stop =>
    simp only [ModbusClient.step, Option.ite_none_right_eq_some, Option.some.injEq] at hstep
    obtain ⟨-, rfl⟩ := hstep
    exact ⟨hinv.matched, fun r hr => ⟨(hinv.waiting r hr).encoded, .inl rfl⟩⟩

theorem Inv.run {acts : List ClientAction} (hok : Meets (ModbusClient.step unitID) punctual {} acts)
    (hrun : run (ModbusClient.step unitID) {} acts = some s) : Inv unitID s :=
  run_invariant (fun _ _ _ hinv hok hstep => Inv.step hinv hok hstep)
    (Inv.idle (by simp [Matched]) rfl) hok hrun

/-- In every run in which each request finds the connection drained and is alone
with the device while it waits, each response is the reply to its request. -/
theorem punctual_runs_matched {acts : List ClientAction}
    (hok : Meets (step unitID) punctual {} acts)
    (hrun : run (step unitID) {} acts = some s) : Matched s :=
  (Inv.run hok hrun).matched

/-- No request is sent on a connection on which another one has ended without a
response. -/
def unfailed (s : ClientState) : ClientAction → Prop
  | .send _ _ => s.failed = false
  | _ => True

instance unfailed.decidable (s : ClientState) : (act : ClientAction) → Decidable (unfailed s act)
  | .send _ _ => inferInstanceAs (Decidable (s.failed = false))
  | .connect | .writeError _ _ _ | .answer _ _ _ _ | .read _ | .accept | .readError | .disconnect
  | .stop => isTrue trivial

/-- Nothing is on its way but what the waiting request is owed. -/
structure Orderly (unitID : UInt8) (s : ClientState) : Prop where
  closed : s.connected = false → s.pending = [] ∧ unread s = []
  idle : s.failed = false → s.current = none → s.pending = [] ∧ unread s = []
  waiting : ∀ r ∈ s.current, s.failed = false ∧
    ((s.pending = [] ∨ s.pending = [r]) ∧ unread s = [] ∨ s.pending = [] ∧ Answers r (unread s))
  encoded : ∀ r ∈ s.pending, ∃ pdu, r.frame = encodeMBAPRequest r.txnID unitID pdu

/-- A frame takes all that there is of a reply. -/
theorem unread_accept {r : Request} (hanswers : Answers r (unread s)) {frame : MBAPFrame}
    {consumed : Nat} (hdecode : decodeMBAPResponse s.readBuf = .ok (frame, consumed)) :
    s.readBuf.drop consumed = [] ∧ s.incoming = [] := by
  obtain ⟨frame', hframe', -⟩ := hanswers
  have hunread := decodeMBAPResponse_append hdecode s.incoming
  rw [← unread, hframe'] at hunread
  cases hunread
  have hle := consumed_le hdecode
  rw [unread, List.length_append] at hle ⊢
  exact ⟨List.drop_eq_nil_of_le (by omega), List.length_eq_zero_iff.mp (by omega)⟩

theorem Orderly.of_quiet (hpending : t.pending = []) (hunread : unread t = [])
    (hfailed : ∀ r ∈ t.current, t.failed = false) : Orderly unitID t where
  closed _ := ⟨hpending, hunread⟩
  idle _ _ := ⟨hpending, hunread⟩
  waiting r hr := ⟨hfailed r hr, .inl ⟨.inl hpending, hunread⟩⟩
  encoded := by simp [hpending]

/-- A step without a failure leaves nothing behind a request. -/
theorem Orderly.step (hinv : Orderly unitID s) (hok : unfailed s act)
    (hstep : step unitID s act = some t) : Orderly unitID t := by
  cases act with
  | connect =>
    simp only [ModbusClient.step, Option.ite_none_right_eq_some, Option.some.injEq] at hstep
    obtain ⟨hfree, rfl⟩ := hstep
    obtain ⟨hpending, hunread⟩ := hinv.closed (by simp_all)
    refine .of_quiet hpending ?_ (by simp_all [connect])
    exact (List.append_eq_nil_iff.mp hunread).2
  | send caller pdu =>
    simp only [ModbusClient.step, Option.ite_none_right_eq_some, Option.some.injEq] at hstep
    obtain ⟨hmay, rfl⟩ := hstep
    simp only [maySend, Bool.and_eq_true, Option.isNone_iff_eq_none] at hmay
    obtain ⟨hpending, hunread⟩ := hinv.idle hok hmay.1.2
    refine ⟨by simp [nextTxnID, hmay.1.1], by simp, ?_, ?_⟩
    · rintro r ⟨⟩
      exact ⟨hok, .inl ⟨.inr (by simp [hpending]), hunread⟩⟩
    · simp only [hpending, List.nil_append, List.mem_singleton, forall_eq]
      exact ⟨pdu, rfl⟩
  | writeError caller pdu arrived =>
    simp only [ModbusClient.step, Option.ite_none_right_eq_some, Option.some.injEq] at hstep
    obtain ⟨hmay, rfl⟩ := hstep
    simp only [maySend, Bool.and_eq_true] at hmay
    refine ⟨by simp [failRequest, nextTxnID, hmay.1.1], by simp [failRequest],
      by simp [failRequest], ?_⟩
    intro r hr
    cases arrived with
    | false => exact hinv.encoded r hr
    | true =>
      rcases List.mem_append.mp hr with hr | hr
      · exact hinv.encoded r hr
      · cases List.mem_singleton.mp hr
        exact ⟨pdu, rfl⟩
  | answer i unit functionCode data =>
    simp only [ModbusClient.step, Option.ite_none_right_eq_some, Option.map_eq_some_iff] at hstep
    obtain ⟨hdata, q, hq, rfl⟩ := hstep
    have hmem := List.mem_of_getElem? hq
    have hpending : s.pending ≠ [] := List.ne_nil_of_mem hmem
    refine ⟨fun h => absurd (hinv.closed h).1 hpending,
      fun hfailed hcurrent => absurd (hinv.idle hfailed hcurrent).1 hpending, ?_,
      fun r hr => hinv.encoded r (List.mem_of_mem_eraseIdx hr)⟩
    intro r hr
    obtain ⟨hfailed, hwait⟩ := hinv.waiting r hr
    rcases hwait with ⟨hempty | hone, hunread⟩ | ⟨hempty, -⟩
    · exact absurd hempty hpending
    · have hqr : q = r := by simpa [hone] using hmem
      have hi : i = 0 := by
        obtain ⟨hi, -⟩ := List.getElem?_eq_some_iff.mp hq
        simpa [hone] using hi
      refine ⟨hfailed, .inr ⟨by simp [hone, hi], ?_⟩⟩
      rw [unread, unread_arrive s, hunread, List.nil_append, ← hqr]
      exact answers_responseFrame (hinv.encoded q hmem) unit functionCode hdata
    · exact absurd hempty hpending
  | read n =>
    simp only [ModbusClient.step, Option.ite_none_right_eq_some, Option.some.injEq] at hstep
    obtain ⟨-, rfl⟩ := hstep
    obtain ⟨hclosed, hidle, hwaiting, hencoded⟩ := hinv
    rw [← unread_read s n] at hclosed hidle hwaiting
    exact ⟨hclosed, hidle, hwaiting, hencoded⟩
  | accept =>
    simp only [ModbusClient.step] at hstep
    split at hstep
    case h_1 r frame consumed hcurrent hdecode =>
      cases hstep
      rcases (hinv.waiting r hcurrent).2 with ⟨-, hunread⟩ | ⟨hpending, hanswers⟩
      · rw [(List.append_eq_nil_iff.mp hunread).1] at hdecode
        cases hdecode
      · refine .of_quiet hpending ?_ (by simp)
        exact List.append_eq_nil_iff.mpr (unread_accept hanswers hdecode)
    case h_2 => cases hstep
  | readError =>
    simp only [ModbusClient.step, Option.ite_none_right_eq_some, Option.map_eq_some_iff] at hstep
    obtain ⟨-, r, -, rfl⟩ := hstep
    exact ⟨hinv.closed, by simp [failRequest], by simp [failRequest], hinv.encoded⟩
  | disconnect =>
    simp only [ModbusClient.step, Option.ite_none_right_eq_some, Option.some.injEq] at hstep
    obtain ⟨-, rfl⟩ := hstep
    exact .of_quiet rfl rfl (fun _ _ => rfl)
  | stop =>
    simp only [ModbusClient.step, Option.ite_none_right_eq_some, Option.some.injEq] at hstep
    obtain ⟨-, rfl⟩ := hstep
    exact .of_quiet rfl rfl (fun _ _ => rfl)

/-- Where nothing has failed every request is punctual. -/
theorem Orderly.punctual (hinv : Orderly unitID s) (hok : unfailed s act)
    (hstep : ModbusClient.step unitID s act = some t) : punctual s act := by
  cases act with
  | send caller pdu =>
    simp only [ModbusClient.step, maySend] at hstep
    exact (hinv.idle hok (by simp_all)).2
  | answer i unit functionCode data =>
    intro q hq r hr
    have hpending := List.mem_of_getElem? hq
    rcases (hinv.waiting r hr).2 with ⟨hempty | hone, -⟩ | ⟨hempty, -⟩
    · simp [hempty] at hpending
    · simpa [hone] using hpending
    · simp [hempty] at hpending
  | connect | writeError _ _ _ | read _ | accept | readError | disconnect | stop => trivial

/-- The discipline of the poll loop is enough: where nothing is sent after a request
has failed, until the connection is closed, each response is the reply to its
request. -/
theorem unfailed_runs_matched {acts : List ClientAction}
    (hok : Meets (step unitID) unfailed {} acts)
    (hrun : run (step unitID) {} acts = some s) : Matched s := by
  have hstart : Orderly unitID {} := ⟨by simp [unread], by simp [unread], by simp, by simp⟩
  have hpunctual : Meets (step unitID) punctual {} acts :=
    hok.imp (fun _ _ _ hinv hok hstep => Orderly.step hinv hok hstep)
      (fun _ _ _ hinv hok hstep => Orderly.punctual hinv hok hstep) hstart hrun
  exact (Inv.run hpunctual hrun).matched

end Invariant

/-- A command is sent and answered, and then the poll loop reads twice. -/
def punctualSchedule : List ClientAction :=
  [.connect, .send .command [5, 0, 3, 255, 0], .answer 0 1 5 [0, 3, 255, 0], .read 5, .read 7,
    .accept, .send .poll [3, 0, 0, 0, 1], .answer 0 1 3 [2, 0, 7], .read 11, .accept]

theorem punctual_schedule_matched :
    ∃ s, run (step 1) {} punctualSchedule = some s ∧ s.accepted.length = 2 ∧ Matched s := by
  have hpunctual : Meets (step 1) punctual {} punctualSchedule := by decide
  exact ⟨_, rfl, by decide, punctual_runs_matched hpunctual rfl⟩

theorem unfailed_schedule_matched :
    ∃ s, run (step 1) {} punctualSchedule = some s ∧ s.accepted.length = 2 ∧ Matched s := by
  have hunfailed : Meets (step 1) unfailed {} punctualSchedule := by decide
  exact ⟨_, rfl, by decide, unfailed_runs_matched hunfailed rfl⟩

/-- The command times out, its reply comes later, and the poll loop takes it for the
reply to its read. -/
def lateSchedule : List ClientAction :=
  [.connect, .send .command [5, 0, 3, 255, 0], .readError, .answer 0 1 5 [0, 3, 255, 0],
    .send .poll [3, 0, 0, 0, 1], .read 12, .accept]

theorem late_schedule_not_matched :
    ∃ s, run (step 1) {} lateSchedule = some s ∧ ¬Matched s := by
  refine ⟨_, rfl, ?_⟩
  intro h
  exact absurd (h _ (List.mem_singleton_self _)).1 (by decide)

end ModbusMatching
