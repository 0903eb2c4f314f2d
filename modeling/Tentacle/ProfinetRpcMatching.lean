import Tentacle.ProfinetConnect
import Tentacle.ProfinetDevice

/-!
# Responses and the calls that they answer

The client numbers its requests and derives the activity UUID from the number; a device
returns both in its response. A call of `sendRPC` takes the first datagram that is on its
socket and looks at neither. A response that comes late, or twice, stays on the socket and
is taken by the next call.
-/

namespace ProfinetRpcMatching

open GoValues GoSlices BigEndian Outcome Runs
open ProfinetBlocks ProfinetRpc ProfinetAr ProfinetExpected ProfinetConnect
open ProfinetDevice (controlCmdPrmEnd controlCmdRelease)

/-! ## The calls -/

/-- `Connect`, `Control` and `Release`. -/
inductive Call where
  | connect (params : ConnectParams)
  | control (arUUID : UUID) (sessionKey controlCmd : UInt16)
  | release (arUUID : UUID) (sessionKey : UInt16)

def controlData (arUUID : UUID) (sessionKey controlCmd : UInt16) : Bytes :=
  arUUID.val ++ putUint 2 sessionKey.toNat ++ [0, 0] ++ putUint 2 controlCmd.toNat ++ [0, 0]

def Call.opNum : Call → UInt16
  | .connect _ => rpcOpConnect
  | .control _ _ _ => rpcOpControl
  | .release _ _ => rpcOpRelease

def Call.arUUID : Call → UUID
  | .connect params => params.arUUID
  | .control arUUID _ _ => arUUID
  | .release arUUID _ => arUUID

def Call.blocks : Call → Bytes
  | .connect params => connectBlocks params
  | .control arUUID sessionKey controlCmd =>
    marshalPNIOBlock
      (if controlCmd = controlCmdPrmEnd then blockTypeARRPCBlockReq else blockTypeIODControlReq)
      1 0 (controlData arUUID sessionKey controlCmd)
  | .release arUUID sessionKey =>
    marshalPNIOBlock blockTypeIODControlReq 1 0 (controlData arUUID sessionKey controlCmdRelease)

/-- The header that the call sends, and keeps. -/
def Call.header (c : Call) (seqNum : UInt32) : RPCHeader :=
  rpcHeader seqNum c.opNum c.arUUID
    (frameBlocks (ordered true (putUint 4 65536)) true c.blocks).length

/-! ## The client, the network and the device -/

/-- A datagram on the way to the client, and the number of the request that it answers. -/
structure Response where
  data : Bytes
  answers : Nat
  deriving DecidableEq

/-- The client with its socket, and the network. The requests are numbered by the calls; the
counter of the client holds the low 32 bits of the number. -/
structure Exchange where
  seqNum : UInt32 := 0
  calls : Nat := 0
  waiting : Option (Nat × RPCHeader) := none
  requests : List (Nat × Bytes) := []
  inFlight : List Response := []
  queue : List Response := []
  accepted : List (RPCHeader × Bytes) := []

/-- A device answers a request with its sequence number and its activity UUID; any other
datagram that it sends is no response. -/
def echoes (request response : Bytes) : Bool :=
  match parseRPCHeader request, parseRPCHeader response with
  | .ok req, .ok resp =>
    resp.packetType ≠ rpcPTypeResponse ∨
      (resp.sequenceNum = req.sequenceNum ∧ resp.activityUUID = req.activityUUID)
  | _, .ok resp => resp.packetType ≠ rpcPTypeResponse
  | _, _ => true

/-- A call begins and writes its request, or fails to; the device answers a request, the
network delivers a response, and keeps it to deliver it again, or never delivers it; the
call reads from its socket, or its deadline passes. -/
inductive Event where
  | call (c : Call)
  | callFails
  | serve (number : Nat) (data : Bytes)
  | deliver (r : Response)
  | receive
  | timeout

def beginCall [DatagramSocket] (x : Exchange) (c : Call) : Exchange :=
  let seqNum := x.seqNum + 1
  let x := { x with seqNum := seqNum, calls := x.calls + 1 }
  match sendRPC seqNum c.opNum c.arUUID c.blocks with
  | none => x
  | some pkt =>
    { x with
      waiting := some (x.calls, c.header seqNum)
      requests := (x.calls, pkt) :: x.requests }

/-- The call reads the datagram; an error ends it as well. -/
def endCall (x : Exchange) (header : RPCHeader) (r : Response) (rest : List Response) : Exchange :=
  match receiveRPC r.data with
  | .ok _ => { x with waiting := none, queue := rest, accepted := (header, r.data) :: x.accepted }
  | _ => { x with waiting := none, queue := rest }

def step [DatagramSocket] (x : Exchange) : Event → Option Exchange
  | .call c => if x.waiting.isNone then some (beginCall x c) else none
  | .callFails =>
    if x.waiting.isNone then some { x with seqNum := x.seqNum + 1, calls := x.calls + 1 } else none
  | .serve number data =>
    if x.requests.any fun r => r.1 = number ∧ echoes r.2 data then
      some { x with inFlight := ⟨data, number⟩ :: x.inFlight }
    else none
  | .deliver r => if r ∈ x.inFlight then some { x with queue := x.queue ++ [r] } else none
  | .receive =>
    match x.waiting, x.queue with
    | some (_, header), r :: rest => some (endCall x header r rest)
    | _, _ => none
  | .timeout => if x.waiting.isSome then some { x with waiting := none } else none

/-- The datagram has the sequence number and the activity UUID of the request. -/
def Answers (request : RPCHeader) (data : Bytes) : Prop :=
  ∃ resp, parseRPCHeader data = .ok resp ∧ resp.sequenceNum = request.sequenceNum ∧
    resp.activityUUID = request.activityUUID

/-- Each call that has taken a response has taken one to its own request. -/
def Matched (x : Exchange) : Prop := ∀ a ∈ x.accepted, Answers a.1 a.2

def isResponse (data : Bytes) : Bool :=
  match parseRPCHeader data with
  | .ok resp => resp.packetType = rpcPTypeResponse
  | _ => false

/-- A response packet with a whole body and the status OK. -/
def Successful (data : Bytes) : Prop :=
  isResponse data ∧ 100 ≤ data.length ∧ (data.drop 80).take 4 = [0, 0, 0, 0]

instance (data : Bytes) : Decidable (Successful data) :=
  inferInstanceAs (Decidable (_ ∧ _ ∧ _))

/-- The call is about to read a successful response to the request of another call. -/
def ReadsOther (x : Exchange) : Event → Prop
  | .receive =>
    match x.waiting, x.queue with
    | some (number, _), r :: _ => Successful r.data ∧ r.answers % 2 ^ 32 ≠ number % 2 ^ 32
    | _, _ => False
  | _ => False

instance (x : Exchange) (e : Event) : Decidable (ReadsOther x e) :=
  match e with
  | .receive =>
    match hwaiting : x.waiting, hqueue : x.queue with
    | some (number, _), r :: _ =>
      decidable_of_iff (Successful r.data ∧ r.answers % 2 ^ 32 ≠ number % 2 ^ 32)
        (by rw [ReadsOther, hwaiting, hqueue])
    | none, _ => isFalse (by rw [ReadsOther, hwaiting]; exact id)
    | some _, [] => isFalse (by rw [ReadsOther, hwaiting, hqueue]; exact id)
  | .call _ | .callFails | .serve _ _ | .deliver _ | .timeout => isFalse id

/-! ## What the client takes -/

/-- The rest of `sendRPC` behind the test of the status cannot fail. -/
theorem exists_blockData {body : Bytes} (h : 20 ≤ body.length) : ∃ blocks, (do
    let respArgsLen ← uint32In true body 4 8
    let blockData ← sliceFrom body 20
    if respArgsLen.toNat < blockData.length then slice blockData 0 respArgsLen.toNat
    else pure blockData : Outcome ResponseError Bytes) = .ok blocks := by
  rw [uint32In_ok rfl (by omega), ok_bind, sliceFrom, if_pos (by omega), ok_bind]
  split
  next hshort => exact ⟨_, slice_ok (Nat.zero_le _) hshort.le⟩
  next => exact ⟨_, rfl⟩

/-- The test of the status, on the bytes that follow the header. -/
theorem status_eq_ok_iff {body : Bytes} (h : 20 ≤ body.length) : ∃ b₀ b₁ b₂ b₃,
    (index body 0 : Outcome ResponseError UInt8) = .ok b₀ ∧
      (index body 1 : Outcome ResponseError UInt8) = .ok b₁ ∧
      (index body 2 : Outcome ResponseError UInt8) = .ok b₂ ∧
      (index body 3 : Outcome ResponseError UInt8) = .ok b₃ ∧
      ((⟨b₀, b₁, b₂, b₃⟩ : PNIOStatus) = pnioStatusOK ↔ body.take 4 = [0, 0, 0, 0]) := by
  obtain ⟨b₀, rest, rfl⟩ := List.exists_cons_of_length_pos (show 0 < body.length by omega)
  rw [List.length_cons] at h
  obtain ⟨b₁, rest, rfl⟩ := List.exists_cons_of_length_pos (show 0 < rest.length by omega)
  rw [List.length_cons] at h
  obtain ⟨b₂, rest, rfl⟩ := List.exists_cons_of_length_pos (show 0 < rest.length by omega)
  rw [List.length_cons] at h
  obtain ⟨b₃, rest, rfl⟩ := List.exists_cons_of_length_pos (show 0 < rest.length by omega)
  exact ⟨b₀, b₁, b₂, b₃, rfl, rfl, rfl, rfl, by simp [pnioStatusOK]⟩

/-- The client takes a datagram exactly when it is a successful response, whatever request
it answers. -/
theorem receiveRPC_ok_iff (data : Bytes) :
    (∃ blocks, receiveRPC data = .ok blocks) ↔ Successful data := by
  rw [receiveRPC, Successful, isResponse]
  cases hparse : parseRPCHeader data with
  | panic p =>
    apply iff_of_false
    · rintro ⟨blocks, ⟨⟩⟩
    · exact fun h => absurd h.1 (by simp)
  | err e =>
    apply iff_of_false
    · rintro ⟨blocks, ⟨⟩⟩
    · exact fun h => absurd h.1 (by simp)
  | ok resp =>
    have hlong : 80 ≤ data.length := by
      by_contra hshort
      rw [parseRPCHeader, if_pos (by rw [rpcHeaderSize]; omega)] at hparse
      cases hparse
    rw [attempt_ok, ok_bind]
    dsimp only
    by_cases htype : resp.packetType = rpcPTypeResponse
    · rw [if_neg (not_not.mpr htype), sliceFrom_header hlong, ok_bind]
      by_cases hbody : 100 ≤ data.length
      · have hlength : 20 ≤ (data.drop 80).length := by
          rw [List.length_drop]
          omega
        have hblocks := exists_blockData hlength
        rw [if_neg (by omega), and_iff_right (decide_eq_true htype), and_iff_right hbody]
        obtain ⟨b₀, b₁, b₂, b₃, h0, h1, h2, h3, hok⟩ := status_eq_ok_iff hlength
        rw [h0, ok_bind, h1, ok_bind, h2, ok_bind, h3, ok_bind, ← hok]
        by_cases hstatus : (⟨b₀, b₁, b₂, b₃⟩ : PNIOStatus) = pnioStatusOK
        · rw [if_neg (not_not.mpr hstatus)]
          exact iff_of_true hblocks hstatus
        · rw [if_pos hstatus]
          apply iff_of_false
          · rintro ⟨blocks, ⟨⟩⟩
          · exact hstatus
      · rw [if_pos (by rw [List.length_drop]; omega)]
        apply iff_of_false
        · rintro ⟨blocks, ⟨⟩⟩
        · exact fun h => hbody h.2.1
    · rw [if_pos htype]
      apply iff_of_false
      · rintro ⟨blocks, ⟨⟩⟩
      · exact fun h => htype (of_decide_eq_true h.1)

/-! ## What is on the network -/

/-- A response that answers the request with the number, if it is one. -/
def AnswersNumber (number : Nat) (data : Bytes) : Prop :=
  ∀ resp, parseRPCHeader data = .ok resp → resp.packetType = rpcPTypeResponse →
    resp.sequenceNum = UInt32.ofNat number ∧
      resp.activityUUID = newActivityUUID (UInt32.ofNat number)

/-- The requests carry their numbers, and the responses those of the requests that they
answer. -/
structure Numbered (x : Exchange) : Prop where
  seqNum : x.seqNum = UInt32.ofNat x.calls
  waiting : ∀ number header, x.waiting = some (number, header) →
    header.sequenceNum = UInt32.ofNat number ∧
      header.activityUUID = newActivityUUID (UInt32.ofNat number)
  requests : ∀ r ∈ x.requests, ∃ header, parseRPCHeader r.2 = .ok header ∧
    header.sequenceNum = UInt32.ofNat r.1 ∧
      header.activityUUID = newActivityUUID (UInt32.ofNat r.1)
  inFlight : ∀ r ∈ x.inFlight, AnswersNumber r.answers r.data
  queue : ∀ r ∈ x.queue, AnswersNumber r.answers r.data

theorem numbered_start : Numbered {} where
  seqNum := rfl
  waiting := by simp
  requests := by simp
  inFlight := by simp
  queue := by simp

/-- The device finds the header of the call in the packet. -/
theorem parseRPCHeader_sendRPC [DatagramSocket] {c : Call} {seqNum : UInt32} {pkt : Bytes}
    (h : sendRPC seqNum c.opNum c.arUUID c.blocks = some pkt) :
    parseRPCHeader pkt = .ok (c.header seqNum) := by
  rw [sendRPC, Option.ite_none_right_eq_some, Option.some_inj] at h
  rw [← h.2]
  exact parseRPCHeader_marshal _ _

/-- A response that echoes the request answers its number. -/
theorem answersNumber_of_echoes {request response : Bytes} {header : RPCHeader} {number : Nat}
    (hparse : parseRPCHeader request = .ok header)
    (hseq : header.sequenceNum = UInt32.ofNat number)
    (hactivity : header.activityUUID = newActivityUUID (UInt32.ofNat number))
    (h : echoes request response) : AnswersNumber number response := by
  intro resp hresp htype
  rw [echoes, hparse, hresp] at h
  obtain hother | ⟨hseq', hactivity'⟩ := of_decide_eq_true h
  · exact absurd htype hother
  · exact ⟨hseq'.trans hseq, hactivity'.trans hactivity⟩

theorem succ_seqNum {x : Exchange} (h : Numbered x) :
    x.seqNum + 1 = UInt32.ofNat (x.calls + 1) := by
  rw [h.seqNum, UInt32.ofNat_add]
  rfl

/-- A call takes the next number. -/
theorem numbered_beginCall [DatagramSocket] {x : Exchange} (h : Numbered x) (c : Call) :
    Numbered (beginCall x c) := by
  rw [beginCall]
  dsimp only
  cases hsent : sendRPC (x.seqNum + 1) c.opNum c.arUUID c.blocks with
  | none => exact ⟨succ_seqNum h, h.waiting, h.requests, h.inFlight, h.queue⟩
  | some pkt =>
    refine ⟨succ_seqNum h, ?_, ?_, h.inFlight, h.queue⟩
    · rintro number header ⟨⟩
      rw [← succ_seqNum h]
      exact ⟨rfl, rfl⟩
    · rintro r (_ | ⟨_, hr⟩)
      · refine ⟨c.header (x.seqNum + 1), parseRPCHeader_sendRPC hsent, ?_⟩
        rw [← succ_seqNum h]
        exact ⟨rfl, rfl⟩
      · exact h.requests r hr

/-- A response that is read ends its call. -/
theorem numbered_endCall {x : Exchange} {header : RPCHeader} {r : Response} {rest : List Response}
    (h : Numbered x) (hqueue : x.queue = r :: rest) : Numbered (endCall x header r rest) := by
  have hrest : ∀ r' ∈ rest, AnswersNumber r'.answers r'.data := by
    intro r' hr'
    exact h.queue r' (by rw [hqueue]; exact List.mem_cons_of_mem r hr')
  rw [endCall]
  cases receiveRPC r.data with
  | ok blocks => exact ⟨h.seqNum, by simp, h.requests, h.inFlight, hrest⟩
  | err e => exact ⟨h.seqNum, by simp, h.requests, h.inFlight, hrest⟩
  | panic p => exact ⟨h.seqNum, by simp, h.requests, h.inFlight, hrest⟩

/-- Each event keeps the calls numbered. -/
theorem Numbered.step [DatagramSocket] {x y : Exchange} {e : Event} (h : Numbered x)
    (hstep : step x e = some y) : Numbered y := by
  rw [ProfinetRpcMatching.step.eq_def] at hstep
  cases e with
  | call c =>
    rw [Option.ite_none_right_eq_some, Option.some_inj] at hstep
    rw [← hstep.2]
    exact numbered_beginCall h c
  | callFails =>
    rw [Option.ite_none_right_eq_some, Option.some_inj] at hstep
    rw [← hstep.2]
    exact ⟨succ_seqNum h, h.waiting, h.requests, h.inFlight, h.queue⟩
  | serve number data =>
    rw [Option.ite_none_right_eq_some, Option.some_inj] at hstep
    obtain ⟨hany, rfl⟩ := hstep
    obtain ⟨r, hr, hserved⟩ := List.any_eq_true.mp hany
    obtain ⟨rfl, hechoes⟩ := of_decide_eq_true hserved
    obtain ⟨header, hparse, hseq, hactivity⟩ := h.requests r hr
    refine ⟨h.seqNum, h.waiting, h.requests, ?_, h.queue⟩
    rintro r' (_ | ⟨_, hr'⟩)
    · exact answersNumber_of_echoes hparse hseq hactivity hechoes
    · exact h.inFlight r' hr'
  | deliver r =>
    rw [Option.ite_none_right_eq_some, Option.some_inj] at hstep
    obtain ⟨hmem, rfl⟩ := hstep
    refine ⟨h.seqNum, h.waiting, h.requests, h.inFlight, ?_⟩
    intro r' hr'
    obtain hr' | hr' := List.mem_append.mp hr'
    · exact h.queue r' hr'
    · rw [List.mem_singleton.mp hr']
      exact h.inFlight r hmem
  | receive =>
    dsimp only at hstep
    split at hstep
    next number header r rest hwaiting hqueue =>
      cases hstep
      exact numbered_endCall h hqueue
    next => cases hstep
  | timeout =>
    rw [Option.ite_none_right_eq_some, Option.some_inj] at hstep
    rw [← hstep.2]
    exact ⟨h.seqNum, by simp, h.requests, h.inFlight, h.queue⟩

/-! ## Whole runs -/

theorem ofNat_eq_iff (m n : Nat) : UInt32.ofNat m = UInt32.ofNat n ↔ m % 2 ^ 32 = n % 2 ^ 32 := by
  rw [← UInt32.toNat_inj, UInt32.toNat_ofNat', UInt32.toNat_ofNat']

theorem exists_response {data : Bytes} (h : isResponse data) :
    ∃ resp, parseRPCHeader data = .ok resp ∧ resp.packetType = rpcPTypeResponse := by
  rw [isResponse] at h
  split at h
  next resp hparse => exact ⟨resp, hparse, of_decide_eq_true h⟩
  next => cases h

/-- A successful response answers a request exactly when their numbers agree. -/
theorem answers_iff {number number' : Nat} {header : RPCHeader} {data : Bytes}
    (hseq : header.sequenceNum = UInt32.ofNat number)
    (hactivity : header.activityUUID = newActivityUUID (UInt32.ofNat number))
    (hdata : AnswersNumber number' data) (h : Successful data) :
    Answers header data ↔ number' % 2 ^ 32 = number % 2 ^ 32 := by
  obtain ⟨resp, hparse, htype⟩ := exists_response h.1
  obtain ⟨hseq', hactivity'⟩ := hdata resp hparse htype
  rw [← ofNat_eq_iff]
  constructor
  · rintro ⟨resp', hparse', hmatch, -⟩
    cases hparse.symm.trans hparse'
    rw [← hseq', hmatch, hseq]
  · intro hnumber
    exact ⟨resp, hparse, by rw [hseq', hseq, hnumber], by rw [hactivity', hactivity, hnumber]⟩

theorem beginCall_accepted [DatagramSocket] (x : Exchange) (c : Call) :
    (beginCall x c).accepted = x.accepted := by
  rw [beginCall]
  dsimp only
  cases sendRPC (x.seqNum + 1) c.opNum c.arUUID c.blocks with
  | none => rfl
  | some pkt => rfl

theorem Matched.of_accepted {x y : Exchange} (h : y.accepted = x.accepted) :
    Matched y ↔ Matched x := by rw [Matched, Matched, h]

/-- The call that reads keeps the calls matched exactly when it does not read a response to
another one. -/
theorem matched_endCall {x : Exchange} (hx : Numbered x) {number : Nat} {header : RPCHeader}
    {r : Response} {rest : List Response} (hwaiting : x.waiting = some (number, header))
    (hqueue : x.queue = r :: rest) :
    Matched (endCall x header r rest) ↔ Matched x ∧ ¬ReadsOther x .receive := by
  have hreads : ReadsOther x .receive ↔
      Successful r.data ∧ r.answers % 2 ^ 32 ≠ number % 2 ^ 32 := by
    rw [ReadsOther, hwaiting, hqueue]
  have hdata := hx.queue r (by rw [hqueue]; exact List.mem_cons_self)
  obtain ⟨hseq, hactivity⟩ := hx.waiting number header hwaiting
  rw [hreads]
  by_cases hok : Successful r.data
  · obtain ⟨blocks, hblocks⟩ := (receiveRPC_ok_iff r.data).mpr hok
    rw [endCall, hblocks, Matched, Matched]
    dsimp only
    rw [List.forall_mem_cons, answers_iff hseq hactivity hdata hok, and_comm, and_iff_right hok,
      not_not]
  · have haccepted : (endCall x header r rest).accepted = x.accepted := by
      rw [endCall]
      cases hblocks : receiveRPC r.data with
      | ok blocks => exact absurd ((receiveRPC_ok_iff r.data).mp ⟨blocks, hblocks⟩) hok
      | err e => rfl
      | panic p => rfl
    rw [Matched.of_accepted haccepted]
    exact (and_iff_left fun h => hok h.1).symm

/-- An event keeps the answers matched exactly if no answer to another call is read. -/
theorem matched_step [DatagramSocket] {x y : Exchange} {e : Event} (hx : Numbered x)
    (hstep : step x e = some y) :
    Matched y ↔ Matched x ∧ ¬ReadsOther x e := by
  rw [step.eq_def] at hstep
  cases e with
  | call c =>
    rw [Option.ite_none_right_eq_some, Option.some_inj] at hstep
    rw [← hstep.2, Matched.of_accepted (beginCall_accepted x c)]
    exact (and_iff_left id).symm
  | callFails =>
    rw [Option.ite_none_right_eq_some, Option.some_inj] at hstep
    rw [← hstep.2]
    exact (and_iff_left id).symm
  | serve number data =>
    rw [Option.ite_none_right_eq_some, Option.some_inj] at hstep
    rw [← hstep.2]
    exact (and_iff_left id).symm
  | deliver r =>
    rw [Option.ite_none_right_eq_some, Option.some_inj] at hstep
    rw [← hstep.2]
    exact (and_iff_left id).symm
  | receive =>
    dsimp only at hstep
    split at hstep
    next number header r rest hwaiting hqueue =>
      cases hstep
      exact matched_endCall hx hwaiting hqueue
    next => cases hstep
  | timeout =>
    rw [Option.ite_none_right_eq_some, Option.some_inj] at hstep
    rw [← hstep.2]
    exact (and_iff_left id).symm

/-- In a run each accepted response has the sequence number and the activity UUID of the
request of its call exactly when no call reads a successful response to another one. -/
theorem matched_iff [DatagramSocket] (events : List Event) (x : Exchange)
    (hrun : run step {} events = some x) :
    Matched x ↔ Meets step (fun x e => ¬ReadsOther x e) {} events := by
  have hstart : Matched {} := by simp [Matched]
  rw [run_iff_meets (fun _ _ _ h => h.step) (fun _ _ _ => matched_step) numbered_start hrun]
  exact and_iff_right hstart

/-! ## A device of this repository -/

/-- The device answers with the number and the activity of the request. -/
theorem echoes_sendResponse (s : RPCServer) {request : Bytes} {header : RPCHeader}
    (h : parseRPCHeader request = .ok header) (status : PNIOStatus) (blocks : Bytes) (le : Bool) :
    echoes request (sendResponse s header status blocks le) := by
  rw [echoes, h, sendResponse, parseRPCHeader_marshal]
  exact decide_eq_true (.inr ⟨rfl, rfl⟩)

def sampleUUID : UUID := .copy 16 [1]

def prmEnd : Call := .control sampleUUID 1 controlCmdPrmEnd

def releaseCall : Call := .release sampleUUID 1

/-- The response to the first call. -/
def firstResponse : Response :=
  ⟨sendResponse ⟨{ localMAC := [] }, 0⟩ (prmEnd.header 1) pnioStatusOK [] true, 1⟩

def onceAnswered : List Event :=
  [.call prmEnd, .serve 1 firstResponse.data, .deliver firstResponse, .receive]

theorem matched_iff_onceAnswered :
    letI := udp
    ∃ x, run step {} onceAnswered = some x ∧ x.accepted.length = 1 ∧ Matched x := by
  let _ := udp
  have haccepted : (run step {} onceAnswered).map (fun x => x.accepted.length) = some 1 := by
    decide +kernel
  obtain ⟨x, hrun, hlength⟩ := Option.map_eq_some_iff.mp haccepted
  exact ⟨x, hrun, hlength, (matched_iff onceAnswered x hrun).mpr (by decide +kernel)⟩

/-- The response to the first call is delivered twice. -/
def twiceDelivered : List Event :=
  onceAnswered ++ [.deliver firstResponse, .call releaseCall, .receive]

/-- The second call takes the copy for its own response. -/
theorem twiceDelivered_not_matched :
    letI := udp
    ∃ x, run step {} twiceDelivered = some x ∧
      x.accepted.head? = some (releaseCall.header 2, firstResponse.data) ∧ ¬Matched x := by
  let _ := udp
  have haccepted : (run step {} twiceDelivered).map (fun x => x.accepted.head?) =
      some (some (releaseCall.header 2, firstResponse.data)) := by decide +kernel
  obtain ⟨x, hrun, hhead⟩ := Option.map_eq_some_iff.mp haccepted
  refine ⟨x, hrun, hhead, ?_⟩
  intro h
  obtain ⟨resp, hparse, hseq, -⟩ := h _ (List.mem_of_mem_head? hhead)
  dsimp only at hparse hseq
  rw [firstResponse, sendResponse, parseRPCHeader_marshal] at hparse
  cases hparse
  exact absurd hseq (by decide)

end ProfinetRpcMatching
