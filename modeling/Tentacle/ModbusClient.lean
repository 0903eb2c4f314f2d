import Mathlib.Data.List.GetD
import Tentacle.BigEndian
import Tentacle.GoValues
import Tentacle.Runs

/-!
# Requests and responses of the Modbus client

The poll loop and the commands of a device share one TCP connection. A request is
sent and then the read buffer is filled until it holds a frame; the frame is taken
as the answer without a look at its transaction ID. The poll loop closes the
connection after an error, a command leaves it open, and a command may come before
the poll loop has closed it.

The device answers each request at most once, with the request's transaction ID,
whenever it likes and in any order. The bytes of the answers arrive in the order
in which they were sent and in pieces of any size.
-/

namespace ModbusClient

open GoValues BigEndian Runs

structure MBAPFrame where
  transactionID : UInt16
  protocolID : UInt16
  unitID : UInt8
  functionCode : UInt8
  data : Bytes
  deriving DecidableEq, Repr

/-- `incomplete MBAP header: have %d bytes`, `incomplete frame: need %d bytes, have
%d` and `invalid MBAP length`. -/
inductive DecodeError where
  | incompleteHeader (got : Nat)
  | incompleteFrame (need got : Nat)
  | invalidLength
  deriving DecidableEq, Repr

def encodeMBAPRequest (txnID : UInt16) (unitID : UInt8) (pdu : Bytes) : Bytes :=
  putUint 2 txnID.toNat ++ putUint 2 0 ++ putUint 2 (pdu.length + 1) ++ [unitID] ++ pdu

/-- The frame at the front of the buffer and its length. -/
def decodeMBAPResponse (buf : Bytes) : Except DecodeError (MBAPFrame × Nat) :=
  if buf.length < 7 then .error (.incompleteHeader buf.length)
  else
    let length := uint ((buf.drop 4).take 2)
    let totalLen := 7 + length - 1
    if buf.length < totalLen then .error (.incompleteFrame totalLen buf.length)
    else if length < 2 then .error .invalidLength
    else .ok
      ({ transactionID := UInt16.ofNat (uint (buf.take 2))
         protocolID := UInt16.ofNat (uint ((buf.drop 2).take 2))
         unitID := buf.getD 6 0
         functionCode := buf.getD 7 0
         data := (buf.take totalLen).drop 8 }, totalLen)

def isExceptionResponse (fc : UInt8) : Bool := fc &&& 0x80 ≠ 0

/-- A response that a read turns into an error. -/
def readRejects (frame : MBAPFrame) : Bool :=
  isExceptionResponse frame.functionCode ||
    match frame.data with
    | [] => true
    | byteCount :: rest => rest.length < byteCount.toNat

inductive Caller where
  | poll | command
  deriving DecidableEq, Repr

/-- A request; the number counts the requests of all connections and, unlike the
transaction ID, does not wrap around. -/
structure Request where
  caller : Caller
  number : Nat
  txnID : UInt16
  frame : Bytes
  deriving DecidableEq, Repr

/-- The client's connection, what is on its way, and logs of what the device has
replied and of the frames that were taken as responses. -/
structure ClientState where
  connected : Bool := false
  txnID : UInt16 := 0
  readBuf : Bytes := []
  /-- The request that holds the lock of the device. -/
  current : Option Request := none
  /-- The poll loop has had an error and is about to disconnect. -/
  giveUp : Bool := false
  /-- The poll loop has ended. -/
  stopped : Bool := false
  /-- Some request on this connection has ended without a response. -/
  failed : Bool := false
  requests : Nat := 0
  /-- The requests that the device has and has not answered. -/
  pending : List Request := []
  /-- Bytes that the device has sent and the client has not read. -/
  incoming : Bytes := []
  replies : List (Request × Bytes) := []
  accepted : List (Request × MBAPFrame) := []
  deriving DecidableEq, Repr

inductive ClientAction where
  | connect
  | send (caller : Caller) (pdu : Bytes)
  | writeError (caller : Caller) (pdu : Bytes) (arrived : Bool)
  | answer (i : Nat) (unitID functionCode : UInt8) (data : Bytes)
  | read (n : Nat)
  | accept
  | readError
  | disconnect
  | stop
  deriving DecidableEq, Repr

/-- What the device sends: the transaction ID is copied from the request. -/
def responseFrame (request : Bytes) (unitID functionCode : UInt8) (data : Bytes) : Bytes :=
  request.take 2 ++ putUint 2 0 ++ putUint 2 (data.length + 2) ++ [unitID, functionCode] ++ data

/-- The lock of the device is free, and the caller has a connection to use. -/
def maySend (s : ClientState) (caller : Caller) : Bool :=
  s.connected && s.current.isNone && !(caller = .poll && (s.giveUp || s.stopped))

/-- The buffer holds no frame, so the client goes on reading. -/
def incomplete (buf : Bytes) : Bool :=
  match decodeMBAPResponse buf with
  | .ok _ => false
  | .error _ => true

def connect (s : ClientState) : ClientState :=
  { s with
    connected := true
    readBuf := []
    txnID := 0 }

/-- What is on its way goes with the connection. -/
def disconnect (s : ClientState) : ClientState :=
  { s with
    connected := false
    readBuf := []
    giveUp := false
    failed := false
    pending := []
    incoming := [] }

/-- A request that ends with an error; the poll loop will then disconnect. -/
def failRequest (s : ClientState) (caller : Caller) : ClientState :=
  { s with
    current := none
    giveUp := s.giveUp || caller = .poll
    failed := true }

section Step

variable (unitID : UInt8)

def request (s : ClientState) (caller : Caller) (pdu : Bytes) : Request :=
  { caller := caller
    number := s.requests
    txnID := s.txnID
    frame := encodeMBAPRequest s.txnID unitID pdu }

/-- `nextTxnID`, and the request that is made with it. -/
def nextTxnID (s : ClientState) : ClientState :=
  { s with
    txnID := s.txnID + 1
    requests := s.requests + 1 }

def step (s : ClientState) : ClientAction → Option ClientState
  | .connect =>
    if !s.connected && !s.stopped && s.current.isNone then some (connect s) else none
  | .send caller pdu =>
    if maySend s caller then
      some { nextTxnID s with
        current := some (request unitID s caller pdu)
        pending := s.pending ++ [request unitID s caller pdu] }
    else none
  | .writeError caller pdu arrived =>
    if maySend s caller then
      some (failRequest { nextTxnID s with
        pending := if arrived then s.pending ++ [request unitID s caller pdu] else s.pending }
        caller)
    else none
  | .answer i unitID functionCode data =>
    if data.length + 2 < 65536 then
      s.pending[i]?.map fun r =>
        { s with
          pending := s.pending.eraseIdx i
          incoming := s.incoming ++ responseFrame r.frame unitID functionCode data
          replies := s.replies ++ [(r, responseFrame r.frame unitID functionCode data)] }
    else none
  | .read n =>
    if s.current.isSome ∧ incomplete s.readBuf ∧ 0 < n ∧ n ≤ 4096 ∧ n ≤ s.incoming.length then
      some { s with
        readBuf := s.readBuf ++ s.incoming.take n
        incoming := s.incoming.drop n }
    else none
  | .accept =>
    match s.current, decodeMBAPResponse s.readBuf with
    | some r, .ok (frame, consumed) =>
      some { s with
        readBuf := s.readBuf.drop consumed
        current := none
        giveUp := s.giveUp || (r.caller = .poll && readRejects frame)
        accepted := s.accepted ++ [(r, frame)] }
    | _, _ => none
  | .readError =>
    if incomplete s.readBuf then s.current.map fun r => failRequest s r.caller
    else none
  | .disconnect => if s.giveUp && s.current.isNone then some (disconnect s) else none
  | .stop =>
    -- The poll loop takes no lock here, so a command may be waiting.
    if !s.stopped && !s.giveUp && s.current.all (fun r => r.caller = .command) then
      some { disconnect s with stopped := true }
    else none

end Step

/-- The frame at the front of the buffer stays the frame when more bytes arrive. -/
theorem decodeMBAPResponse_append {buf : Bytes} {frame : MBAPFrame} {consumed : Nat}
    (h : decodeMBAPResponse buf = .ok (frame, consumed)) (more : Bytes) :
    decodeMBAPResponse (buf ++ more) = .ok (frame, consumed) := by
  unfold decodeMBAPResponse at h ⊢
  have hlength : (buf ++ more).length = buf.length + more.length := List.length_append
  by_cases h7 : buf.length < 7
  · rw [if_pos h7] at h
    cases h
  rw [if_neg h7] at h
  rw [if_neg (by omega)]
  have hdrop (n m : Nat) (hnm : n + m ≤ 7) :
      ((buf ++ more).drop n).take m = (buf.drop n).take m := by
    rw [List.drop_append_of_le_length (by omega), List.take_append_of_le_length (by simp; omega)]
  have htake : (buf ++ more).take 2 = buf.take 2 := hdrop 0 2 (by omega)
  simp only [hdrop 4 2 (by omega), hdrop 2 2 (by omega), htake] at h ⊢
  generalize uint ((buf.drop 4).take 2) = length at h ⊢
  by_cases htotal : buf.length < 7 + length - 1
  · rw [if_pos htotal] at h
    cases h
  rw [if_neg htotal] at h
  rw [if_neg (by omega)]
  by_cases h2 : length < 2
  · rw [if_pos h2] at h
    cases h
  rw [if_neg h2] at h ⊢
  rw [← h, List.take_append_of_le_length (by omega), List.getD_append _ _ _ _ (by omega),
    List.getD_append _ _ _ _ (by omega)]

/-- A frame takes no more than is there. -/
theorem consumed_le {buf : Bytes} {frame : MBAPFrame} {consumed : Nat}
    (h : decodeMBAPResponse buf = .ok (frame, consumed)) : consumed ≤ buf.length := by
  unfold decodeMBAPResponse at h
  dsimp only at h
  split at h
  · cases h
  · split at h
    · cases h
    · split at h
      · cases h
      · cases h
        omega

/-- The frame that the device sends for a request, as the client decodes it. -/
theorem decodeMBAPResponse_responseFrame {request : Bytes} (hrequest : 2 ≤ request.length)
    (unitID functionCode : UInt8) {data : Bytes} (hdata : data.length + 2 < 65536) :
    decodeMBAPResponse (responseFrame request unitID functionCode data) =
      .ok
        ({ transactionID := UInt16.ofNat (uint (request.take 2))
           protocolID := 0
           unitID := unitID
           functionCode := functionCode
           data := data }, (responseFrame request unitID functionCode data).length) := by
  have htake : (request.take 2).length = 2 := by simpa using hrequest
  have hlength : uint (putUint 2 (data.length + 2)) = data.length + 2 :=
    uint_putUint_of_lt (by omega)
  obtain ⟨b, c, hbc⟩ := List.length_eq_two.mp htake
  obtain ⟨d, e, hde⟩ := List.length_eq_two.mp (length_putUint 2 (data.length + 2))
  have hframe : responseFrame request unitID functionCode data =
      b :: c :: 0 :: 0 :: d :: e :: unitID :: functionCode :: data := by
    rw [responseFrame, hbc, hde]
    rfl
  have htotal : 7 + (data.length + 2) - 1 =
      (b :: c :: 0 :: 0 :: d :: e :: unitID :: functionCode :: data).length := by
    simp only [List.length_cons]
    omega
  rw [hde] at hlength
  rw [hframe, hbc, decodeMBAPResponse]
  simp only [List.drop_succ_cons, List.drop_zero, List.take_succ_cons, List.take_zero, hlength,
    htotal, List.take_length]
  rw [if_neg (by simp only [List.length_cons]; omega), if_neg (by omega), if_neg (by omega)]
  rfl

end ModbusClient
