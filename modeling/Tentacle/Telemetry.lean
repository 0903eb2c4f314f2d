import Mathlib.Algebra.Order.Group.Nat
import Tentacle.GoSlices
import Tentacle.GoValues
import Tentacle.OrderedMoves
import Tentacle.RingBuffer

/-!
# Error reports

The telemetry module keeps the last log entries of every module and sends them along with
each error it reports. The log handler runs in a goroutine of its own for every message:
it stores the entry, counts it if it is an error, and then reads the stored entries for the
report, so that other handlers store theirs in between. The counts are taken and reset by
the periodic report.
-/

namespace Telemetry

open GoValues GoSlices Outcome

structure ServiceLogEntry where
  timestamp : Int := 0
  level : String := ""
  message : String := ""
  serviceType : String := ""
  moduleID : String := ""
  logger : String := ""
  deriving DecidableEq, Repr

/-- A recent log line sent with an error report. -/
structure LogContextEntry where
  timestamp : Int
  level : String
  message : String
  module : String
  deriving DecidableEq, Repr

def ServiceLogEntry.context (e : ServiceLogEntry) : LogContextEntry where
  timestamp := e.timestamp
  level := e.level
  message := e.message
  module := e.moduleID

/-- What a report says of the error; the rest describes the installation. -/
structure ErrorPayload where
  errorMessage : String
  moduleType : String
  logContext : List LogContextEntry
  deriving DecidableEq, Repr

def buildErrorPayload (entry : ServiceLogEntry) (recentLogs : List LogContextEntry) :
    ErrorPayload where
  errorMessage := entry.message
  moduleType := entry.serviceType
  logContext := recentLogs

/-! ## The ring of a module -/

def ringSize : Nat := 50

structure Ring where
  buf : List ServiceLogEntry
  pos : Nat
  full : Bool
  deriving DecidableEq, Repr

def newRing : Ring where
  buf := List.replicate ringSize {}
  pos := 0
  full := false

abbrev LogRingBuffer := GoMap String Ring

variable {ε : Type}

def push (rb : LogRingBuffer) (entry : ServiceLogEntry) : Outcome ε LogRingBuffer := do
  let r := (rb.lookup entry.moduleID).getD newRing
  let buf ← assign r.buf r.pos entry
  let pos := (r.pos + 1) % ringSize
  return rb.insert entry.moduleID ⟨buf, pos, r.full || pos = 0⟩

/-- The entries of a ring, the oldest one first. -/
def ringEntries (r : Ring) : Outcome ε (List ServiceLogEntry) :=
  if r.full then do
    let entries ← makeSlice {} ringSize
    let entries ← copyFrom entries 0 (← sliceFrom r.buf r.pos)
    copyFrom entries (ringSize - r.pos) (← slice r.buf 0 r.pos)
  else do
    let entries ← makeSlice {} r.pos
    copyFrom entries 0 (← slice r.buf 0 r.pos)

def recent (rb : LogRingBuffer) (moduleID : String) : Outcome ε (List LogContextEntry) :=
  match rb.lookup moduleID with
  | none => .ok []
  | some r => do return (← ringEntries r).map ServiceLogEntry.context

/-! ## The handlers -/

/-- `isError`; no letter outside ASCII has one of these letters as its upper case. -/
def isError (level : String) : Bool := level.toUpper = "ERROR" ∨ level.toUpper = "FATAL"

def recordError (errorCounts : GoMap String Nat) (moduleType : String) : GoMap String Nat :=
  errorCounts.insert moduleType ((errorCounts.lookup moduleType).getD 0 + 1)

/-- Where a log handler stands. -/
inductive Handler where
  | store (entry : ServiceLogEntry)
  | count (entry : ServiceLogEntry)
  | report (entry : ServiceLogEntry)
  deriving DecidableEq, Repr

structure Report where
  entry : ServiceLogEntry
  /-- How many entries were stored when the report was made. -/
  storedThen : Nat
  payload : ErrorPayload
  deriving DecidableEq, Repr

structure Module where
  enabled : Bool := true
  errorsEnabled : Bool := true
  logBuf : LogRingBuffer := ∅
  errorCounts : GoMap String Nat := ∅
  handlers : List Handler := []
  /-- All entries in the order in which they were stored. -/
  stored : List ServiceLogEntry := []
  reports : List Report := []
  /-- The error counts of the periodic reports. -/
  collected : List (GoMap String Nat) := []

inductive Action where
  /-- A log message is delivered. -/
  | deliver (entry : ServiceLogEntry)
  /-- A handler takes its next step. -/
  | advance (n : Nat)
  | configure (enabled errorsEnabled : Bool)
  | collect

/-- The action is not possible. -/
inductive Disabled where
  | disabled

def advance (m : Module) (n : Nat) : Handler → Outcome Disabled Module
  | .store entry => do
    let logBuf ← push m.logBuf entry
    return { m with
      logBuf := logBuf
      stored := m.stored ++ [entry]
      handlers := m.handlers.set n (.count entry) }
  | .count entry =>
    if m.enabled ∧ m.errorsEnabled ∧ isError entry.level then
      .ok { m with
        errorCounts := recordError m.errorCounts entry.serviceType
        handlers := m.handlers.set n (.report entry) }
    else .ok { m with handlers := m.handlers.eraseIdx n }
  | .report entry => do
    let recentLogs ← recent m.logBuf entry.moduleID
    return { m with
      reports := m.reports ++ [⟨entry, m.stored.length, buildErrorPayload entry recentLogs⟩]
      handlers := m.handlers.eraseIdx n }

def step (m : Module) : Action → Outcome Disabled Module
  | .deliver entry => .ok { m with handlers := m.handlers ++ [.store entry] }
  | .advance n =>
    match m.handlers[n]? with
    | none => .err .disabled
    | some handler => advance m n handler
  | .configure enabled errorsEnabled => .ok { m with enabled, errorsEnabled }
  | .collect => .ok { m with
      errorCounts := ∅
      collected := m.collected ++ [m.errorCounts] }

/-! ## What the rings hold -/

def ofModule (moduleID : String) (stored : List ServiceLogEntry) : List ServiceLogEntry :=
  stored.filter (·.moduleID = moduleID)

structure Ring.Holds (r : Ring) (history : List ServiceLogEntry) : Prop where
  cells : RingBuffer.Holds ringSize r.buf history
  pos : r.pos = history.length % ringSize
  full : r.full = decide (ringSize ≤ history.length)

theorem newRing_holds : newRing.Holds [] where
  cells := RingBuffer.holds_nil ringSize ({} : ServiceLogEntry)
  pos := rfl
  full := rfl

theorem eq_nil_of_newRing_holds {history : List ServiceLogEntry} (h : newRing.Holds history) :
    history = [] := by
  have hpos : 0 = history.length % ringSize := h.pos
  have hfull : false = decide (ringSize ≤ history.length) := h.full
  have hlt : history.length < ringSize := by simpa using hfull
  rw [Nat.mod_eq_of_lt hlt] at hpos
  exact List.length_eq_zero_iff.mp hpos.symm

/-- Two parts copied one behind the other into a slice of their length. -/
theorem overwrite_overwrite {α : Type} {xs ys b : List α} (h : xs.length + ys.length = b.length) :
    overwrite (overwrite b 0 xs) xs.length ys = xs ++ ys := by
  have hfirst : overwrite b 0 xs = xs ++ b.drop xs.length := by simp [overwrite]
  rw [hfirst, overwrite, List.take_left, List.drop_of_length_le, List.append_nil]
  rw [List.length_append, List.length_drop]
  omega

/-- A ring is read as the last of what was put into it. -/
theorem ringEntries_eq {r : Ring} {history : List ServiceLogEntry} (h : r.Holds history) :
    (ringEntries r : Outcome ε _) = .ok (history.rtake ringSize) := by
  have hlength := h.cells.length
  have hpos : r.pos < ringSize := h.pos ▸ Nat.mod_lt _ (by decide)
  have hto : (slice r.buf 0 r.pos : Outcome ε _) = .ok (r.buf.take r.pos) := by
    rw [slice_ok (Nat.zero_le _) (by omega), List.drop_zero]
  have htake : (r.buf.take r.pos).length = r.pos := List.length_take_of_le (by omega)
  unfold ringEntries
  split
  next hfull =>
    have hle : ringSize ≤ history.length := by simpa [h.full] using hfull
    have hfrom : (sliceFrom r.buf r.pos : Outcome ε _) = .ok (r.buf.drop r.pos) := by
      simp [sliceFrom]
      omega
    have hdrop : (r.buf.drop r.pos).length = ringSize - r.pos := by rw [List.length_drop, hlength]
    have hroom : (List.replicate ringSize ({} : ServiceLogEntry)).length = ringSize :=
      List.length_replicate
    have hfirst : 0 + (r.buf.drop r.pos).length ≤
        (List.replicate ringSize ({} : ServiceLogEntry)).length := by omega
    rw [makeSlice_ok, ok_bind, hfrom, ok_bind, copyFrom_ok hfirst, ok_bind, hto, ok_bind, ← hdrop,
      copyFrom_ok (by rw [length_overwrite hfirst]; omega), overwrite_overwrite (by omega), h.pos,
      h.cells.rtake (by decide) hle]
  next hfull =>
    have hlt : history.length < ringSize := by simpa [h.full] using hfull
    have hall : history.rtake ringSize = history := by
      rw [List.rtake, Nat.sub_eq_zero_of_le hlt.le, List.drop_zero]
    have hin : r.pos = history.length := h.pos.trans (Nat.mod_eq_of_lt hlt)
    rw [makeSlice_ok, ok_bind, hto, ok_bind, copyFrom_of_length (by simp [htake]), hin,
      h.cells.take hlt, hall]

/-- Every ring holds what was stored for its module. -/
def RingsHold (rb : LogRingBuffer) (stored : List ServiceLogEntry) : Prop :=
  ∀ id, ((rb.lookup id).getD newRing).Holds (ofModule id stored)

/-- An entry that is pushed is the last of all and the last of its module. -/
theorem push_holds {rb : LogRingBuffer} {stored : List ServiceLogEntry} (h : RingsHold rb stored)
    (entry : ServiceLogEntry) :
    (push rb entry : Outcome ε _).Ensures fun rb' => RingsHold rb' (stored ++ [entry]) := by
  have hring := h entry.moduleID
  have hpos : ((rb.lookup entry.moduleID).getD newRing).pos < ringSize :=
    hring.pos ▸ Nat.mod_lt _ (by decide)
  unfold push
  dsimp only
  rw [assign, if_pos (by rw [hring.cells.length]; exact hpos), ok_bind, pure_eq, ensures_ok]
  intro id
  by_cases hid : id = entry.moduleID
  · subst hid
    have hhistory : ofModule entry.moduleID (stored ++ [entry]) =
        ofModule entry.moduleID stored ++ [entry] := by simp [ofModule]
    rw [AList.lookup_insert, Option.getD_some, hhistory]
    have hlength : (ofModule entry.moduleID stored ++ [entry]).length =
        (ofModule entry.moduleID stored).length + 1 := List.length_append
    have hnext : (((rb.lookup entry.moduleID).getD newRing).pos + 1) % ringSize =
        (ofModule entry.moduleID stored ++ [entry]).length % ringSize := by
      rw [hlength, hring.pos, Nat.mod_add_mod]
    constructor
    · dsimp only
      rw [hring.pos]
      exact hring.cells.push (by decide) entry
    · exact hnext
    · dsimp only
      rw [hnext, hring.full, hlength, ← Bool.decide_or, decide_eq_decide, ringSize]
      omega
  · have hhistory : ofModule id (stored ++ [entry]) = ofModule id stored := by
      simp [ofModule, Ne.symm hid]
    rw [AList.lookup_insert_ne hid, hhistory]
    exact h id

/-- What is recent of a module is the last of its entries. -/
theorem recent_eq {rb : LogRingBuffer} {stored : List ServiceLogEntry} (h : RingsHold rb stored)
    (moduleID : String) :
    (recent rb moduleID : Outcome ε _) =
      .ok (((ofModule moduleID stored).rtake ringSize).map ServiceLogEntry.context) := by
  have hring := h moduleID
  unfold recent
  cases hlookup : rb.lookup moduleID with
  | none =>
    rw [hlookup] at hring
    rw [eq_nil_of_newRing_holds hring]
    rfl
  | some r =>
    rw [hlookup, Option.getD_some] at hring
    dsimp only
    rw [ringEntries_eq hring]
    rfl

/-! ## The reports -/

/-- The report was made after the error was stored, from the last entries of its module. -/
structure Reported (stored : List ServiceLogEntry) (r : Report) : Prop where
  storedThen : r.storedThen ≤ stored.length
  entry : r.entry ∈ stored.take r.storedThen
  payload : r.payload = buildErrorPayload r.entry (((ofModule r.entry.moduleID
    (stored.take r.storedThen)).rtake ringSize).map ServiceLogEntry.context)

/-- The rings hold what was stored; a handler that has gone on has stored its entry. -/
structure Sound (m : Module) : Prop where
  rings : RingsHold m.logBuf m.stored
  stored : ∀ entry, .count entry ∈ m.handlers ∨ .report entry ∈ m.handlers → entry ∈ m.stored
  reports : ∀ r ∈ m.reports, Reported m.stored r

/-- A report stays what it was when more is stored. -/
theorem Reported.snoc {stored : List ServiceLogEntry} {r : Report} (h : Reported stored r)
    (entry : ServiceLogEntry) : Reported (stored ++ [entry]) r := by
  have htake : (stored ++ [entry]).take r.storedThen = stored.take r.storedThen :=
    List.take_append_of_le_length h.storedThen
  constructor
  · rw [List.length_append]
    exact h.storedThen.trans (Nat.le_add_right _ _)
  · rw [htake]
    exact h.entry
  · rw [htake]
    exact h.payload

/-- No step panics, and the rings stay the last of what was stored. -/
theorem sound_step {m : Module} (h : Sound m) (a : Action) : (step m a).Ensures Sound := by
  cases a with
  | deliver entry =>
    refine ⟨h.rings, ?_, h.reports⟩
    intro e he
    simp only [List.mem_append, List.mem_singleton, reduceCtorEq, or_false] at he
    exact h.stored e he
  | configure enabled errorsEnabled => exact ⟨h.rings, h.stored, h.reports⟩
  | collect => exact ⟨h.rings, h.stored, h.reports⟩
  | advance n =>
    simp only [step]
    split
    next => trivial
    next handler hhandler =>
      have hmem := List.mem_of_getElem? hhandler
      cases handler with
      | store entry =>
        refine (push_holds h.rings entry).bind ?_
        intro rb hrings
        refine ⟨hrings, ?_, fun r hr => (h.reports r hr).snoc entry⟩
        intro e he
        rcases he with he | he
        · rcases List.mem_or_eq_of_mem_set he with he | he
          · exact List.mem_append_left _ (h.stored e (.inl he))
          · cases he
            exact List.mem_append_right _ (List.mem_singleton_self _)
        · rcases List.mem_or_eq_of_mem_set he with he | he
          · exact List.mem_append_left _ (h.stored e (.inr he))
          · cases he
      | count entry =>
        have hstored := h.stored entry (.inl hmem)
        simp only [advance]
        split
        next =>
          refine ⟨h.rings, ?_, h.reports⟩
          intro e he
          rcases he with he | he
          · rcases List.mem_or_eq_of_mem_set he with he | he
            · exact h.stored e (.inl he)
            · cases he
          · rcases List.mem_or_eq_of_mem_set he with he | he
            · exact h.stored e (.inr he)
            · cases he
              exact hstored
        next =>
          refine ⟨h.rings, ?_, h.reports⟩
          intro e he
          exact h.stored e (he.imp List.mem_of_mem_eraseIdx List.mem_of_mem_eraseIdx)
      | report entry =>
        simp only [advance]
        rw [recent_eq h.rings, ok_bind]
        refine ⟨h.rings, ?_, ?_⟩
        · intro e he
          exact h.stored e (he.imp List.mem_of_mem_eraseIdx List.mem_of_mem_eraseIdx)
        · intro r hr
          rcases List.mem_append.mp hr with hr | hr
          · exact h.reports r hr
          · rw [List.mem_singleton.mp hr]
            constructor
            · exact le_rfl
            · rw [List.take_length]
              exact h.stored entry (.inr hmem)
            · rw [List.take_length]

theorem sound_start (enabled errorsEnabled : Bool) : Sound { enabled, errorsEnabled } := by
  refine ⟨fun _ => newRing_holds, ?_, ?_⟩
  · intro entry hentry
    rcases hentry with h | h <;> cases h
  · intro r hr
    cases hr

theorem mem_rtake {before after : List ServiceLogEntry} {entry : ServiceLogEntry}
    (h : after.length < ringSize) : entry ∈ (before ++ entry :: after).rtake ringSize := by
  have hle : (before ++ entry :: after).length - ringSize ≤ before.length := by
    rw [List.length_append, List.length_cons]
    omega
  rw [List.rtake, List.drop_append_of_le_length hle]
  exact List.mem_append_right _ List.mem_cons_self

/-- However the handlers interleave, none panics, and every report carries the last entries,
at most 50 of them, that were stored for the module of the error when the report was made. The
error was stored by then, and is one of them unless 50 entries of the module were stored after
it. -/
theorem reports_recent (enabled errorsEnabled : Bool) (schedule : List Action) :
    (schedule.foldlM step { enabled, errorsEnabled }).Ensures fun m => ∀ r ∈ m.reports,
      r.storedThen ≤ m.stored.length ∧
        r.payload = buildErrorPayload r.entry (((ofModule r.entry.moduleID
          (m.stored.take r.storedThen)).rtake ringSize).map ServiceLogEntry.context) ∧
        ∃ before after, m.stored.take r.storedThen = before ++ r.entry :: after ∧
          ((ofModule r.entry.moduleID after).length < ringSize →
            r.entry.context ∈ r.payload.logContext) := by
  have hrun := ensures_foldlM (l := schedule) (fun a _ m hm => sound_step hm a)
    (sound_start enabled errorsEnabled)
  refine hrun.imp ?_
  intro m hm r hr
  have hreported := hm.reports r hr
  obtain ⟨before, after, hsplit⟩ := List.append_of_mem hreported.entry
  refine ⟨hreported.storedThen, hreported.payload, before, after, hsplit, ?_⟩
  intro hfew
  have hmodule : ofModule r.entry.moduleID (m.stored.take r.storedThen) =
      ofModule r.entry.moduleID before ++ r.entry :: ofModule r.entry.moduleID after := by
    rw [hsplit]
    simp [ofModule]
  rw [hreported.payload, hmodule]
  exact List.mem_map_of_mem (mem_rtake hfew)

/-! ## The counts -/

def countOf (moduleType : String) (errorCounts : GoMap String Nat) : Nat :=
  (errorCounts.lookup moduleType).getD 0

/-- The handler has counted an error of the type and has not reported it yet. -/
def Handler.counted (moduleType : String) : Handler → Bool
  | .report entry => entry.serviceType = moduleType
  | _ => false

def Counted (m : Module) : Prop :=
  ∀ moduleType, (m.collected.map (countOf moduleType)).sum + countOf moduleType m.errorCounts =
    m.reports.countP (fun r => r.entry.serviceType = moduleType) +
      m.handlers.countP (Handler.counted moduleType)

theorem countOf_recordError (counts : GoMap String Nat) (moduleType other : String) :
    countOf other (recordError counts moduleType) =
      countOf other counts + if moduleType = other then 1 else 0 := by
  by_cases h : other = moduleType
  · subst h
    simp [countOf, recordError]
  · simp [countOf, recordError, h, Ne.symm h]

theorem countP_eraseIdx {handlers : List Handler} {n : Nat} {handler : Handler}
    (h : handlers[n]? = some handler) (p : Handler → Bool) :
    handlers.countP p = (handlers.eraseIdx n).countP p + if p handler then 1 else 0 := by
  obtain ⟨hsplit, herase⟩ := OrderedMoves.eraseIdx_split h
  rw [herase]
  conv_lhs => rw [hsplit]
  rw [List.countP_append, List.countP_append, List.countP_cons, Nat.add_assoc]

theorem countP_set {handlers : List Handler} {n : Nat} {handler : Handler}
    (h : handlers[n]? = some handler) (next : Handler) (p : Handler → Bool) :
    (handlers.set n next).countP p = (handlers.eraseIdx n).countP p + if p next then 1 else 0 := by
  obtain ⟨hn, -⟩ := List.getElem?_eq_some_iff.mp h
  have hnext := countP_eraseIdx (List.getElem?_set_self (a := next) hn) p
  rwa [List.eraseIdx_set_eq] at hnext

/-- Each step leaves every error stored, or reported, or on its way. -/
theorem counted_step {m : Module} (hm : Sound m) (h : Counted m) (a : Action) :
    (step m a).Ensures Counted := by
  cases a with
  | deliver entry =>
    intro moduleType
    simp [h moduleType, Handler.counted]
  | configure enabled errorsEnabled => exact h
  | collect =>
    intro moduleType
    have hcount := h moduleType
    simpa [countOf] using hcount
  | advance n =>
    simp only [step]
    split
    next => trivial
    next handler hhandler =>
      cases handler with
      | store entry =>
        refine (push_holds hm.rings entry).bind ?_
        intro rb _ moduleType
        have hcount := h moduleType
        rw [countP_eraseIdx hhandler] at hcount
        rw [countP_set hhandler]
        exact hcount
      | count entry =>
        simp only [advance]
        split
        next =>
          intro moduleType
          have hcount := h moduleType
          rw [countP_eraseIdx hhandler] at hcount
          rw [countOf_recordError, countP_set hhandler]
          simp only [Handler.counted, decide_eq_true_eq, Bool.false_eq_true, if_false] at hcount ⊢
          omega
        next =>
          intro moduleType
          have hcount := h moduleType
          rw [countP_eraseIdx hhandler] at hcount
          exact hcount
      | report entry =>
        simp only [advance]
        rw [recent_eq hm.rings, ok_bind]
        intro moduleType
        have hcount := h moduleType
        rw [countP_eraseIdx hhandler] at hcount
        rw [List.countP_append, List.countP_singleton]
        simp only [Handler.counted, decide_eq_true_eq] at hcount ⊢
        omega

/-- However handlers, periodic reports and changes of the configuration interleave, the errors
of a type that the periodic reports have counted, with those counted since the last one, are the
error reports of the type and the handlers about to make one: none is lost or counted twice. -/
theorem errors_counted_once (enabled errorsEnabled : Bool) (schedule : List Action) :
    (schedule.foldlM step { enabled, errorsEnabled }).Ensures fun m => ∀ moduleType,
      (m.collected.map (countOf moduleType)).sum + countOf moduleType m.errorCounts =
        m.reports.countP (fun r => r.payload.moduleType = moduleType) +
          m.handlers.countP (Handler.counted moduleType) := by
  have hstep : ∀ a ∈ schedule, ∀ m, Sound m ∧ Counted m →
      (step m a).Ensures fun m => Sound m ∧ Counted m := by
    intro a _ m hm
    exact (sound_step hm.1 a).and (counted_step hm.1 hm.2 a)
  refine (ensures_foldlM hstep ⟨sound_start enabled errorsEnabled, fun _ => rfl⟩).imp ?_
  intro m hm moduleType
  have htypes : m.reports.countP (fun r => r.payload.moduleType = moduleType) =
      m.reports.countP (fun r => r.entry.serviceType = moduleType) := by
    apply List.countP_congr
    intro r hr
    rw [(hm.1.reports r hr).payload]
    rfl
  rw [htypes]
  exact hm.2 moduleType

end Telemetry
