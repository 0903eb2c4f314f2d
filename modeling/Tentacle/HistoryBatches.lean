import Mathlib.Algebra.Order.Group.Multiset
import Mathlib.Tactic.Abel
import Tentacle.MqttBridge
import Tentacle.Runs

/-!
# The history module

Values that pass the exception check become records in a batch; a full batch, a tick of the flush
loop and the end of the module give the batch to the database. Goroutines run one section at a
time: the handlers of data messages, which flush a batch they have filled, and the flushes by
themselves. The database answers an insert or refuses it; what its retention policy removes later
is left out. A message is given as decoded.
-/

namespace HistoryBatches

open GoValues Rbe MqttBridge

variable {F32 F64 : Type}

structure HistoryRecord (F64 : Type) where
  groupID : String
  nodeID : String
  deviceID : String
  metricID : String
  intValue : Option Int := none
  floatValue : Option F64 := none
  stringValue : Option String := none
  boolValue : Option Bool := none
  timestamp : Int
  deriving DecidableEq, Repr

/-! ## Records -/

def toBool : Json F64 → Option Bool
  | .bool b => some b
  | _ => none

def inferDatatype : Json F64 → String
  | .bool _ => "boolean"
  | .number _ => "number"
  | _ => "string"

section Values

variable [GoFloats F32 F64] [GoFloat64 F64]

variable (F32) in
def isExactInt (x : F64) : Bool :=
  GoFloat64.eq x (GoFloats.ofInt64 F32 (GoFloats.trunc64 F32 x))

variable (F32) in
def buildRecord (groupID nodeID deviceID metricID : String) (value : Json F64) (datatype : String)
    (timestamp : Int) : HistoryRecord F64 :=
  let record : HistoryRecord F64 := { groupID, nodeID, deviceID, metricID, timestamp }
  match datatype with
  | "boolean" => { record with boolValue := toBool value }
  | "string" => { record with stringValue := some value.sprint }
  | "number" =>
    match toFloat64 value with
    | some x =>
      { record with
        intValue := if isExactInt F32 x then some (GoFloats.trunc64 F32 x) else none
        floatValue := some x }
    | none => { record with stringValue := some value.sprint }
  | _ =>
    match toFloat64 value, toBool value with
    | some x, _ => { record with floatValue := some x }
    | none, some b => { record with boolValue := some b }
    | none, none => { record with stringValue := some value.sprint }

end Values

/-! ## Messages -/

/-- One value of a message, with what its exception check needs. -/
structure Sample (F64 : Type) where
  nodeID : String
  deviceID : String
  metricID : String
  value : Json F64
  datatype : String
  deadband : Option (DeadBandConfig F64)
  disableRBE : Bool
  nowMs : Int

def Sample.key (x : Sample F64) (groupID : String) : String :=
  groupID ++ ":" ++ x.nodeID ++ ":" ++ x.deviceID ++ ":" ++ x.metricID

def rawScannerPrefixes : List String := ["ethernetip.", "snmp.", "opcua.", "modbus."]

def isRawScannerSubject (subject : String) : Bool :=
  rawScannerPrefixes.any (·.toList.isPrefixOf subject.toList)

def memberDatatype (msg : PlcDataMessage F64) (memberName : String) (value : Json F64) : String :=
  let members := (msg.udtTemplate.map UdtTemplateDefinition.members).getD []
  let datatype := ((members.find? (·.name = memberName)).map (·.datatype)).getD ""
  if datatype = "" then inferDatatype value else datatype

def memberSample (msg : PlcDataMessage F64) (nowMs : Int) (memberName : String)
    (value : Json F64) : Sample F64 where
  nodeID := msg.moduleID
  deviceID := msg.deviceID
  metricID := msg.variableID ++ "/" ++ memberName
  value := value
  datatype := memberDatatype msg memberName value
  deadband := (msg.memberDeadbands.bind (·.lookup memberName)).or msg.deadband
  disableRBE := msg.disableRBE
  nowMs := nowMs

def atomicSample (msg : PlcDataMessage F64) (nowMs : Int) : Sample F64 where
  nodeID := msg.moduleID
  deviceID := msg.deviceID
  metricID := msg.variableID
  value := msg.value
  datatype := msg.datatype
  deadband := msg.deadband
  disableRBE := msg.disableRBE
  nowMs := nowMs

/-- The values of a message in the order in which `handleDataMessage` checks them; Go leaves the
order of the members open. -/
def samples (subject : String) (msg : PlcDataMessage F64) (nowMs : Int) (order : List String) :
    List (Sample F64) :=
  if isRawScannerSubject subject then []
  else if msg.historyEnabled = false then []
  else if msg.datatype = "udt" then
    match msg.value.members with
    | none => []
    | some assembled =>
      order.filterMap fun name => (assembled.lookup name).map (memberSample msg nowMs name)
  else [atomicSample msg nowMs]

/-- The order is one in which a loop over the members may go. -/
def iterates (msg : PlcDataMessage F64) (order : List String) : Bool :=
  match msg.value.members with
  | none => true
  | some assembled => decide (order.Perm assembled.keys)

/-! ## Goroutines -/

/-- Where a goroutine is: `get` and `ShouldPublish`, `RecordPublish`, `batch.add`, and the three
sections of `flushBatch`. -/
inductive Stage (F64 : Type) where
  | check
  | recordPublish (x : Sample F64)
  | add (r : HistoryRecord F64)
  | drain
  | readDB (records : List (HistoryRecord F64))
  | insertBatch (records : List (HistoryRecord F64))

/-- A handler with the values it has yet to check; a flush by itself has none. -/
structure Worker (F64 : Type) where
  todo : List (Sample F64)
  stage : Stage F64

structure Stats where
  recordsWritten : Nat := 0
  batchesWritten : Nat := 0
  lastFlushTime : Int := 0
  deriving DecidableEq, Repr

/-- The module and the table of the database. Nothing reads `accepted`, what the exception check
has let through, `inserted`, what was in a batch that the database took, and `dropped`, what was
in a batch that a flush gave up. -/
structure History (F64 : Type) where
  groupID : String
  rbeStates : GoMap String (State F64) := ∅
  batch : List (HistoryRecord F64) := []
  /-- `db` is not nil. -/
  db : Bool := false
  stats : Stats := {}
  table : List (HistoryRecord F64) := []
  workers : List (Worker F64) := []
  accepted : List (HistoryRecord F64) := []
  inserted : List (HistoryRecord F64) := []
  dropped : List (HistoryRecord F64) := []

def batchMaxSize : Nat := 100

/-- The columns of the unique constraint agree. -/
def HistoryRecord.conflicts (r row : HistoryRecord F64) : Bool :=
  row.groupID = r.groupID && row.nodeID = r.nodeID && row.deviceID = r.deviceID &&
    row.metricID = r.metricID && row.timestamp = r.timestamp

/-- The database, by what an insert that it takes makes of the table: no row goes, and every
record of the batch has a row, its own or an older one. -/
class Database (F64 : Type) where
  insertBatch : List (HistoryRecord F64) → List (HistoryRecord F64) → List (HistoryRecord F64)
  subset_insertBatch : ∀ table records, table ⊆ insertBatch table records
  insertBatch_has_row : ∀ table records, ∀ r ∈ records,
    ∃ row ∈ insertBatch table records, r.conflicts row = true

/-- One row of the insert: on conflict, do nothing. -/
def insertRow (table : List (HistoryRecord F64)) (r : HistoryRecord F64) :
    List (HistoryRecord F64) :=
  if table.any r.conflicts then table else table ++ [r]

theorem subset_insertRow (table : List (HistoryRecord F64)) (r : HistoryRecord F64) :
    table ⊆ insertRow table r := by
  unfold insertRow
  split
  · exact List.Subset.refl _
  · exact List.subset_append_left _ _

theorem insertRow_has_row (table : List (HistoryRecord F64)) (r : HistoryRecord F64) :
    ∃ row ∈ insertRow table r, r.conflicts row = true := by
  unfold insertRow
  split
  next h => exact List.any_eq_true.mp h
  next => exact ⟨r, by simp, by simp [HistoryRecord.conflicts]⟩

theorem subset_foldl_insertRow (table records : List (HistoryRecord F64)) :
    table ⊆ records.foldl insertRow table := by
  induction records generalizing table with
  | nil => exact List.Subset.refl _
  | cons r records ih => exact List.Subset.trans (subset_insertRow table r) (ih _)

/-- A database that inserts row by row. -/
instance : Database F64 where
  insertBatch table records := records.foldl insertRow table
  subset_insertBatch := subset_foldl_insertRow
  insertBatch_has_row := by
    intro table records r hr
    induction records generalizing table with
    | nil => cases hr
    | cons r' records ih =>
      cases hr with
      | head =>
        obtain ⟨row, hrow, hconf⟩ := insertRow_has_row table r
        exact ⟨row, subset_foldl_insertRow _ records hrow, hconf⟩
      | tail _ hr => exact ih _ hr

def Stats.addBatch (stats : Stats) (count : Nat) : Stats :=
  { stats with
    recordsWritten := stats.recordsWritten + count
    batchesWritten := stats.batchesWritten + 1 }

def Stats.setLastFlush (stats : Stats) (ts : Int) : Stats := { stats with lastFlushTime := ts }

def History.spawn (h : History F64) (w : Worker F64) : History F64 :=
  { h with workers := h.workers ++ [w] }

inductive Action (F64 : Type) where
  | receive (subject : String) (msg : PlcDataMessage F64) (nowMs : Int) (order : List String)
  | flush
  | openDB
  | cleanup
  | resume (worker : Nat) (result : Except String Unit) (nowMs : Int)

section Steps

variable [GoFloats F32 F64] [GoFloat64 F64] [Database F64]

variable (F32) in
/-- The next section of a goroutine, which is not among the workers meanwhile. The database's
result matters only where it is asked. -/
def resume (h : History F64) (w : Worker F64) (result : Except String Unit) (nowMs : Int) :
    History F64 :=
  match w.stage with
  | .check =>
    match w.todo with
    | [] => h
    | x :: todo =>
      let state := (h.rbeStates.lookup (x.key h.groupID)).getD {}
      let h := { h with rbeStates := h.rbeStates.insert (x.key h.groupID) state }
      if shouldPublish state x.value x.nowMs x.deadband x.disableRBE then
        h.spawn ⟨todo, .recordPublish x⟩
      else h.spawn ⟨todo, .check⟩
  | .recordPublish x =>
    let r := buildRecord F32 h.groupID x.nodeID x.deviceID x.metricID x.value x.datatype x.nowMs
    { h with
      rbeStates := h.rbeStates.insert (x.key h.groupID) (recordPublish x.value x.nowMs)
      accepted := h.accepted ++ [r] }.spawn ⟨w.todo, .add r⟩
  | .add r =>
    let batch := h.batch ++ [r]
    { h with batch }.spawn ⟨w.todo, if batchMaxSize ≤ batch.length then .drain else .check⟩
  | .drain =>
    match h.batch with
    | [] => h.spawn ⟨w.todo, .check⟩
    | records => { h with batch := [] }.spawn ⟨w.todo, .readDB records⟩
  | .readDB records =>
    if h.db then h.spawn ⟨w.todo, .insertBatch records⟩
    else { h with dropped := h.dropped ++ records }.spawn ⟨w.todo, .check⟩
  | .insertBatch records =>
    match result with
    | .error _ => { h with dropped := h.dropped ++ records }.spawn ⟨w.todo, .check⟩
    | .ok () =>
      { h with
        table := Database.insertBatch h.table records
        inserted := h.inserted ++ records
        stats := (h.stats.addBatch records.length).setLastFlush nowMs }.spawn ⟨w.todo, .check⟩

variable (F32) in
def step (h : History F64) : Action F64 → Option (History F64)
  | .receive subject msg nowMs order =>
    if iterates msg order then some (h.spawn ⟨samples subject msg nowMs order, .check⟩) else none
  | .flush => some (h.spawn ⟨[], .drain⟩)
  | .openDB => some { h with db := true }
  | .cleanup => some { h with db := false }
  | .resume n result nowMs =>
    h.workers[n]?.map fun w =>
      resume F32 { h with workers := h.workers.eraseIdx n } w result nowMs

end Steps

/-! ## Where the accepted records are -/

/-- The records that a goroutine has in hand. -/
def Stage.records : Stage F64 → List (HistoryRecord F64)
  | .add r => [r]
  | .readDB records | .insertBatch records => records
  | .check | .recordPublish _ | .drain => []

def underWay (h : History F64) : Multiset (HistoryRecord F64) :=
  (h.workers.flatMap (·.stage.records) : List (HistoryRecord F64))

/-- Every accepted record is in one place, where `hand` is one more. What the database took has a
row, and is what the module counts as written. -/
structure Accounted (h : History F64) (hand : List (HistoryRecord F64)) : Prop where
  books : (h.accepted : Multiset (HistoryRecord F64)) =
    h.inserted + h.batch + underWay h + h.dropped + hand
  rows : ∀ r ∈ h.inserted, ∃ row ∈ h.table, r.conflicts row = true
  written : h.stats.recordsWritten = h.inserted.length

theorem underWay_spawn (h : History F64) (w : Worker F64) :
    underWay (h.spawn w) = underWay h + w.stage.records := by
  simp [underWay, History.spawn]

theorem underWay_eraseIdx {h : History F64} {n : Nat} {w : Worker F64}
    (hw : h.workers[n]? = some w) :
    underWay h = underWay { h with workers := h.workers.eraseIdx n } + w.stage.records := by
  obtain ⟨hlt, rfl⟩ := List.getElem?_eq_some_iff.mp hw
  have hperm := (List.getElem_cons_eraseIdx_perm hlt).flatMap_right (·.stage.records)
  rw [underWay, underWay, ← Multiset.coe_eq_coe.mpr hperm, add_comm]
  simp

theorem Accounted.spawn {h : History F64} {w : Worker F64} (hacc : Accounted h w.stage.records) :
    Accounted (h.spawn w) [] := by
  refine ⟨?_, hacc.rows, hacc.written⟩
  rw [underWay_spawn, Multiset.coe_nil, History.spawn, hacc.books]
  abel

/-- A worker that is taken out carries its own records with it. -/
theorem Accounted.takeOut {h : History F64} {n : Nat} {w : Worker F64} (hacc : Accounted h [])
    (hw : h.workers[n]? = some w) :
    Accounted { h with workers := h.workers.eraseIdx n } w.stage.records := by
  refine ⟨?_, hacc.rows, hacc.written⟩
  have hbooks := hacc.books
  rw [underWay_eraseIdx hw, Multiset.coe_nil] at hbooks
  rw [hbooks]
  abel

/-- A step that moves records between the places and changes nothing else that counts. -/
theorem Accounted.move {h t : History F64} {hand hand' : List (HistoryRecord F64)}
    (hacc : Accounted h hand)
    (hbooks : (t.accepted : Multiset (HistoryRecord F64)) + (h.batch + h.dropped + hand) =
      h.accepted + (t.batch + t.dropped + hand'))
    (hworkers : t.workers = h.workers) (hinserted : t.inserted = h.inserted)
    (htable : t.table = h.table) (hstats : t.stats = h.stats) : Accounted t hand' := by
  constructor
  · apply add_right_cancel (b := (h.batch + h.dropped + hand : Multiset (HistoryRecord F64)))
    rw [hbooks, hacc.books, hinserted, underWay, underWay, hworkers]
    abel
  · rw [hinserted, htable]
    exact hacc.rows
  · rw [hinserted, hstats]
    exact hacc.written

/-- A flush gives up what it has in hand. -/
theorem Accounted.giveUp {h : History F64} {records : List (HistoryRecord F64)}
    (hacc : Accounted h records) : Accounted { h with dropped := h.dropped ++ records } [] := by
  refine hacc.move ?_ rfl rfl rfl rfl
  simp only [← Multiset.coe_add, Multiset.coe_nil]
  abel

theorem records_afterAdd (p : Prop) [Decidable p] :
    (if p then Stage.drain else Stage.check : Stage F64).records = [] := by
  split <;> rfl

section Runs

variable [GoFloats F32 F64] [GoFloat64 F64] [Database F64]

/-- A worker that goes on inserts its records, drops them or keeps them. -/
theorem resume_accounted {h : History F64} {w : Worker F64} (hacc : Accounted h w.stage.records)
    (result : Except String Unit) (nowMs : Int) :
    Accounted (resume F32 h w result nowMs) [] := by
  obtain ⟨todo, stage⟩ := w
  cases stage with
  | check =>
    cases todo with
    | nil => exact hacc
    | cons x todo =>
      unfold resume
      dsimp only
      split
      · exact Accounted.spawn { hacc with }
      · exact Accounted.spawn { hacc with }
  | recordPublish x =>
    apply Accounted.spawn
    refine hacc.move ?_ rfl rfl rfl rfl
    simp only [Stage.records, ← Multiset.coe_add, Multiset.coe_nil]
    abel
  | add r =>
    apply Accounted.spawn
    refine hacc.move ?_ rfl rfl rfl rfl
    rw [records_afterAdd]
    simp only [Stage.records, ← Multiset.coe_add, Multiset.coe_nil]
    abel
  | drain =>
    unfold resume
    dsimp only
    split
    next => exact Accounted.spawn hacc
    next records _ =>
      apply Accounted.spawn
      refine hacc.move ?_ rfl rfl rfl rfl
      simp only [Stage.records, Multiset.coe_nil]
      abel
  | readDB records =>
    unfold resume
    dsimp only
    split
    · exact Accounted.spawn hacc
    · exact Accounted.spawn hacc.giveUp
  | insertBatch records =>
    cases result with
    | error e => exact Accounted.spawn hacc.giveUp
    | ok =>
      apply Accounted.spawn
      constructor
      · have hbooks := hacc.books
        simp only [Stage.records, ← Multiset.coe_add, Multiset.coe_nil] at hbooks ⊢
        rw [hbooks]
        simp only [underWay]
        abel
      · intro r hr
        rcases List.mem_append.mp hr with hr | hr
        · obtain ⟨row, hrow, hconf⟩ := hacc.rows r hr
          exact ⟨row, Database.subset_insertBatch _ _ hrow, hconf⟩
        · exact Database.insertBatch_has_row _ _ r hr
      · simp [Stats.setLastFlush, Stats.addBatch, hacc.written]

/-- Each step leaves every accepted record in one place. -/
theorem step_accounted {h t : History F64} {a : Action F64} (hacc : Accounted h [])
    (ht : step F32 h a = some t) : Accounted t [] := by
  cases a with
  | receive subject msg nowMs order =>
    rw [step] at ht
    split at ht
    · cases ht
      exact hacc.spawn
    · cases ht
  | flush =>
    cases ht
    exact hacc.spawn
  | openDB | cleanup =>
    cases ht
    exact { hacc with }
  | resume n result nowMs =>
    obtain ⟨w, hw, rfl⟩ := Option.map_eq_some_iff.mp ht
    exact resume_accounted (hacc.takeOut hw) result nowMs

/-- A flush finds the database, and the database takes the batch. -/
def Succeeds (h : History F64) : Action F64 → Prop
  | .resume n result _ =>
    ∀ w ∈ h.workers[n]?, match w.stage with
      | .readDB _ => h.db = true
      | .insertBatch _ => result = .ok ()
      | _ => True
  | _ => True

/-- Where no insertion fails nothing is dropped. -/
theorem step_dropped {h t : History F64} {a : Action F64} (hok : Succeeds h a)
    (ht : step F32 h a = some t) : t.dropped = h.dropped := by
  cases a with
  | receive subject msg nowMs order =>
    rw [step] at ht
    split at ht <;> cases ht
    rfl
  | flush | openDB | cleanup =>
    cases ht
    rfl
  | resume n result nowMs =>
    obtain ⟨⟨todo, stage⟩, hw, rfl⟩ := Option.map_eq_some_iff.mp ht
    have hok := hok _ hw
    cases stage with
    | check =>
      cases todo with
      | nil => rfl
      | cons x todo =>
        unfold resume
        dsimp only
        split <;> rfl
    | recordPublish x => rfl
    | add r => rfl
    | drain =>
      unfold resume
      dsimp only
      split <;> rfl
    | readDB records =>
      have hdb : h.db = true := hok
      unfold resume
      simp only [hdb, if_true]
      rfl
    | insertBatch records =>
      cases hok
      rfl

end Runs

/-! ## Goroutines end -/

def Stage.weight : Stage F64 → Nat
  | .check => 1
  | .insertBatch _ => 2
  | .readDB _ => 3
  | .drain => 4
  | .add _ => 5
  | .recordPublish _ => 6

def Worker.weight (w : Worker F64) : Nat := 7 * w.todo.length + w.stage.weight

/-- How much the goroutines still have to do. -/
def weight (h : History F64) : Nat := (h.workers.map Worker.weight).sum

theorem weight_eraseIdx {h : History F64} {n : Nat} {w : Worker F64}
    (hw : h.workers[n]? = some w) :
    weight h = weight { h with workers := h.workers.eraseIdx n } + w.weight := by
  obtain ⟨hlt, rfl⟩ := List.getElem?_eq_some_iff.mp hw
  have hperm := (List.getElem_cons_eraseIdx_perm hlt).map Worker.weight
  rw [weight, weight, ← hperm.sum_eq, List.map_cons, List.sum_cons, add_comm]

theorem weight_spawn_lt {h t : History F64} {w w' : Worker F64} (ht : t.workers = h.workers)
    (hw : w'.weight < w.weight) : weight (t.spawn w') < weight h + w.weight := by
  simp only [weight, History.spawn, ht, List.map_append, List.map_cons, List.map_nil,
    List.sum_append, List.sum_cons, List.sum_nil]
  omega

section Ends

variable [GoFloats F32 F64] [GoFloat64 F64] [Database F64]

variable (F32) in
/-- A worker that goes on comes closer to its end. -/
theorem weight_resume (h : History F64) (w : Worker F64) (result : Except String Unit)
    (nowMs : Int) : weight (resume F32 h w result nowMs) < weight h + w.weight := by
  obtain ⟨todo, stage⟩ := w
  unfold resume
  cases stage with
  | check =>
    cases todo with
    | nil => simp [Worker.weight, Stage.weight]
    | cons x todo =>
      dsimp only
      split
      · exact weight_spawn_lt rfl (by simp [Worker.weight, Stage.weight]; omega)
      · exact weight_spawn_lt rfl (by simp [Worker.weight, Stage.weight])
  | recordPublish x => exact weight_spawn_lt rfl (by simp [Worker.weight, Stage.weight])
  | add r =>
    apply weight_spawn_lt rfl
    dsimp only [Worker.weight]
    split <;> simp [Stage.weight]
  | drain =>
    dsimp only
    split
    · exact weight_spawn_lt rfl (by simp [Worker.weight, Stage.weight])
    · exact weight_spawn_lt rfl (by simp [Worker.weight, Stage.weight])
  | readDB records =>
    dsimp only
    split
    · exact weight_spawn_lt rfl (by simp [Worker.weight, Stage.weight])
    · exact weight_spawn_lt rfl (by simp [Worker.weight, Stage.weight])
  | insertBatch records =>
    cases result with
    | error e => exact weight_spawn_lt rfl (by simp [Worker.weight, Stage.weight])
    | ok => exact weight_spawn_lt rfl (by simp [Worker.weight, Stage.weight])

/-- Left to themselves the goroutines come to an end. -/
theorem workers_end (h : History F64) (result : Except String Unit) (nowMs : Int) :
    ∃ k t, Runs.run (step F32) h (List.replicate k (.resume 0 result nowMs)) = some t ∧
      t.workers = [] := by
  induction hn : weight h using Nat.strong_induction_on generalizing h with
  | _ n ih =>
    cases hworkers : h.workers with
    | nil => exact ⟨0, h, rfl, hworkers⟩
    | cons w rest =>
      have hw : h.workers[0]? = some w := by rw [hworkers]; rfl
      have hstep : step F32 h (.resume 0 result nowMs) =
          some (resume F32 { h with workers := h.workers.eraseIdx 0 } w result nowMs) := by
        rw [step, hw]
        rfl
      have hless := weight_resume F32 { h with workers := h.workers.eraseIdx 0 } w result nowMs
      rw [← weight_eraseIdx hw, hn] at hless
      obtain ⟨k, t, hrun, ht⟩ := ih _ hless _ rfl
      refine ⟨k + 1, t, ?_, ht⟩
      rw [List.replicate_succ, Runs.run, hstep]
      exact hrun

/-- Every accepted record is in a batch that the database took, and then has a row in the table,
or in the buffer, or in the hands of a goroutine, which comes to an end, or in a batch that a flush
gave up; no flush gives a batch up when it finds the database and the database takes the batch. -/
theorem accepted_accounted (groupID : String) {actions : List (Action F64)} {h : History F64}
    (hrun : Runs.run (step F32) { groupID } actions = some h) :
    (h.accepted : Multiset (HistoryRecord F64)) = h.inserted + h.batch + underWay h + h.dropped ∧
    (∀ r ∈ h.inserted, ∃ row ∈ h.table, r.conflicts row = true) ∧
    (Runs.Meets (step F32) Succeeds { groupID } actions → h.dropped = []) ∧
    ∀ result nowMs, ∃ k t,
      Runs.run (step F32) h (List.replicate k (.resume 0 result nowMs)) = some t ∧
        t.workers = [] := by
  have hacc : Accounted h [] := by
    apply Runs.run_preserves (fun _ _ _ => step_accounted) _ hrun
    exact ⟨rfl, nofun, rfl⟩
  refine ⟨?_, hacc.rows, ?_, workers_end h⟩
  · exact hacc.books.trans (add_zero _)
  · intro hok
    have hstep : ∀ s a t, (s : History F64).dropped = [] → Succeeds s a →
        step F32 s a = some t → t.dropped = [] := by
      intro s a t hs hsucc ht
      exact (step_dropped hsucc ht).trans hs
    exact Runs.run_invariant hstep rfl hok hrun

end Ends

/-! ## A record that is given up -/

/-- When no goroutine is under way, every accepted record was taken by the database or is in the
buffer. -/
def Kept (h : History F64) : Prop :=
  h.workers = [] → ∀ r ∈ h.accepted, r ∈ h.inserted ∨ r ∈ h.batch

def doorMessage : PlcDataMessage ℚ :=
  { moduleID := "gateway"
    deviceID := "press"
    variableID := "door"
    value := .bool true
    datatype := "boolean"
    historyEnabled := true }

def doorRecord : HistoryRecord ℚ :=
  { groupID := "plant"
    nodeID := "gateway"
    deviceID := "press"
    metricID := "door"
    boolValue := some true
    timestamp := 1000 }

/-- A message whose value gets into the batch. -/
def storeDoor : List (Action ℚ) :=
  [.openDB, .receive "gateway.data.press.door" doorMessage 1000 []] ++
    List.replicate 4 (.resume 0 (.ok ()) 1000)

/-- A flush of so many sections. -/
def flushes (sections : Nat) (result : Except String Unit) : List (Action ℚ) :=
  .flush :: List.replicate sections (.resume 0 result 2000)

def after (actions : List (Action ℚ)) : Option (History ℚ) :=
  Runs.run (step ℚ) { groupID := "plant" } actions

theorem accepted_accounted_door :
    ∃ h : History ℚ, Runs.run (step ℚ) { groupID := "plant" } (storeDoor ++ flushes 4 (.ok ())) =
        some h ∧ h.accepted = [doorRecord] ∧ (h.accepted : Multiset (HistoryRecord ℚ)) =
          h.inserted + h.batch + underWay h + h.dropped := by
  have haccepted : (after (storeDoor ++ flushes 4 (.ok ()))).map (·.accepted) =
      some [doorRecord] := by decide
  obtain ⟨h, hrun, haccepted⟩ := Option.map_eq_some_iff.mp haccepted
  exact ⟨h, hrun, haccepted, (accepted_accounted "plant" hrun).1⟩

/-- A record that is accepted and nowhere in the end has not been kept. -/
theorem not_kept_of_dropped {actions : List (Action ℚ)}
    (h : (after actions).map (fun h => (h.workers.length, h.accepted, h.inserted, h.batch)) =
      some (0, [doorRecord], [], [])) : ∃ h, after actions = some h ∧ ¬ Kept h := by
  obtain ⟨h, hrun, heq⟩ := Option.map_eq_some_iff.mp h
  simp only [Prod.mk.injEq, List.length_eq_zero_iff] at heq
  refine ⟨h, hrun, ?_⟩
  intro hkept
  have hin := hkept heq.1 doorRecord (by simp [heq.2.1])
  simp [heq.2.2.1, heq.2.2.2] at hin

/-- The insert fails, or there is no database: the record is neither written nor kept. -/
theorem accepted_not_kept :
    (∃ h, Runs.run (step ℚ) { groupID := "plant" }
      (storeDoor ++ flushes 4 (.error "connection refused")) = some h ∧ ¬ Kept h) ∧
    ∃ h, Runs.run (step ℚ) { groupID := "plant" }
      (storeDoor ++ .cleanup :: flushes 3 (.ok ())) = some h ∧ ¬ Kept h :=
  ⟨not_kept_of_dropped (by decide), not_kept_of_dropped (by decide)⟩

end HistoryBatches
