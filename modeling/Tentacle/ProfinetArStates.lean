import Tentacle.ProfinetDevice

/-!
# The states of an application relationship

A relationship is connected, parameterised, made ready, in DATA and closed, in this order,
and its exchange is started when it enters DATA. Each handler tests the state before it
moves it on, but for the end of the parameterisation: it also takes a relationship in DATA
back, and the exchange is then started again.
-/

namespace ProfinetDevice

open GoValues Runs ProfinetBlocks ProfinetAr

/-! ## The order of the states -/

def rank : ARState → Nat
  | .connected => 0
  | .parameterize => 1
  | .waitPrmEnd => 2
  | .waitAppReady => 3
  | .data => 4
  | .closed => 5

/-- The state of the relationship under the UUID. A handler that closes one deletes it. -/
def stateOf (d : Device) (uuid : UUID) : ARState :=
  match d.arMgr.ars.lookup uuid with
  | some ar => ar.state
  | none => .closed

/-- The event calls `onCyclicStart` for a relationship with the UUID. -/
def startsExchange (uuid : UUID) : Event → Bool
  | .start ar => ar.arUUID = uuid
  | _ => false

/-- The calls of `onCyclicStart` that wait for the lock to be given back. -/
def pendingStarts (d : Device) (uuid : UUID) : Nat := d.starting.countP fun ar => ar.arUUID = uuid

/-- In each stretch of the run in which the UUID is that of one relationship, its state
moves forward only, and its exchange is started at most once, besides the starts that an
earlier relationship with the UUID has left. -/
def OrderlyRun (localMAC : Bytes) (events : List Event) : Prop :=
  ∀ front mid back uuid d₁ d₂, events = front ++ (mid ++ back) →
    run step (newDevice localMAC) front = some d₁ → run step d₁ mid = some d₂ →
    (∀ e ∈ mid, ¬Connects uuid e) →
      rank (stateOf d₁ uuid) ≤ rank (stateOf d₂ uuid) ∧
      mid.countP (startsExchange uuid) + pendingStarts d₂ uuid ≤ pendingStarts d₁ uuid + 1

/-- A Control request ends the parameterisation of a relationship in DATA. -/
def LatePrmEnd (d : Device) : Event → Prop
  | .control b =>
    d.up ∧ isControlBlock b ∧ controlCmdOf b = controlCmdPrmEnd ∧
      ∃ ar, d.arMgr.ars.lookup (blockARUUID b) = some ar ∧ ar.state = .data
  | _ => False

/-! ## What a step does to the relationships -/

/-- What an event does to the relationships and to the starts under way. -/
inductive Moves (d d' : Device) (e : Event) : Prop
  | idle (hars : d'.arMgr.ars = d.arMgr.ars) (hstarting : d'.starting = d.starting)
      (hevent : ∀ ar, e ≠ .start ar)
  | connect (uuid : UUID) (ar : AR) (hconnects : Connects uuid e)
      (hars : d'.arMgr.ars = d.arMgr.ars.insert uuid ar) (huuid : ar.arUUID = uuid)
      (hstate : ar.state = .connected) (hstarting : d'.starting = d.starting)
  | write (uuid : UUID) (ar : AR) (hlookup : d.arMgr.ars.lookup uuid = some ar)
      (hstate : ar.state = .connected)
      (hars : d'.arMgr.ars = d.arMgr.ars.insert uuid { ar with state := .parameterize })
      (hstarting : d'.starting = d.starting) (hevent : ∀ ar, e ≠ .start ar)
  | prmEnd (uuid : UUID) (ar : AR) (hlookup : d.arMgr.ars.lookup uuid = some ar)
      (hlate : ar.state = .data → LatePrmEnd d e)
      (hars : d'.arMgr.ars = d.arMgr.ars.insert uuid { ar with state := .waitAppReady })
      (hstarting : d'.starting = d.starting) (hevent : ∀ ar, e ≠ .start ar)
  | ready (uuid : UUID) (ar : AR) (hlookup : d.arMgr.ars.lookup uuid = some ar)
      (hstate : ar.state = .waitAppReady)
      (hars : d'.arMgr.ars = d.arMgr.ars.insert uuid { ar with state := .data })
      (hstarting : d'.starting = { ar with state := .data } :: d.starting)
      (hevent : ∀ ar, e ≠ .start ar)
  | release (uuid : UUID) (hars : d'.arMgr.ars = d.arMgr.ars.erase uuid)
      (hstarting : d'.starting = d.starting) (hevent : ∀ ar, e ≠ .start ar)
  | start (ar : AR) (hevent : e = .start ar) (hmem : ar ∈ d.starting)
      (hars : d'.arMgr.ars = d.arMgr.ars) (hstarting : d'.starting = d.starting.erase ar)

/-- A connect stores one relationship as connected. -/
theorem moves_connect {d d' : Device} {blocks : List PNIOBlock} {addr : UDPAddr}
    {activityUUID : UUID} (h : perform d (.connect blocks addr activityUUID) = some d') :
    Moves d d' (.connect blocks addr activityUUID) := by
  rw [perform] at h
  obtain ⟨p, hp⟩ | ⟨status, hok⟩ | ⟨c, m, resp, ar, hblocks, hok, hars, huuid, hstate, -⟩ :=
    handleConnect_cases d.arMgr blocks addr activityUUID
  · rw [hp] at h
    cases h
    exact .idle rfl rfl (by simp)
  · rw [hok] at h
    cases h
    exact .idle rfl rfl (by simp)
  · rw [hok] at h
    cases h
    exact .connect c.arBlock.arUUID ar ⟨c, hblocks, rfl⟩ hars huuid hstate rfl

/-- A write takes a connected relationship to its parameters. -/
theorem moves_write (d : Device) (blocks : List PNIOBlock) (objectUUID : UUID) :
    Moves d (handleWrite d blocks objectUUID).1 (.write blocks objectUUID) := by
  rw [handleWrite]
  cases hfind : findAR d.arMgr objectUUID with
  | none => exact .idle rfl rfl (by simp)
  | some r =>
    by_cases hstate : r.2.state = .connected
    · dsimp only
      rw [if_pos hstate]
      exact .write r.1 r.2 (findAR_lookup hfind) hstate rfl rfl (by simp)
    · dsimp only
      rw [if_neg hstate]
      exact .idle rfl rfl (by simp)

/-- A control block ends the parameters of a relationship, releases it or does nothing. -/
theorem moves_control {d d' : Device} {b : PNIOBlock} {resp : Bytes} (hup : d.up)
    (h : controlBlock d b = .ok (d', resp)) : Moves d d' (.control b) := by
  rw [controlBlock] at h
  by_cases hblock : isControlBlock b
  · rw [if_neg (by simp [hblock])] at h
    cases hlookup : d.arMgr.ars.lookup (blockARUUID b) with
    | none =>
      rw [hlookup] at h
      cases h
    | some ar =>
      rw [hlookup] at h
      dsimp only at h
      split_ifs at h with hprm hready hrelease
      · cases h
        exact .prmEnd (blockARUUID b) ar hlookup
          (fun hdata => ⟨hup, hblock, hprm, ar, hlookup, hdata⟩) rfl rfl (by simp)
      · cases h
        exact .idle rfl rfl (by simp)
      · cases h
        have hreleases := releases_onCyclicStop hlookup
        exact .release (blockARUUID b) hreleases.ars hreleases.starting (by simp)
      · cases h
        exact .idle rfl rfl (by simp)
  · rw [if_pos (by simp [hblock])] at h
    cases h
    exact .idle rfl rfl (by simp)

/-- A release takes its relationship away. -/
theorem moves_release (d : Device) (blocks : List PNIOBlock) (objectUUID : UUID) :
    Moves d (handleRelease d blocks objectUUID).1 (.release blocks objectUUID) := by
  rw [handleRelease]
  cases hfind : findReleased d.arMgr blocks objectUUID with
  | none => exact .idle rfl rfl (by simp)
  | some r =>
    have hreleases := releases_onCyclicStop (findReleased_lookup hfind)
    exact .release r.1 hreleases.ars hreleases.starting (by simp)

/-- The application takes a relationship that waits for it to the exchange of data. -/
theorem moves_ready (d : Device) (readying : List UUID) (arUUID : UUID) :
    Moves d (applicationReady { d with readying := readying } arUUID) (.ready arUUID) := by
  rw [applicationReady]
  dsimp only
  cases hlookup : d.arMgr.ars.lookup arUUID with
  | none => exact .idle rfl rfl (by simp)
  | some ar =>
    by_cases hstate : ar.state = .waitAppReady
    · dsimp only
      rw [if_pos hstate]
      exact .ready arUUID ar hlookup hstate rfl rfl (by simp)
    · dsimp only
      rw [if_neg hstate]
      exact .idle rfl rfl (by simp)

/-- Each event makes one of the moves. -/
theorem step_moves {d d' : Device} {e : Event} (h : step d e = some d') : Moves d d' e := by
  obtain ⟨hup, hperform⟩ := Option.ite_none_right_eq_some.mp h
  cases e with
  | connect blocks addr activityUUID => exact moves_connect hperform
  | write blocks objectUUID =>
    cases hperform
    exact moves_write d blocks objectUUID
  | control b =>
    rw [perform] at hperform
    cases hblock : controlBlock d b with
    | error status =>
      rw [hblock] at hperform
      cases hperform
      exact .idle rfl rfl (by simp)
    | ok r =>
      rw [hblock] at hperform
      cases hperform
      exact moves_control hup hblock
  | release blocks objectUUID =>
    cases hperform
    exact moves_release d blocks objectUUID
  | ready arUUID =>
    obtain ⟨-, ⟨⟩⟩ := Option.ite_none_right_eq_some.mp hperform
    exact moves_ready d _ arUUID
  | start ar =>
    obtain ⟨hmem, ⟨⟩⟩ := Option.ite_none_right_eq_some.mp hperform
    exact .start ar rfl hmem (congrArg ARManager.ars (stopHandler_arMgr _))
      (stopHandler_starting _)
  | send handler =>
    obtain ⟨-, ⟨⟩⟩ := Option.ite_none_right_eq_some.mp hperform
    rw [startSender]
    cases newTicker handler.ar.cyclePeriod with
    | ok period => exact .idle rfl rfl (by simp)
    | error p => exact .idle rfl rfl (by simp)

/-! ## One step -/

/-- Each relationship is kept under its own UUID until it is closed. -/
def Kept (d : Device) : Prop :=
  ∀ uuid ar, d.arMgr.ars.lookup uuid = some ar → ar.arUUID = uuid ∧ ar.state ≠ .closed

theorem kept_newDevice (localMAC : Bytes) : Kept (newDevice localMAC) := by simp [Kept, newDevice]

theorem kept_insert {d d' : Device} {uuid : UUID} {ar : AR} (hd : Kept d)
    (hars : d'.arMgr.ars = d.arMgr.ars.insert uuid ar) (huuid : ar.arUUID = uuid)
    (hstate : ar.state ≠ .closed) : Kept d' := by
  intro uuid' ar' hlookup
  rw [hars] at hlookup
  exact forall_lookup_insert hd ⟨huuid, hstate⟩ uuid' ar' hlookup

/-- Every event leaves each relationship under its own UUID. -/
theorem Moves.kept {d d' : Device} {e : Event} (h : Moves d d' e) (hd : Kept d) : Kept d' := by
  cases h with
  | idle hars => rwa [Kept, hars]
  | connect uuid ar hconnects hars huuid hstate =>
    exact kept_insert hd hars huuid (by rw [hstate]; decide)
  | write uuid ar hlookup hstate hars =>
    exact kept_insert hd hars (hd uuid ar hlookup).1 (by simp)
  | prmEnd uuid ar hlookup hlate hars =>
    exact kept_insert hd hars (hd uuid ar hlookup).1 (by simp)
  | ready uuid ar hlookup hstate hars =>
    exact kept_insert hd hars (hd uuid ar hlookup).1 (by simp)
  | release uuid hars =>
    intro uuid' ar' hlookup
    rw [hars] at hlookup
    exact forall_lookup_erase hd uuid uuid' ar' hlookup
  | start ar hevent hmem hars => rwa [Kept, hars]

theorem stateOf_eq {d : Device} {uuid : UUID} {ar : AR}
    (h : d.arMgr.ars.lookup uuid = some ar) : stateOf d uuid = ar.state := by rw [stateOf, h]

theorem stateOf_congr {d d' : Device} (h : d'.arMgr.ars = d.arMgr.ars) (uuid : UUID) :
    stateOf d' uuid = stateOf d uuid := by rw [stateOf, stateOf, h]

/-- A state moves forward, and no other one moves. -/
theorem rank_insert {d d' : Device} {uuid : UUID} {ar : AR} {state : ARState}
    (hlookup : d.arMgr.ars.lookup uuid = some ar)
    (hars : d'.arMgr.ars = d.arMgr.ars.insert uuid { ar with state := state })
    (hrank : rank ar.state ≤ rank state) (uuid' : UUID) :
    rank (stateOf d uuid') ≤ rank (stateOf d' uuid') := by
  by_cases hkey : uuid' = uuid
  · subst hkey
    have hlookup' : d'.arMgr.ars.lookup uuid' = some { ar with state := state } := by
      rw [hars, AList.lookup_insert]
    rwa [stateOf_eq hlookup, stateOf_eq hlookup']
  · rw [stateOf, stateOf, hars, AList.lookup_insert_ne hkey]

/-- Of the open states only the exchange of data comes after the wait. -/
theorem rank_le_waitAppReady {state : ARState} (hclosed : state ≠ .closed)
    (hdata : state ≠ .data) : rank state ≤ rank .waitAppReady := by
  cases state with
  | closed => exact absurd rfl hclosed
  | data => exact absurd rfl hdata
  | connected => decide
  | parameterize => decide
  | waitPrmEnd => decide
  | waitAppReady => decide

/-- An event in time takes no relationship back. -/
theorem Moves.rank_le {d d' : Device} {e : Event} (h : Moves d d' e) (hd : Kept d)
    (hlate : ¬LatePrmEnd d e) {uuid : UUID} (hconnects : ¬Connects uuid e) :
    rank (stateOf d uuid) ≤ rank (stateOf d' uuid) := by
  cases h with
  | idle hars => rw [stateOf_congr hars]
  | connect uuid' ar hconnects' hars =>
    have hne : uuid ≠ uuid' := by
      rintro rfl
      exact hconnects hconnects'
    rw [stateOf, stateOf, hars, AList.lookup_insert_ne hne]
  | write uuid' ar hlookup hstate hars =>
    exact rank_insert hlookup hars (by rw [hstate]; decide) uuid
  | prmEnd uuid' ar hlookup hdata hars =>
    apply rank_insert hlookup hars
    exact rank_le_waitAppReady (hd uuid' ar hlookup).2 fun h => hlate (hdata h)
  | ready uuid' ar hlookup hstate hars =>
    exact rank_insert hlookup hars (by rw [hstate]; decide) uuid
  | release uuid' hars =>
    by_cases hkey : uuid = uuid'
    · rw [hkey, stateOf.eq_def d', hars, AList.lookup_erase]
      cases stateOf d uuid' <;> decide
    · rw [stateOf, stateOf, hars, AList.lookup_erase_ne hkey]
  | start ar hevent hmem hars => rw [stateOf_congr hars]

/-- What is left to a relationship of its one start: it is used up when it enters DATA. -/
def budget (state : ARState) : Nat := if rank state < rank .data then 1 else 0

theorem budget_anti {state state' : ARState} (h : rank state ≤ rank state') :
    budget state' ≤ budget state := by
  rw [budget, budget]
  split_ifs <;> omega

theorem budget_le_one (state : ARState) : budget state ≤ 1 := by
  rw [budget]
  split_ifs <;> omega

theorem startsExchange_eq_false {e : Event} (h : ∀ ar, e ≠ .start ar) (uuid : UUID) :
    startsExchange uuid e = false := by
  cases e with
  | start ar => exact absurd rfl (h ar)
  | _ => rfl

/-- A start is taken from those under way. -/
theorem pendingStarts_erase {d d' : Device} {ar : AR} (hmem : ar ∈ d.starting)
    (hstarting : d'.starting = d.starting.erase ar) (uuid : UUID) :
    [Event.start ar].countP (startsExchange uuid) + pendingStarts d' uuid =
      pendingStarts d uuid := by
  rw [pendingStarts, pendingStarts, hstarting,
    (List.perm_cons_erase hmem).countP_eq (fun ar => decide (ar.arUUID = uuid)),
    List.countP_cons, List.countP_cons, List.countP_nil, startsExchange, Nat.zero_add, Nat.add_comm]

/-- The step of the counting argument. -/
theorem Moves.starts_le {d d' : Device} {e : Event} (h : Moves d d' e) (hd : Kept d)
    (hlate : ¬LatePrmEnd d e) {uuid : UUID} (hconnects : ¬Connects uuid e) :
    [e].countP (startsExchange uuid) + pendingStarts d' uuid + budget (stateOf d' uuid) ≤
      pendingStarts d uuid + budget (stateOf d uuid) := by
  have hbudget := budget_anti (h.rank_le hd hlate hconnects)
  have hquiet : d'.starting = d.starting → (∀ ar, e ≠ .start ar) →
      [e].countP (startsExchange uuid) + pendingStarts d' uuid + budget (stateOf d' uuid) ≤
        pendingStarts d uuid + budget (stateOf d uuid) := by
    intro hstarting hevent
    rw [pendingStarts, pendingStarts, hstarting, List.countP_cons, List.countP_nil,
      startsExchange_eq_false hevent]
    simp only [Bool.false_eq_true, if_false]
    omega
  cases h with
  | idle hars hstarting hevent => exact hquiet hstarting hevent
  | connect uuid' ar hconnects' hars huuid hstate hstarting =>
    apply hquiet hstarting
    rintro ar rfl
    exact hconnects'
  | write uuid' ar hlookup hstate hars hstarting hevent => exact hquiet hstarting hevent
  | prmEnd uuid' ar hlookup hdata hars hstarting hevent => exact hquiet hstarting hevent
  | release uuid' hars hstarting hevent => exact hquiet hstarting hevent
  | start ar hevent hmem hars hstarting =>
    subst hevent
    rw [pendingStarts_erase hmem hstarting]
    omega
  | ready uuid' ar hlookup hstate hars hstarting hevent =>
    rw [pendingStarts, pendingStarts, hstarting, List.countP_cons, List.countP_nil,
      startsExchange_eq_false hevent, List.countP_cons, (hd uuid' ar hlookup).1]
    by_cases hkey : uuid' = uuid
    · subst hkey
      have hlookup' : d'.arMgr.ars.lookup uuid' = some { ar with state := .data } := by
        rw [hars, AList.lookup_insert]
      rw [stateOf_eq hlookup, stateOf_eq hlookup', hstate]
      simp [budget, rank]
    · simp only [Bool.false_eq_true, if_false, decide_eq_true_eq, if_neg hkey]
      omega

/-! ## Whole runs -/

theorem kept_run {d d' : Device} {events : List Event} (hd : Kept d)
    (hrun : run step d events = some d') : Kept d' :=
  run_preserves (fun _ _ _ hd hstep => (step_moves hstep).kept hd) hd hrun

/-- The states and the starts along a stretch of a run. -/
theorem run_orderly {d d' : Device} {events : List Event} (hd : Kept d) {uuid : UUID}
    (hlate : Meets step (fun d e => ¬LatePrmEnd d e) d events)
    (hconnects : ∀ e ∈ events, ¬Connects uuid e) (hrun : run step d events = some d') :
    rank (stateOf d uuid) ≤ rank (stateOf d' uuid) ∧
      events.countP (startsExchange uuid) + pendingStarts d' uuid + budget (stateOf d' uuid) ≤
        pendingStarts d uuid + budget (stateOf d uuid) := by
  induction events generalizing d with
  | nil =>
    cases hrun
    simp
  | cons e events ih =>
    obtain ⟨d₁, hstep, hrest⟩ := Option.bind_eq_some_iff.mp hrun
    have hmoves := step_moves hstep
    have hfirst := hmoves.rank_le hd hlate.1 (hconnects e List.mem_cons_self)
    have hstarts := hmoves.starts_le hd hlate.1 (hconnects e List.mem_cons_self)
    obtain ⟨hlater, hcount⟩ := ih (hmoves.kept hd) (hlate.2 d₁ hstep)
      (fun e he => hconnects e (List.mem_cons_of_mem _ he)) hrest
    refine ⟨hfirst.trans hlater, ?_⟩
    rw [← List.singleton_append, List.countP_append]
    omega

/-- A late end of the parameterisation takes the relationship back. -/
theorem LatePrmEnd.step {d : Device} {e : Event} (h : LatePrmEnd d e) :
    ∃ d' uuid, ProfinetDevice.step d e = some d' ∧ ¬Connects uuid e ∧
      stateOf d uuid = .data ∧ stateOf d' uuid = .waitAppReady := by
  cases e with
  | control b =>
    obtain ⟨hup, hblock, hprm, ar, hlookup, hdata⟩ := h
    have hok : ∃ r, controlBlock d b = .ok r ∧
        r.1.arMgr.ars = d.arMgr.ars.insert (blockARUUID b) { ar with state := .waitAppReady } := by
      rw [controlBlock, if_neg (by simp [hblock]), hlookup]
      dsimp only
      rw [if_pos hprm]
      exact ⟨_, rfl, rfl⟩
    obtain ⟨r, hr, hars⟩ := hok
    refine ⟨r.1, blockARUUID b, ?_, id, (stateOf_eq hlookup).trans hdata, ?_⟩
    · rw [step_eq hup, perform, hr]
    · rw [stateOf, hars, AList.lookup_insert]
  | _ => exact h.elim

/-- In an orderly run no end of parameters comes late. -/
theorem OrderlyRun.inTime {localMAC : Bytes} {events : List Event}
    (h : OrderlyRun localMAC events) :
    Meets ProfinetDevice.step (fun d e => ¬LatePrmEnd d e) (newDevice localMAC) events := by
  rw [meets_iff]
  rintro front e back d rfl hrun hlate
  obtain ⟨d', uuid, hstep, hconnects, hdata, hwait⟩ := hlate.step
  have hone : run ProfinetDevice.step d [e] = some d' := by rw [run, hstep, Option.bind_some, run]
  have hforward := (h front [e] back uuid d d' rfl hrun hone (by simpa using hconnects)).1
  rw [hdata, hwait] at hforward
  exact absurd hforward (by decide)

/-- In a run the states of the relationships move forward only, and each exchange is
started at most once, exactly when no end of the parameterisation meets a relationship in
DATA. -/
theorem orderlyRun_iff (localMAC : Bytes) (events : List Event) :
    OrderlyRun localMAC events ↔
      Meets step (fun d e => ¬LatePrmEnd d e) (newDevice localMAC) events := by
  constructor
  · exact OrderlyRun.inTime
  · rintro h front mid back uuid d₁ d₂ rfl hfront hmid hconnects
    have hkept := kept_run (kept_newDevice localMAC) hfront
    obtain ⟨hrank, hstarts⟩ := run_orderly hkept (h.stretch hfront) hconnects hmid
    have hbudget := budget_le_one (stateOf d₁ uuid)
    exact ⟨hrank, by omega⟩

/-- A relationship in DATA. -/
def oneController : List Event :=
  [.connect (sampleConnect 1) (sampleAddr 1) (.copy 16 []), .control (prmEndBlock (sampleUUID 1)),
    .ready (sampleUUID 1), .start (sampleAR 1 .data)]

def oneInData : Device := (run step (newDevice []) oneController).getD (newDevice [])

/-- The controller repeats the end of the parameterisation. -/
def repeatedPrmEnd : List Event :=
  [.control (prmEndBlock (sampleUUID 1)), .ready (sampleUUID 1), .start (sampleAR 1 .data)]

theorem run_oneController : run step (newDevice []) oneController = some oneInData := by
  cases hrun : run step (newDevice []) oneController with
  | none => exact absurd (congrArg Option.isSome hrun) (by decide)
  | some d => rw [oneInData, hrun, Option.getD_some]

/-- The relationship leaves DATA, and its exchange is started twice. -/
theorem repeatedPrmEnd_not_orderly :
    (oneController ++ repeatedPrmEnd).countP (startsExchange (sampleUUID 1)) = 2 ∧
      (run step (newDevice []) (oneController ++ repeatedPrmEnd)).isSome ∧
      ¬OrderlyRun [] (oneController ++ repeatedPrmEnd) := by
  refine ⟨by decide, by decide, ?_⟩
  intro h
  have hlate : LatePrmEnd oneInData (.control (prmEndBlock (sampleUUID 1))) :=
    ⟨by decide, by decide, by decide, sampleAR 1 .data, by decide, rfl⟩
  exact meets_iff.mp h.inTime oneController _ _ oneInData rfl run_oneController hlate

end ProfinetDevice
