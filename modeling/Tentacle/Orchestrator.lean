import Mathlib.Data.String.Basic
import Tentacle.GoValues
import Tentacle.Runs

/-!
# The orchestrator of a monolith

Modules run as goroutines of the orchestrator's process, and `running` maps a module ID to the
instance that was started last. The sweeps and the handlers of the KV watch reconcile a module
with its desired state, a command restarts it, and a goroutine whose `Start` has returned deletes
the entry of its module. Each of them takes the lock several times: a section under the lock, or
a call of `Stop` between two of them, is one step here, and the calls in progress may take their
steps in any order.
-/

namespace Orchestrator

open GoValues

structure ConfigField where
  envVar : String
  default : String
  required : Bool
  deriving DecidableEq, Repr

structure ModuleRegistryEntry where
  repo : String := ""
  moduleID : String
  runtime : String := ""
  aptDeps : List String := []
  requiredConfig : List ConfigField := []
  deriving DecidableEq, Repr

structure DesiredService where
  moduleID : String
  running : Bool
  deriving DecidableEq, Repr

structure StatusOpts where
  installedVersions : List String := []
  activeVersion : String := ""
  systemdState : String
  reconcileState : String
  lastError : String := ""
  deriving DecidableEq, Repr

structure Response where
  success : Bool
  error : String := ""
  deriving DecidableEq, Repr

/-- What the binary has: the registry, and the modules it has a factory for. -/
structure Setup where
  moduleRegistry : List ModuleRegistryEntry
  factories : List String

def getRegistryEntry (b : Setup) (moduleID : String) : Option ModuleRegistryEntry :=
  b.moduleRegistry.find? (·.moduleID = moduleID)

def missingConfig (entry : ModuleRegistryEntry) (moduleConfig : GoMap String String) :
    List String :=
  (entry.requiredConfig.filter fun cf =>
    cf.required ∧ (moduleConfig.lookup cf.envVar).getD "" = "" ∧ cf.default = "").map
      ConfigField.envVar

def embedded (systemdState reconcileState lastError : String) : StatusOpts :=
  { installedVersions := ["embedded"], activeVersion := "embedded", systemdState, reconcileState,
    lastError }

/-- The checks of `reconcileModuleMonolith` before it looks for a running instance: an error is
the status to report, if any. -/
def checkDesired (b : Setup) (desired : DesiredService) (moduleConfig : GoMap String String)
    (depsInstalled : Bool) : Except (Option StatusOpts) Unit :=
  match getRegistryEntry b desired.moduleID with
  | none => .error none
  | some entry =>
    if desired.moduleID ∉ b.factories then
      .error (some
        { systemdState := "not-found"
          reconcileState := "error"
          lastError := "Module \"" ++ desired.moduleID ++ "\" not compiled into this binary" })
    else if desired.running ∧ missingConfig entry moduleConfig ≠ [] then
      .error (some (embedded "inactive" "needs_config" ("Missing required config: [" ++
        " ".intercalate (missingConfig entry moduleConfig) ++ "]")))
    else if desired.running ∧ entry.aptDeps ≠ [] ∧ depsInstalled = false then
      .error (some (embedded "inactive" "error" "Failed to install system dependencies"))
    else .ok ()

/-- A goroutine that runs a module. One that a restart started does not recover from a panic. -/
structure Instance where
  moduleID : String
  recovers : Bool
  toldToStop : Bool := false
  returned : Bool := false
  cleanedUp : Bool := false
  deriving DecidableEq, Repr

/-- A call in progress, by what it does next. -/
inductive Call where
  /-- `reconcileModuleMonolith` after it has looked for an instance. -/
  | reconcile (desired : DesiredService) (isRunning : Bool) (sweep : Bool)
  /-- It has taken the entry of an instance out and will call `Stop`. -/
  | stopping (moduleID : String) (rm : Nat)
  /-- `handleRestartService` after it has found the instance. -/
  | restart (moduleID : String) (rm : Nat)
  /-- It has stopped that instance and will register a new one. -/
  | starting (moduleID : String) (rm : Nat)
  deriving DecidableEq, Repr

structure System where
  running : GoMap String Nat := ∅
  /-- All instances, an instance's number is its position. -/
  instances : List Instance := []
  calls : List Call := []
  status : GoMap String StatusOpts := ∅
  responses : List Response := []
  crashed : Bool := false

def reportStatus (s : System) (moduleID : String) (opts : StatusOpts) : System :=
  { s with status := s.status.insert moduleID opts }

def start (s : System) (moduleID : String) (recovers : Bool) : System :=
  { s with
    running := s.running.insert moduleID s.instances.length
    instances := s.instances ++ [{ moduleID, recovers }] }

def update (s : System) (i : Nat) (f : Instance → Instance) : System :=
  { s with instances := s.instances.modify i f }

/-- `Stop` and `cancel`. -/
def stop (s : System) (i : Nat) : System := update s i fun inst => { inst with toldToStop := true }

def respond (s : System) (r : Response) : System := { s with responses := s.responses ++ [r] }

/-- The next step of a call that is no longer among those in progress. -/
def resume (s : System) : Call → System
  | .reconcile desired isRunning sweep =>
    if desired.running ∧ isRunning = false then
      reportStatus (start s desired.moduleID true) desired.moduleID (embedded "active" "ok" "")
    else if desired.running = false ∧ isRunning then
      match s.running.lookup desired.moduleID with
      | some rm =>
        { s with
          running := s.running.erase desired.moduleID
          calls := s.calls ++ [.stopping desired.moduleID rm] }
      -- `rm` is nil and `rm.mod` panics; only a sweep recovers from that
      | none => { s with crashed := !sweep }
    else
      reportStatus s desired.moduleID
        (embedded (if isRunning then "active" else "inactive") "ok" "")
  | .stopping moduleID rm => reportStatus (stop s rm) moduleID (embedded "inactive" "ok" "")
  | .restart moduleID rm =>
    { stop s rm with calls := s.calls ++ [.starting moduleID rm] }
  | .starting moduleID _ => respond (start s moduleID false) { success := true }

inductive Action where
  | reconcile (desired : DesiredService) (sweep : Bool) (moduleConfig : GoMap String String)
    (depsInstalled : Bool)
  | restartService (modID : String)
  /-- The KV watch shows the deletion of a desired service. -/
  | kvDelete (key : String)
  /-- A call in progress takes its next step. -/
  | resume (n : Nat)
  /-- `Start` of an instance returns, or panics. -/
  | exit (i : Nat) (panics : Bool)
  /-- Its goroutine deletes the entry of the module. -/
  | cleanup (i : Nat)

def reconcile (b : Setup) (s : System) (desired : DesiredService) (sweep : Bool)
    (moduleConfig : GoMap String String) (depsInstalled : Bool) : System :=
  match checkDesired b desired moduleConfig depsInstalled with
  | .error none => s
  | .error (some opts) => reportStatus s desired.moduleID opts
  | .ok () =>
    let isRunning := (s.running.lookup desired.moduleID).isSome
    { s with calls := s.calls ++ [.reconcile desired isRunning sweep] }

def handleRestartService (b : Setup) (s : System) (modID : String) : System :=
  if modID = "" then
    respond s { success := false, error := "moduleId is required for restart-service" }
  else
    match s.running.lookup modID with
    | none => respond s { success := false, error := "Module not running: " ++ modID }
    | some rm =>
      if modID ∉ b.factories then
        respond s { success := false, error := "No factory for module: " ++ modID }
      else { s with calls := s.calls ++ [.restart modID rm] }

def kvDelete (s : System) (key : String) : System :=
  let s := match s.running.lookup key with
    | some rm => { stop s rm with running := s.running.erase key }
    | none => s
  { s with status := s.status.erase key }

def step (b : Setup) (s : System) (a : Action) : Option System :=
  if s.crashed then none
  else
    match a with
    | .reconcile desired sweep moduleConfig depsInstalled =>
      some (reconcile b s desired sweep moduleConfig depsInstalled)
    | .restartService modID => some (handleRestartService b s modID)
    | .kvDelete key => some (kvDelete s key)
    | .resume n => s.calls[n]?.map fun c => resume { s with calls := s.calls.eraseIdx n } c
    | .exit i panics =>
      s.instances[i]?.bind fun inst =>
        if inst.returned then none
        else if panics ∧ inst.recovers = false then some { s with crashed := true }
        else some (update s i fun inst => { inst with returned := true })
    | .cleanup i =>
      s.instances[i]?.bind fun inst =>
        if inst.returned ∧ inst.cleanedUp = false then
          some
            { update s i fun inst => { inst with cleanedUp := true } with
              running := s.running.erase inst.moduleID }
        else none

/-- Started, not told to stop and not returned. -/
def Live (s : System) (i : Nat) (moduleID : String) : Prop :=
  ∃ inst ∈ s.instances[i]?, inst.moduleID = moduleID ∧ inst.toldToStop = false ∧
    inst.returned = false

instance Live.decidable (s : System) (i : Nat) (moduleID : String) :
    Decidable (Live s i moduleID) :=
  match h : s.instances[i]? with
  | none => isFalse (by simp [Live, h])
  | some inst => decidable_of_iff
    (inst.moduleID = moduleID ∧ inst.toldToStop = false ∧ inst.returned = false)
    (by simp [Live, h])

/-- No module has two live instances. -/
def SingleInstance (s : System) : Prop :=
  ∀ moduleID i j, Live s i moduleID → Live s j moduleID → i = j

/-! ## What a step does -/

/-- The action is a new call. -/
def Action.begins : Action → Bool
  | .reconcile .. | .restartService _ | .kvDelete _ => true
  | .resume _ | .exit .. | .cleanup _ => false

/-- The module for which the step registers a new instance. -/
def registers (s : System) : Action → Option String
  | .resume n =>
    match s.calls[n]? with
    | some (.reconcile desired isRunning _) =>
      if desired.running ∧ isRunning = false then some desired.moduleID else none
    | some (.starting moduleID _) => some moduleID
    | _ => none
  | _ => none

/-- The stops under way stay the same. -/
def SameStops (s t : System) : Prop :=
  ∀ m i, Call.stopping m i ∈ t.calls ↔ Call.stopping m i ∈ s.calls

inductive Effect (s : System) : Action → System → Prop where
  | quiet {a t} (running : t.running = s.running) (instances : t.instances = s.instances)
    (stops : SameStops s t) : Effect s a t
  | started {a t} (m recovers) (registers : registers s a = some m)
    (running : t.running = s.running.insert m s.instances.length)
    (instances : t.instances = s.instances ++ [{ moduleID := m, recovers }])
    (stops : SameStops s t) (calls : t.calls.length < s.calls.length) : Effect s a t
  | taken {a t} (m rm) (entry : s.running.lookup m = some rm)
    (running : t.running = s.running.erase m) (instances : t.instances = s.instances)
    (stops : ∀ m' i, Call.stopping m' i ∈ t.calls ↔
      Call.stopping m' i ∈ s.calls ∨ (m' = m ∧ i = rm)) : Effect s a t
  | stopped {a t} (rm) (running : t.running = s.running)
    (instances : t.instances = (stop s rm).instances)
    (stops : ∀ m i, Call.stopping m i ∈ t.calls → Call.stopping m i ∈ s.calls)
    (others : ∀ m i, i ≠ rm → Call.stopping m i ∈ s.calls → Call.stopping m i ∈ t.calls) :
    Effect s a t
  | dropped {a t} (m rm) (entry : s.running.lookup m = some rm)
    (running : t.running = s.running.erase m) (instances : t.instances = (stop s rm).instances)
    (stops : SameStops s t) : Effect s a t
  | exited {a t} (i) (running : t.running = s.running)
    (instances : t.instances = (update s i fun inst => { inst with returned := true }).instances)
    (stops : SameStops s t) : Effect s a t
  | cleaned {t} (i inst) (entry : s.instances[i]? = some inst) (returned : inst.returned = true)
    (running : t.running = s.running.erase inst.moduleID)
    (instances : t.instances = (update s i fun inst => { inst with cleanedUp := true }).instances)
    (stops : SameStops s t) : Effect s (.cleanup i) t

/-- The other calls stay when one is taken out. -/
theorem mem_eraseIdx_iff {calls : List Call} {n : Nat} {c d : Call} (h : calls[n]? = some c)
    (hd : d ≠ c) : d ∈ calls.eraseIdx n ↔ d ∈ calls := by
  obtain ⟨hn, rfl⟩ := List.getElem?_eq_some_iff.mp h
  constructor
  · exact List.mem_of_mem_eraseIdx
  · intro hmem
    obtain ⟨k, hk⟩ := List.mem_iff_getElem?.mp hmem
    refine List.mem_eraseIdx_iff_getElem?.mpr ⟨k, ?_, hk⟩
    rintro rfl
    rw [List.getElem?_eq_getElem hn, Option.some.injEq] at hk
    exact hd hk.symm

/-- What a call that begins or goes on has just found. -/
def Call.Fresh (s t : System) : Call → Prop
  | .reconcile desired isRunning _ => isRunning = (s.running.lookup desired.moduleID).isSome
  | .stopping moduleID rm => s.running.lookup moduleID = some rm
  | .restart moduleID rm => s.running.lookup moduleID = some rm
  | .starting moduleID rm => .restart moduleID rm ∈ s.calls ∧ t.instances = (stop s rm).instances

structure CallsFresh (s : System) (a : Action) (t : System) : Prop where
  fresh : ∀ c ∈ t.calls, c ∈ s.calls ∨ c.Fresh s t
  length : t.calls.length ≤ s.calls.length + if a.begins then 1 else 0

theorem callsFresh_of_sublist {s t : System} (a : Action) (h : t.calls.Sublist s.calls) :
    CallsFresh s a t :=
  ⟨fun _ hc => .inl (h.subset hc), Nat.le_add_right_of_le h.length_le⟩

/-- An action adds at most one call. -/
theorem callsFresh_snoc {s t : System} {a : Action} {calls : List Call} {c : Call}
    (h : t.calls = calls ++ [c]) (hcalls : calls.Sublist s.calls)
    (hlen : calls.length < s.calls.length + if a.begins then 1 else 0) (hc : c.Fresh s t) :
    CallsFresh s a t := by
  constructor
  · intro d hd
    rw [h] at hd
    obtain hd | hd := List.mem_append.mp hd
    · exact .inl (hcalls.subset hd)
    · cases List.mem_singleton.mp hd
      exact .inr hc
  · rw [h, List.length_append]
    exact hlen

/-- A call that goes on has one of the effects. -/
theorem resume_effect {s : System} {n : Nat} {c : Call} (hc : s.calls[n]? = some c) :
    Effect s (.resume n) (resume { s with calls := s.calls.eraseIdx n } c) ∧
      CallsFresh s (.resume n) (resume { s with calls := s.calls.eraseIdx n } c) := by
  have hrest : (s.calls.eraseIdx n).Sublist s.calls := List.eraseIdx_sublist _ _
  have hlen : (s.calls.eraseIdx n).length < s.calls.length := by
    have hn := (List.getElem?_eq_some_iff.mp hc).1
    rw [List.length_eraseIdx_of_lt hn]
    omega
  cases c with
  | reconcile desired isRunning sweep =>
    have hstops : ∀ m i, Call.stopping m i ∈ s.calls.eraseIdx n ↔ Call.stopping m i ∈ s.calls :=
      fun m i => mem_eraseIdx_iff hc (by simp)
    rw [resume]
    split
    next h =>
      refine ⟨.started desired.moduleID true ?_ rfl rfl hstops hlen, callsFresh_of_sublist _ hrest⟩
      rw [registers, hc]
      exact if_pos h
    next =>
      split
      next =>
        split
        next rm hrm =>
          refine ⟨.taken desired.moduleID rm hrm rfl rfl ?_, callsFresh_snoc rfl hrest hlen hrm⟩
          intro m i
          rw [List.mem_append, hstops]
          simp
        next => exact ⟨.quiet rfl rfl hstops, callsFresh_of_sublist _ hrest⟩
      next => exact ⟨.quiet rfl rfl hstops, callsFresh_of_sublist _ hrest⟩
  | stopping m rm =>
    refine ⟨.stopped rm rfl rfl ?_ ?_, callsFresh_of_sublist _ hrest⟩
    · intro m' i hmem
      exact hrest.subset hmem
    · intro m' i hi hmem
      exact (mem_eraseIdx_iff hc (by simp [hi])).mpr hmem
  | restart m rm =>
    have hstops : ∀ m' i, Call.stopping m' i ∈ s.calls.eraseIdx n ++ [Call.starting m rm] ↔
        Call.stopping m' i ∈ s.calls := by
      intro m' i
      rw [List.mem_append, mem_eraseIdx_iff hc (by simp)]
      simp
    refine ⟨.stopped rm rfl rfl ?_ ?_, ?_⟩
    · exact fun m' i => (hstops m' i).mp
    · exact fun m' i _ => (hstops m' i).mpr
    · exact callsFresh_snoc rfl hrest hlen ⟨List.mem_of_getElem? hc, rfl⟩
  | starting m rm =>
    refine ⟨.started m false ?_ rfl rfl ?_ hlen, callsFresh_of_sublist _ hrest⟩
    · rw [registers, hc]
    · exact fun m' i => mem_eraseIdx_iff hc (by simp)

theorem step_effect {b : Setup} {s t : System} {a : Action} (h : step b s a = some t) :
    Effect s a t ∧ CallsFresh s a t := by
  have hsame : SameStops s s := fun _ _ => Iff.rfl
  have hcalls : s.calls.Sublist s.calls := List.Sublist.refl _
  unfold step at h
  split at h
  next => cases h
  next =>
    cases a with
    | reconcile desired sweep moduleConfig depsInstalled =>
      cases h
      rw [reconcile]
      split
      next => exact ⟨.quiet rfl rfl hsame, callsFresh_of_sublist _ hcalls⟩
      next => exact ⟨.quiet rfl rfl hsame, callsFresh_of_sublist _ hcalls⟩
      next =>
        refine ⟨.quiet rfl rfl ?_, callsFresh_snoc rfl hcalls (Nat.lt_succ_self _) rfl⟩
        intro m i
        simp
    | restartService modID =>
      cases h
      rw [handleRestartService]
      split
      next => exact ⟨.quiet rfl rfl hsame, callsFresh_of_sublist _ hcalls⟩
      next =>
        split
        next => exact ⟨.quiet rfl rfl hsame, callsFresh_of_sublist _ hcalls⟩
        next rm hrm =>
          split
          next => exact ⟨.quiet rfl rfl hsame, callsFresh_of_sublist _ hcalls⟩
          next =>
            refine ⟨.quiet rfl rfl ?_, callsFresh_snoc rfl hcalls (Nat.lt_succ_self _) hrm⟩
            intro m i
            simp
    | kvDelete key =>
      cases h
      rw [kvDelete]
      split
      next rm hrm => exact ⟨.dropped key rm hrm rfl rfl hsame, callsFresh_of_sublist _ hcalls⟩
      next => exact ⟨.quiet rfl rfl hsame, callsFresh_of_sublist _ hcalls⟩
    | resume n =>
      obtain ⟨c, hc, rfl⟩ := Option.map_eq_some_iff.mp h
      exact resume_effect hc
    | exit i panics =>
      obtain ⟨inst, hinst, h⟩ := Option.bind_eq_some_iff.mp h
      split at h
      next => cases h
      next =>
        split at h
        next =>
          cases h
          exact ⟨.quiet rfl rfl hsame, callsFresh_of_sublist _ hcalls⟩
        next =>
          cases h
          exact ⟨.exited i rfl rfl hsame, callsFresh_of_sublist _ hcalls⟩
    | cleanup i =>
      obtain ⟨inst, hinst, h⟩ := Option.bind_eq_some_iff.mp h
      obtain ⟨⟨hreturned, -⟩, ⟨⟩⟩ := Option.ite_none_right_eq_some.mp h
      exact ⟨.cleaned i inst hinst hreturned rfl rfl hsame, callsFresh_of_sublist _ hcalls⟩

/-! ## Live instances -/

theorem live_congr {s t : System} (h : t.instances = s.instances) {i : Nat} {m : String} :
    Live t i m ↔ Live s i m := by
  rw [Live, Live, h]

/-- A new instance is live, and the others are as before. -/
theorem live_append_iff {s t : System} {m : String} {recovers : Bool}
    (h : t.instances = s.instances ++ [{ moduleID := m, recovers }]) {i : Nat} {m' : String} :
    Live t i m' ↔ Live s i m' ∨ (i = s.instances.length ∧ m' = m) := by
  simp only [Live, h, Option.mem_def, getElem?_snoc_iff]
  constructor
  · rintro ⟨inst, hinst | ⟨hi, rfl⟩, hm, hlive⟩
    · exact .inl ⟨inst, hinst, hm, hlive⟩
    · exact .inr ⟨hi, hm.symm⟩
  · rintro (⟨inst, hinst, hlive⟩ | ⟨hi, rfl⟩)
    · exact ⟨inst, .inl hinst, hlive⟩
    · exact ⟨_, .inr ⟨hi, rfl⟩, rfl, rfl, rfl⟩

/-- A change of one instance that keeps its module. -/
theorem live_update_iff {s t : System} {k : Nat} {f : Instance → Instance}
    (h : t.instances = (update s k f).instances) (hf : ∀ inst, (f inst).moduleID = inst.moduleID)
    {P : Prop} (hdone : ∀ inst, ((f inst).toldToStop = false ∧ (f inst).returned = false) ↔
      (inst.toldToStop = false ∧ inst.returned = false) ∧ P) {i : Nat} {m : String} :
    Live t i m ↔ Live s i m ∧ (i = k → P) := by
  rw [Live, Live, h, update, List.getElem?_modify]
  cases s.instances[i]? with
  | none => simp
  | some inst =>
    by_cases hi : k = i
    · simp [hi, hf, hdone inst, and_assoc]
    · simp [hi, Ne.symm hi]

theorem live_stop_iff {s t : System} {k : Nat} (h : t.instances = (stop s k).instances) {i : Nat}
    {m : String} : Live t i m ↔ Live s i m ∧ i ≠ k :=
  live_update_iff h (fun _ => rfl) (P := False) (by simp)

theorem live_exit_iff {s t : System} {k : Nat}
    (h : t.instances = (update s k fun inst => { inst with returned := true }).instances) {i : Nat}
    {m : String} : Live t i m ↔ Live s i m ∧ i ≠ k :=
  live_update_iff h (fun _ => rfl) (P := False) (by simp)

theorem live_cleanup_iff {s t : System} {k : Nat}
    (h : t.instances = (update s k fun inst => { inst with cleanedUp := true }).instances) {i : Nat}
    {m : String} : Live t i m ↔ Live s i m :=
  (live_update_iff h (fun _ => rfl) (P := True) (by simp)).trans (by simp)

/-- The entries and the stops under way are of instances that exist, and an instance that is
being stopped is no entry. -/
structure Tracked (s : System) : Prop where
  entry_lt : ∀ m i, s.running.lookup m = some i → i < s.instances.length
  stop_lt : ∀ m i, Call.stopping m i ∈ s.calls → i < s.instances.length
  taken : ∀ m i, Call.stopping m i ∈ s.calls → s.running.lookup m ≠ some i

/-- Every live instance is the entry of its module, or a stop of it is under way. -/
def Held (s : System) : Prop :=
  ∀ i m, Live s i m → s.running.lookup m = some i ∨ Call.stopping m i ∈ s.calls

/-- What keeps the entries and the calls to instances keeps the account. -/
theorem Tracked.change {s t : System} (h : Tracked s)
    (hlen : s.instances.length ≤ t.instances.length)
    (hentry : ∀ m i, t.running.lookup m = some i → s.running.lookup m = some i ∨
      (i = s.instances.length ∧ i < t.instances.length))
    (hstop : ∀ m i, Call.stopping m i ∈ t.calls → Call.stopping m i ∈ s.calls ∨
      (s.running.lookup m = some i ∧ t.running.lookup m = none)) : Tracked t := by
  constructor
  · intro m i hi
    obtain hi | ⟨-, hi⟩ := hentry m i hi
    · exact Nat.lt_of_lt_of_le (h.entry_lt m i hi) hlen
    · exact hi
  · intro m i hi
    obtain hi | ⟨hi, -⟩ := hstop m i hi
    · exact Nat.lt_of_lt_of_le (h.stop_lt m i hi) hlen
    · exact Nat.lt_of_lt_of_le (h.entry_lt m i hi) hlen
  · intro m i hi heq
    obtain hi | ⟨-, hnone⟩ := hstop m i hi
    · obtain heq | ⟨rfl, -⟩ := hentry m i heq
      · exact h.taken m i hi heq
      · exact Nat.lt_irrefl _ (h.stop_lt m _ hi)
    · cases hnone.symm.trans heq

/-- The effect of an action keeps the account. -/
theorem tracked_effect {s t : System} {a : Action} (h : Tracked s) (heff : Effect s a t) :
    Tracked t := by
  cases heff with
  | quiet running instances stops =>
    apply h.change
    · rw [instances]
    · exact fun m i hi => .inl (running ▸ hi)
    · exact fun m i hi => .inl ((stops m i).mp hi)
  | started m recovers registers running instances stops _ =>
    have hlen : t.instances.length = s.instances.length + 1 := by simp [instances]
    apply h.change
    · exact hlen ▸ Nat.le_succ _
    · rw [running, hlen]
      apply forall_lookup_insert
      · exact fun m i hi => .inl hi
      · exact .inr ⟨rfl, Nat.lt_succ_self _⟩
    · exact fun m i hi => .inl ((stops m i).mp hi)
  | taken m rm entry running instances stops =>
    apply h.change
    · rw [instances]
    · exact fun m' i hi => .inl (lookup_erase_some (running ▸ hi)).2
    · intro m' i hi
      apply ((stops m' i).mp hi).imp_right
      rintro ⟨rfl, rfl⟩
      exact ⟨entry, by rw [running, AList.lookup_erase]⟩
  | stopped rm running instances stops others =>
    apply h.change
    · simp [instances, stop, update]
    · exact fun m i hi => .inl (running ▸ hi)
    · exact fun m i hi => .inl (stops m i hi)
  | dropped m rm entry running instances stops =>
    apply h.change
    · simp [instances, stop, update]
    · exact fun m' i hi => .inl (lookup_erase_some (running ▸ hi)).2
    · exact fun m i hi => .inl ((stops m i).mp hi)
  | exited i running instances stops =>
    apply h.change
    · simp [instances, update]
    · exact fun m i hi => .inl (running ▸ hi)
    · exact fun m i hi => .inl ((stops m i).mp hi)
  | cleaned i inst entry returned running instances stops =>
    apply h.change
    · simp [instances, update]
    · exact fun m i hi => .inl (lookup_erase_some (running ▸ hi)).2
    · exact fun m i hi => .inl ((stops m i).mp hi)

/-- The clean-up of an instance deletes the entry of no other live one. -/
def CleansOwn (s : System) : Action → Prop
  | .cleanup i => ∀ inst ∈ s.instances[i]?, ∀ j ∈ s.running.lookup inst.moduleID,
    j = i ∨ ¬ Live s j inst.moduleID
  | _ => True

/-- An action keeps each live instance held, if a cleanup takes out no entry of another one. -/
theorem held_effect {s t : System} {a : Action} (h : Held s) (hclean : CleansOwn s a)
    (hnone : ∀ m ∈ registers s a, ∀ i, ¬ Live s i m) (heff : Effect s a t) : Held t := by
  cases heff with
  | quiet running instances stops =>
    intro i m hi
    rw [running, stops m i]
    exact h i m ((live_congr instances).mp hi)
  | started m recovers registers running instances stops _ =>
    intro i m' hi
    rw [running, stops m' i]
    obtain hi | ⟨rfl, rfl⟩ := (live_append_iff instances).mp hi
    · have hm : m' ≠ m := by
        rintro rfl
        exact hnone m' registers i hi
      rw [AList.lookup_insert_ne hm]
      exact h i m' hi
    · exact .inl (AList.lookup_insert _)
  | taken m rm entry running instances stops =>
    intro i m' hi
    rw [running, stops m' i]
    obtain hi | hi := h i m' ((live_congr instances).mp hi)
    · by_cases hm : m' = m
      · subst hm
        exact .inr (.inr ⟨rfl, Option.some.inj (hi.symm.trans entry)⟩)
      · exact .inl ((AList.lookup_erase_ne hm).trans hi)
    · exact .inr (.inl hi)
  | stopped rm running instances stops others =>
    intro i m hi
    obtain ⟨hi, hrm⟩ := (live_stop_iff instances).mp hi
    rw [running]
    exact (h i m hi).imp_right (others m i hrm)
  | dropped m rm entry running instances stops =>
    intro i m' hi
    obtain ⟨hi, hrm⟩ := (live_stop_iff instances).mp hi
    rw [running, stops m' i]
    apply (h i m' hi).imp_left
    intro hi
    have hm : m' ≠ m := by
      rintro rfl
      exact hrm (Option.some.inj (hi.symm.trans entry))
    exact (AList.lookup_erase_ne hm).trans hi
  | exited k running instances stops =>
    intro i m hi
    obtain ⟨hi, -⟩ := (live_exit_iff instances).mp hi
    rw [running, stops m i]
    exact h i m hi
  | cleaned k inst entry returned running instances stops =>
    intro i m hi
    have hi := (live_cleanup_iff instances).mp hi
    rw [running, stops m i]
    apply (h i m hi).imp_left
    intro hlook
    have hm : m ≠ inst.moduleID := by
      rintro rfl
      obtain rfl | hdead := hclean inst entry i hlook
      · obtain ⟨inst', hinst', -, -, hrunning⟩ := hi
        cases entry.symm.trans hinst'
        cases returned.symm.trans hrunning
      · exact hdead hi
    exact (AList.lookup_erase_ne hm).trans hlook

/-- An action makes at most one instance live. -/
theorem Effect.live {s t : System} {a : Action} (heff : Effect s a t) {i : Nat} {m : String}
    (h : Live t i m) : Live s i m ∨ (i = s.instances.length ∧ registers s a = some m) := by
  cases heff with
  | quiet _ instances _ => exact .inl ((live_congr instances).mp h)
  | started m' recovers registers _ instances _ _ =>
    apply ((live_append_iff instances).mp h).imp_right
    rintro ⟨hi, rfl⟩
    exact ⟨hi, registers⟩
  | taken _ _ _ _ instances _ => exact .inl ((live_congr instances).mp h)
  | stopped _ _ instances _ _ => exact .inl ((live_stop_iff instances).mp h).1
  | dropped _ _ _ _ instances _ => exact .inl ((live_stop_iff instances).mp h).1
  | exited _ _ instances _ => exact .inl ((live_exit_iff instances).mp h).1
  | cleaned _ _ _ _ _ instances _ => exact .inl ((live_cleanup_iff instances).mp h)

/-- An action leaves one instance a module, if it registers none next to a live one. -/
theorem single_effect {s t : System} {a : Action} (h : SingleInstance s)
    (hnone : ∀ m ∈ registers s a, ∀ i, ¬ Live s i m) (heff : Effect s a t) :
    SingleInstance t := by
  intro m i j hi hj
  obtain hi | ⟨hi, hm⟩ := heff.live hi <;> obtain hj | ⟨hj, hm'⟩ := heff.live hj
  · exact h m i j hi hj
  · exact absurd hi (hnone m hm' i)
  · exact absurd hj (hnone m hm j)
  · exact hi.trans hj.symm

/-- A restart that is to register a new instance has stopped the old one. -/
structure Told (s : System) : Prop where
  restart_lt : ∀ m i, Call.restart m i ∈ s.calls → i < s.instances.length
  starting_lt : ∀ m i, Call.starting m i ∈ s.calls → i < s.instances.length
  starting : ∀ m i, Call.starting m i ∈ s.calls → ∀ m', ¬ Live s i m'

/-- No instance is forgotten. -/
theorem Effect.length_le {s t : System} {a : Action} (heff : Effect s a t) :
    s.instances.length ≤ t.instances.length := by
  cases heff with
  | quiet _ instances _ => rw [instances]
  | started _ _ _ _ instances _ _ => simp [instances]
  | taken _ _ _ _ instances _ => rw [instances]
  | stopped _ _ instances _ _ => simp [instances, stop, update]
  | dropped _ _ _ _ instances _ => simp [instances, stop, update]
  | exited _ _ instances _ => simp [instances, update]
  | cleaned _ _ _ _ _ instances _ => simp [instances, update]

/-- The effect of an action lets a restart go on only when the old instance has been stopped. -/
theorem told_effect {s t : System} {a : Action} (htracked : Tracked s) (h : Told s)
    (heff : Effect s a t) (hcalls : CallsFresh s a t) : Told t := by
  constructor
  · intro m i hc
    apply Nat.lt_of_lt_of_le _ heff.length_le
    obtain hc | hc := hcalls.fresh _ hc
    · exact h.restart_lt m i hc
    · exact htracked.entry_lt m i hc
  · intro m i hc
    apply Nat.lt_of_lt_of_le _ heff.length_le
    obtain hc | hc := hcalls.fresh _ hc
    · exact h.starting_lt m i hc
    · exact h.restart_lt m i hc.1
  · intro m i hc m' hlive
    obtain hc | hc := hcalls.fresh _ hc
    · obtain hlive | ⟨hi, -⟩ := heff.live hlive
      · exact h.starting m i hc m' hlive
      · exact Nat.ne_of_lt (h.starting_lt m i hc) hi
    · exact ((live_stop_iff hc.2).mp hlive).2 rfl

/-! ## One instance of each module -/

/-- The module that a call has taken the entry of. -/
def Call.stops : Call → Option String
  | .stopping moduleID _ => some moduleID
  | _ => none

/-- A reconciler that registers an instance finds, as before, no entry; a restart finds the entry
of the instance that it has stopped, or none; neither overtakes a stop of the module. The clean-up
of an instance finds the entry of this instance, or none. -/
def Undisturbed (s : System) : Action → Prop
  | .resume n =>
    match s.calls[n]? with
    | some (.reconcile desired isRunning _) => desired.running = true → isRunning = false →
      s.running.lookup desired.moduleID = none ∧ ∀ c ∈ s.calls, c.stops ≠ some desired.moduleID
    | some (.starting moduleID rm) =>
      (∀ i ∈ s.running.lookup moduleID, i = rm) ∧ ∀ c ∈ s.calls, c.stops ≠ some moduleID
    | _ => True
  | .cleanup i => ∀ inst ∈ s.instances[i]?, ∀ j ∈ s.running.lookup inst.moduleID, j = i
  | _ => True

instance Undisturbed.decidable (s : System) : (a : Action) → Decidable (Undisturbed s a)
  | .resume n =>
    match h : s.calls[n]? with
    | some (.reconcile desired isRunning _) => decidable_of_iff
      (desired.running = true → isRunning = false → s.running.lookup desired.moduleID = none ∧
        ∀ c ∈ s.calls, c.stops ≠ some desired.moduleID) (by simp [Undisturbed, h])
    | some (.starting moduleID rm) => decidable_of_iff
      ((∀ i ∈ s.running.lookup moduleID, i = rm) ∧ ∀ c ∈ s.calls, c.stops ≠ some moduleID)
      (by simp [Undisturbed, h])
    | none | some (.stopping _ _) | some (.restart _ _) => isTrue (by simp [Undisturbed, h])
  | .cleanup i => inferInstanceAs (Decidable
    (∀ inst ∈ s.instances[i]?, ∀ j ∈ s.running.lookup inst.moduleID, j = i))
  | .reconcile .. | .restartService _ | .kvDelete _ | .exit .. => isTrue trivial

theorem Undisturbed.cleansOwn {s : System} {a : Action} (h : Undisturbed s a) : CleansOwn s a := by
  cases a with
  | cleanup i => exact fun inst hinst j hj => .inl (h inst hinst j hj)
  | _ => trivial

/-- Where live instances are held, one is registered only when the module has none. -/
theorem Undisturbed.none_live {s : System} {a : Action} (hheld : Held s) (htold : Told s)
    (h : Undisturbed s a) : ∀ m ∈ registers s a, ∀ i, ¬ Live s i m := by
  intro m hm i hlive
  cases a with
  | resume n =>
    simp only [registers, Undisturbed] at hm h
    cases hc : s.calls[n]? with
    | none => simp [hc] at hm
    | some c =>
      rw [hc] at hm h
      cases c with
      | reconcile desired isRunning sweep =>
        obtain ⟨⟨hrun, hnot⟩, ⟨⟩⟩ := Option.ite_none_right_eq_some.mp hm
        obtain ⟨hnone, hstops⟩ := h hrun hnot
        obtain hi | hi := hheld i _ hlive
        · cases hnone.symm.trans hi
        · exact hstops _ hi rfl
      | starting moduleID rm =>
        cases hm
        obtain ⟨hentry, hstops⟩ := h
        obtain hi | hi := hheld i _ hlive
        · cases hentry i hi
          exact htold.starting _ _ (List.mem_of_getElem? hc) _ hlive
        · exact hstops _ hi rfl
      | stopping | restart => cases hm
  | _ => cases hm

structure Orderly (s : System) : Prop where
  tracked : Tracked s
  told : Told s
  held : Held s
  single : SingleInstance s

/-- Each undisturbed action keeps the order. -/
theorem orderly_step {b : Setup} {s t : System} {a : Action} (h : Orderly s)
    (hok : Undisturbed s a) (hstep : step b s a = some t) : Orderly t := by
  obtain ⟨heff, hcalls⟩ := step_effect hstep
  have hnone := hok.none_live h.held h.told
  exact
    { tracked := tracked_effect h.tracked heff
      told := told_effect h.tracked h.told heff hcalls
      held := held_effect h.held hok.cleansOwn hnone heff
      single := single_effect h.single hnone heff }

/-- At the start nothing runs. -/
theorem orderly_initial : Orderly {} := by
  have hlive : ∀ i m, ¬ Live {} i m := by
    rintro i m ⟨inst, hinst, -⟩
    cases hinst
  have hcalls : ∀ c : Call, c ∉ ({} : System).calls := fun c hc => by cases hc
  exact
    { tracked := ⟨nofun, fun _ _ hc => (hcalls _ hc).elim, fun _ _ hc => (hcalls _ hc).elim⟩
      told := ⟨fun _ _ hc => (hcalls _ hc).elim, fun _ _ hc => (hcalls _ hc).elim,
        fun _ _ hc => (hcalls _ hc).elim⟩
      held := fun i m hi => (hlive i m hi).elim
      single := fun m i _ hi => (hlive i m hi).elim }

/-- In every run in which no section is disturbed between the look-up and the registration, and
no clean-up finds another instance's entry, every module has at most one live instance. -/
theorem undisturbed_runs_single (b : Setup) (as : List Action) (t : System)
    (hrun : Runs.run (step b) {} as = some t) (hok : Runs.Meets (step b) Undisturbed {} as) :
    SingleInstance t :=
  (Runs.run_invariant (fun _ _ _ hs ha ht => orderly_step hs ha ht) orderly_initial hok
    hrun).single

/-- A binary with one module, which needs no configuration. -/
def oneModule : Setup := ⟨[{ moduleID := "plc" }], ["plc"]⟩

/-- Started, stopped, started again, and restarted with the old goroutine gone in time. -/
def quietRun : List Action :=
  [.reconcile ⟨"plc", true⟩ true ∅ true, .resume 0, .reconcile ⟨"plc", false⟩ false ∅ true,
    .resume 0, .resume 0, .exit 0 false, .cleanup 0, .reconcile ⟨"plc", true⟩ false ∅ true,
    .resume 0, .restartService "plc", .resume 0, .exit 1 false, .cleanup 1, .resume 0]

theorem quietRun_single :
    ∃ t, Runs.run (step oneModule) {} quietRun = some t ∧ t.instances.length = 3 ∧
      t.running.lookup "plc" = some 2 ∧ SingleInstance t := by
  have hok : Runs.Meets (step oneModule) Undisturbed {} quietRun := by decide
  have hend : (Runs.run (step oneModule) {} quietRun).map (fun t =>
      (t.instances.length, t.running.lookup "plc")) = some (3, some 2) := by decide
  obtain ⟨t, hrun, ht⟩ := Option.map_eq_some_iff.mp hend
  obtain ⟨hlen, hentry⟩ := Prod.mk.injEq .. ▸ ht
  exact ⟨t, hrun, hlen, hentry, undisturbed_runs_single oneModule quietRun t hrun hok⟩

/-- The initial sweep and the handler of the KV watch, which shows the same desired service, look
for an instance before either has registered one. -/
def racingRun : List Action :=
  [.reconcile ⟨"plc", true⟩ true ∅ true, .reconcile ⟨"plc", true⟩ false ∅ true, .resume 0,
    .resume 0]

theorem reconcile_not_single :
    ¬ ∀ (b : Setup) (as : List Action) (t : System), Runs.run (step b) {} as = some t →
      SingleInstance t := by
  intro h
  have hend : (Runs.run (step oneModule) {} racingRun).map (fun t =>
      (decide (Live t 0 "plc"), decide (Live t 1 "plc"))) = some (true, true) := by decide
  obtain ⟨t, hrun, ht⟩ := Option.map_eq_some_iff.mp hend
  obtain ⟨hfirst, hsecond⟩ := Prod.mk.injEq .. ▸ ht
  have heq := h oneModule racingRun t hrun "plc" 0 1 (of_decide_eq_true hfirst)
    (of_decide_eq_true hsecond)
  exact absurd heq (by decide)

end Orchestrator
