import Tentacle.OrchestratorRestarts

/-!
# From the desired services to the running modules

A write to the bucket of desired services starts a handler of the KV watch with the written value;
a sweep reads all the entries first and reconciles them later, one after another. Each of these
goroutines is a thread here, and the threads may take their steps in any order. The registration
of a module goes wrong where a thread acts on what an older entry said and nothing that follows
the last one is still under way, or where the clean-up of an old instance takes the entry of the
new one.
-/

namespace Orchestrator

open GoValues

/-- The desired services that a sweep has read, and those that it has yet to reconcile. -/
structure Sweep where
  desired : List DesiredService
  rest : List DesiredService
  deriving DecidableEq, Repr

/-- A goroutine of the reconciler, by what it does next. -/
inductive Thread where
  /-- A handler of the KV watch; one without a value shows a deletion. -/
  | handler (key : String) (value : Option DesiredService)
  /-- `getAllDesiredServices` has the keys and reads their entries one by one. -/
  | reading (keys : List String) (results : List DesiredService)
  | sweeping (sweep : Sweep)
  /-- In a call, which may be one of a sweep. -/
  | calling (call : Call) (sweep : Option Sweep)
  deriving DecidableEq, Repr

structure Reconciler where
  /-- `desired_services`, where an entry is stored under its module ID. -/
  bucket : GoMap String DesiredService := ∅
  watching : Bool := false
  threads : List Thread := []
  /-- Its calls in progress are held by the threads. -/
  system : System := {}

/-- What a thread goes on with after a section of a call: the next one, or the sweep. -/
def goOn (system : System) (sweep : Option Sweep) : List Thread :=
  match system.calls with
  | call :: _ => [.calling call sweep]
  | [] => sweep.toList.map .sweeping

/-- The end of a sweep deletes the status of every module that is not desired. -/
def removeOrphans (system : System) (desired : List DesiredService) : System :=
  { system with
    status := (system.status.keys.filter fun key => desired.all (·.moduleID ≠ key)).foldl
      (fun status key => status.erase key) system.status }

/-- The next step of a thread: the system after it, and what the thread goes on with. -/
def Thread.advance (b : Setup) (bucket : GoMap String DesiredService) (system : System)
    (moduleConfig : GoMap String String) (depsInstalled : Bool) : Thread → System × List Thread
  | .handler key none => (kvDelete system key, [])
  | .handler _ (some desired) =>
    let system := reconcile b system desired false moduleConfig depsInstalled
    (system, goOn system none)
  | .reading [] results => (system, [.sweeping ⟨results, results⟩])
  | .reading (key :: keys) results =>
    (system, [.reading keys (results ++ (bucket.lookup key).toList)])
  | .sweeping ⟨desired, []⟩ => (removeOrphans system desired, [])
  | .sweeping ⟨desired, d :: rest⟩ =>
    let system := reconcile b system d true moduleConfig depsInstalled
    (system, goOn system (some ⟨desired, rest⟩))
  | .calling call sweep =>
    let system := resume system call
    (system, goOn system sweep)

inductive Event where
  | put (desired : DesiredService)
  | delete (key : String)
  /-- The KV watch is set up, and shows the entries that are there already. -/
  | watch
  /-- A sweep begins, with the keys in the order of the map. -/
  | sweep (keys : List String)
  | restartService (modID : String)
  | advance (n : Nat) (moduleConfig : GoMap String String) (depsInstalled : Bool)
  | exit (i : Nat) (panics : Bool)
  | cleanup (i : Nat)

/-- The handler that a change of the bucket starts. -/
def notify (s : Reconciler) (thread : Thread) : List Thread :=
  if s.watching then s.threads ++ [thread] else s.threads

/-- The threads hold the calls in progress. -/
def Reconciler.become (s : Reconciler) (system : System) (threads : List Thread) : Reconciler :=
  { s with system := { system with calls := [] }, threads }

def reconcilerStep (b : Setup) (s : Reconciler) (e : Event) : Option Reconciler :=
  if s.system.crashed then none
  else
    match e with
    | .put desired => some
      { s with
        bucket := s.bucket.insert desired.moduleID desired
        threads := notify s (.handler desired.moduleID (some desired)) }
    | .delete key => some
      { s with bucket := s.bucket.erase key, threads := notify s (.handler key none) }
    | .watch =>
      if s.watching then none
      else some
        { s with
          watching := true
          threads := s.threads ++ s.bucket.entries.map fun e => .handler e.1 (some e.2) }
    | .sweep keys =>
      if keys.Perm s.bucket.keys then some { s with threads := s.threads ++ [.reading keys []] }
      else none
    | .restartService modID =>
      let system := handleRestartService b s.system modID
      some (s.become system (s.threads ++ goOn system none))
    | .advance n moduleConfig depsInstalled =>
      s.threads[n]?.map fun thread =>
        let next := thread.advance b s.bucket s.system moduleConfig depsInstalled
        s.become next.1 (s.threads.eraseIdx n ++ next.2)
    | .exit i panics => (step b s.system (.exit i panics)).map fun system => { s with system }
    | .cleanup i => (step b s.system (.cleanup i)).map fun system => { s with system }

/-- What the last written entry asks for. -/
def wants (entry : Option DesiredService) : Bool := entry.any (·.running)

def Reconciler.wants (s : Reconciler) (m : String) : Bool :=
  Orchestrator.wants (s.bucket.lookup m)

def Reconciler.registered (s : Reconciler) (m : String) : Bool :=
  (s.system.running.lookup m).isSome

/-- The desired services that a thread is to reconcile after its call. -/
def remaining (sweep : Option Sweep) : List DesiredService := sweep.elim [] Sweep.rest

/-- The thread has yet to look for an instance of the module, for what its entry asks for, or it
has looked and is to change what it found. A restart is to register the module. -/
def Thread.Due (m : String) (entry : Option DesiredService) : Thread → Prop
  | .handler key none => key = m ∧ wants entry = false
  | .handler _ (some desired) => desired = ⟨m, wants entry⟩
  | .reading keys results => (m ∈ keys ∧ entry.isSome) ∨ ⟨m, wants entry⟩ ∈ results
  | .sweeping sweep => ⟨m, wants entry⟩ ∈ sweep.rest
  | .calling (.reconcile desired isRunning _) sweep =>
    (desired = ⟨m, wants entry⟩ ∧ isRunning ≠ wants entry) ∨ ⟨m, wants entry⟩ ∈ remaining sweep
  | .calling (.stopping _ _) sweep => ⟨m, wants entry⟩ ∈ remaining sweep
  | .calling (.restart moduleID _) sweep | .calling (.starting moduleID _) sweep =>
    (moduleID = m ∧ wants entry = true) ∨ ⟨m, wants entry⟩ ∈ remaining sweep

/-- Some thread is to bring the module to what its entry asks for. -/
def Reconciler.UnderWay (m : String) (s : Reconciler) : Prop :=
  ∃ thread ∈ s.threads, thread.Due m (s.bucket.lookup m)

/-- What the step makes of the registration of the module, where it sets it. -/
def Thread.sets (m : String) : Thread → Option Bool
  | .handler key none => if key = m then some false else none
  | .calling (.reconcile desired isRunning _) _ =>
    if desired.moduleID = m ∧ desired.running ≠ isRunning then some desired.running else none
  | .calling (.starting moduleID _) _ => if moduleID = m then some true else none
  | _ => none

def Reconciler.sets (s : Reconciler) (m : String) : Event → Option Bool
  | .advance n .. => s.threads[n]?.bind (Thread.sets m)
  | .cleanup i =>
    s.system.instances[i]?.bind fun inst => if inst.moduleID = m then some false else none
  | _ => none

/-- The registration is set to what the last written entry does not ask for only while a thread
is under way that will set it right; and where the entry was deleted before the KV watch was set
up, so that no handler shows it, the module is not registered then. -/
def InTime (m : String) (s : Reconciler) : Event → Prop
  | .watch => s.registered m = true → (s.bucket.lookup m).isSome ∨ s.UnderWay m
  | e => ∀ v ∈ s.sets m e, v = s.wants m ∨ s.UnderWay m

/-- The desired service that the thread begins to reconcile. -/
def Thread.begins : Thread → Option DesiredService
  | .handler _ value => value
  | .sweeping ⟨_, desired :: _⟩ => some desired
  | _ => none

/-- The checks before a start pass, and an instance returns, without a panic, only after it was
told to stop. -/
def Succeeds (b : Setup) (m : String) (s : Reconciler) : Event → Prop
  | .advance n moduleConfig depsInstalled => ∀ thread ∈ s.threads[n]?,
    ∀ desired ∈ thread.begins, desired.moduleID = m →
      (checkDesired b desired moduleConfig depsInstalled).isOk = true
  | .exit i panics => ∀ inst ∈ s.system.instances[i]?, inst.moduleID = m →
    inst.toldToStop = true ∧ panics = false
  | _ => True

/-! ## What a step does to one module -/

/-- The deletion of a key takes its module out of the table, and no other. -/
theorem lookup_kvDelete (system : System) (key m : String) :
    (kvDelete system key).running.lookup m =
      if key = m then none else system.running.lookup m := by
  rw [kvDelete]
  split
  next rm hrm =>
    change (system.running.erase key).lookup m = _
    split
    next h => rw [h, AList.lookup_erase]
    next h => rw [AList.lookup_erase_ne (Ne.symm h)]
  next hnone =>
    change system.running.lookup m = _
    split
    next h => rw [← h, hnone]
    next => rfl

theorem running_reconcile (b : Setup) (system : System) (desired : DesiredService) (sweep : Bool)
    (moduleConfig : GoMap String String) (depsInstalled : Bool) :
    (reconcile b system desired sweep moduleConfig depsInstalled).running = system.running := by
  rw [reconcile]
  split <;> rfl

/-- A call that goes on sets the entry of its own module. -/
theorem lookup_resume (system : System) (call : Call) (sweep : Option Sweep) (m : String) :
    ((resume system call).running.lookup m).isSome =
      ((Thread.calling call sweep).sets m).getD (system.running.lookup m).isSome := by
  cases call with
  | reconcile desired isRunning swept =>
    by_cases hm : desired.moduleID = m
    · subst hm
      rw [resume, Thread.sets]
      cases hrun : desired.running <;> cases isRunning
      · simp [reportStatus]
      · cases hrm : system.running.lookup desired.moduleID with
        | none => simp [hrm]
        | some rm => simp [AList.lookup_erase]
      · simp [reportStatus, start]
      · simp [reportStatus]
    · have hsets : (Thread.calling (.reconcile desired isRunning swept) sweep).sets m = none :=
        if_neg fun h => hm h.1
      rw [hsets, Option.getD_none, resume]
      split
      next =>
        change ((system.running.insert _ _).lookup m).isSome = _
        rw [AList.lookup_insert_ne (Ne.symm hm)]
      next =>
        split
        next =>
          split
          next =>
            change ((system.running.erase _).lookup m).isSome = _
            rw [AList.lookup_erase_ne (Ne.symm hm)]
          next => rfl
        next => rfl
  | stopping moduleID rm => rfl
  | restart moduleID rm => rfl
  | starting moduleID rm =>
    change ((system.running.insert moduleID _).lookup m).isSome = _
    rw [Thread.sets]
    split
    next h => rw [h, AList.lookup_insert, Option.isSome_some, Option.getD_some]
    next h => rw [AList.lookup_insert_ne (Ne.symm h), Option.getD_none]

/-- A thread changes the registration of the module only where it sets it. -/
theorem lookup_advance (b : Setup) (bucket : GoMap String DesiredService) (system : System)
    (moduleConfig : GoMap String String) (depsInstalled : Bool) (thread : Thread) (m : String) :
    ((thread.advance b bucket system moduleConfig depsInstalled).1.running.lookup m).isSome =
      (thread.sets m).getD (system.running.lookup m).isSome := by
  cases thread with
  | handler key value =>
    cases value with
    | none =>
      rw [Thread.advance, lookup_kvDelete, Thread.sets]
      split <;> rfl
    | some desired =>
      rw [Thread.advance, running_reconcile]
      rfl
  | reading keys results => cases keys <;> rfl
  | sweeping sweep =>
    obtain ⟨desired, _ | ⟨d, rest⟩⟩ := sweep
    · rfl
    · rw [Thread.advance, running_reconcile]
      rfl
  | calling call sweep => exact lookup_resume system call sweep m

/-- An instance that ends leaves the table and the calls. -/
theorem exit_keeps {b : Setup} {s t : System} {i : Nat} {panics : Bool}
    (h : step b s (.exit i panics) = some t) : t.running = s.running ∧ t.calls = s.calls := by
  unfold step at h
  split at h
  next => cases h
  next =>
    obtain ⟨inst, -, h⟩ := Option.bind_eq_some_iff.mp h
    split at h
    next => cases h
    next =>
      split at h
      next =>
        cases h
        exact ⟨rfl, rfl⟩
      next =>
        cases h
        exact ⟨rfl, rfl⟩

/-- There is an instance to clean up after. -/
theorem cleanup_keeps {b : Setup} {s t : System} {i : Nat} (h : step b s (.cleanup i) = some t) :
    ∃ inst, s.instances[i]? = some inst ∧ t.running = s.running.erase inst.moduleID ∧
      t.calls = s.calls := by
  cases hinst : s.instances[i]? with
  | none => simp [step, hinst] at h
  | some inst =>
    rw [cleanup_eq hinst h]
    exact ⟨inst, rfl, rfl, rfl⟩

/-- An event changes whether a module is registered only where it sets it. -/
theorem registered_step {b : Setup} {s t : Reconciler} {e : Event} (m : String)
    (h : reconcilerStep b s e = some t) :
    t.registered m = (s.sets m e).getD (s.registered m) := by
  unfold reconcilerStep at h
  split at h
  next => cases h
  next =>
    cases e with
    | put | delete =>
      cases h
      rfl
    | watch =>
      obtain ⟨-, ⟨⟩⟩ := Option.ite_none_left_eq_some.mp h
      rfl
    | sweep keys =>
      obtain ⟨-, ⟨⟩⟩ := Option.ite_none_right_eq_some.mp h
      rfl
    | restartService modID =>
      cases h
      change ((handleRestartService b s.system modID).running.lookup m).isSome = _
      rw [handleRestartService]
      split
      next => rfl
      next =>
        split
        next => rfl
        next => split <;> rfl
    | advance n moduleConfig depsInstalled =>
      obtain ⟨thread, hthread, rfl⟩ := Option.map_eq_some_iff.mp h
      rw [Reconciler.sets, hthread]
      exact lookup_advance b s.bucket s.system moduleConfig depsInstalled thread m
    | exit i panics =>
      obtain ⟨system, hstep, rfl⟩ := Option.map_eq_some_iff.mp h
      change (system.running.lookup m).isSome = _
      rw [(exit_keeps hstep).1]
      rfl
    | cleanup i =>
      obtain ⟨system, hstep, rfl⟩ := Option.map_eq_some_iff.mp h
      obtain ⟨inst, hinst, hrunning, -⟩ := cleanup_keeps hstep
      change (system.running.lookup m).isSome = _
      rw [hrunning, Reconciler.sets, hinst, Option.bind_some]
      split
      next hm => rw [← hm, AList.lookup_erase, Option.isSome_none, Option.getD_some]
      next hm =>
        rw [AList.lookup_erase_ne (Ne.symm hm)]
        rfl

/-! ## Threads under way -/

theorem Thread.Due.of_remaining {m : String} {entry : Option DesiredService}
    {sweep : Option Sweep} (call : Call) (h : ⟨m, wants entry⟩ ∈ remaining sweep) :
    (Thread.calling call sweep).Due m entry := by
  cases call with
  | stopping => exact h
  | reconcile | restart | starting => exact .inr h

/-- A sweep that has the module still before it is due. -/
theorem goOn_due {m : String} {entry : Option DesiredService} {sweep : Option Sweep}
    (system : System) (h : ⟨m, wants entry⟩ ∈ remaining sweep) :
    ∃ thread ∈ goOn system sweep, thread.Due m entry := by
  rw [goOn]
  split
  next call _ _ => exact ⟨_, List.mem_singleton_self _, .of_remaining call h⟩
  next =>
    cases sweep with
    | none => cases h
    | some sweep => exact ⟨.sweeping sweep, List.mem_singleton_self _, h⟩

/-- Who looks for an instance with what the entry asks for finds it so, or is to make it so. -/
theorem reconcile_due {b : Setup} {system : System} {m : String} {entry : Option DesiredService}
    {moduleConfig : GoMap String String} {depsInstalled : Bool} (hcalls : system.calls = [])
    (hcheck : (checkDesired b ⟨m, wants entry⟩ moduleConfig depsInstalled).isOk = true)
    (swept : Bool) (sweep : Option Sweep) :
    (system.running.lookup m).isSome = wants entry ∨
      ∃ thread ∈ goOn (reconcile b system ⟨m, wants entry⟩ swept moduleConfig depsInstalled) sweep,
        thread.Due m entry := by
  by_cases hfound : (system.running.lookup m).isSome = wants entry
  · exact .inl hfound
  · refine .inr ⟨.calling (.reconcile ⟨m, wants entry⟩ _ swept) sweep, ?_, .inl ⟨rfl, hfound⟩⟩
    rw [reconcile]
    cases hok : checkDesired b ⟨m, wants entry⟩ moduleConfig depsInstalled with
    | error opts => simp [hok, Except.isOk, Except.toBool] at hcheck
    | ok _ => simp [goOn, hcalls]

/-- A thread that is due brings the module to what is wanted, or leaves one that is due. -/
theorem advance_due {b : Setup} {bucket : GoMap String DesiredService} {system : System}
    {m : String} {moduleConfig : GoMap String String} {depsInstalled : Bool} {thread : Thread}
    (hcalls : system.calls = [])
    (hkey : ∀ desired, bucket.lookup m = some desired → desired.moduleID = m)
    (hcheck : ∀ desired ∈ thread.begins, desired.moduleID = m →
      (checkDesired b desired moduleConfig depsInstalled).isOk = true)
    (hdue : thread.Due m (bucket.lookup m)) :
    ((thread.advance b bucket system moduleConfig depsInstalled).1.running.lookup m).isSome =
        wants (bucket.lookup m) ∨
      ∃ next ∈ (thread.advance b bucket system moduleConfig depsInstalled).2,
        next.Due m (bucket.lookup m) := by
  cases thread with
  | handler key value =>
    cases value with
    | none =>
      obtain ⟨rfl, hwants⟩ := hdue
      left
      rw [Thread.advance, lookup_kvDelete, if_pos rfl, hwants]
      rfl
    | some desired =>
      obtain rfl : desired = ⟨m, wants (bucket.lookup m)⟩ := hdue
      rw [Thread.advance, running_reconcile]
      exact reconcile_due hcalls (hcheck _ rfl rfl) false none
  | reading keys results =>
    right
    cases keys with
    | nil =>
      obtain ⟨hm, -⟩ | hread := hdue
      · cases hm
      · exact ⟨_, List.mem_singleton_self _, hread⟩
    | cons key keys =>
      refine ⟨_, List.mem_singleton_self _, ?_⟩
      obtain ⟨hm, hentry⟩ | hread := hdue
      · obtain rfl | hm := List.mem_cons.mp hm
        · obtain ⟨desired, hdesired⟩ := Option.isSome_iff_exists.mp hentry
          have hthis : desired = ⟨m, wants (bucket.lookup m)⟩ := by
            rw [hdesired]
            cases desired
            cases hkey _ hdesired
            rfl
          right
          rw [← hthis, hdesired]
          exact List.mem_append_right _ (List.mem_singleton_self _)
        · exact .inl ⟨hm, hentry⟩
      · exact .inr (List.mem_append_left _ hread)
  | sweeping sweep =>
    obtain ⟨all, _ | ⟨desired, rest⟩⟩ := sweep
    · cases hdue
    · rw [Thread.advance, running_reconcile]
      obtain rfl | hrest := List.mem_cons.mp hdue
      · exact reconcile_due hcalls (hcheck _ rfl rfl) true _
      · exact .inr (goOn_due _ hrest)
  | calling call sweep =>
    cases call with
    | reconcile desired isRunning swept =>
      obtain ⟨rfl, hfound⟩ | hrest := hdue
      · left
        rw [lookup_advance, Thread.sets, if_pos ⟨rfl, Ne.symm hfound⟩]
        rfl
      · exact .inr (goOn_due _ hrest)
    | stopping moduleID rm => exact .inr (goOn_due _ hdue)
    | restart moduleID rm =>
      obtain hthis | hrest := hdue
      · refine .inr ⟨.calling (.starting moduleID rm) sweep, ?_, .inl hthis⟩
        simp [Thread.advance, resume, goOn, hcalls]
      · exact .inr (goOn_due _ hrest)
    | starting moduleID rm =>
      obtain ⟨hm, hwants⟩ | hrest := hdue
      · left
        rw [lookup_advance, Thread.sets, if_pos hm, hwants]
        rfl
      · exact .inr (goOn_due _ hrest)

/-- The calls are held by the threads, and every entry is stored under its module ID. -/
structure Kept (s : Reconciler) : Prop where
  calls : s.system.calls = []
  keys : ∀ key desired, s.bucket.lookup key = some desired → desired.moduleID = key

/-- Each event keeps the keys of the bucket and the calls of the threads. -/
theorem kept_step {b : Setup} {s t : Reconciler} {e : Event} (hs : Kept s)
    (h : reconcilerStep b s e = some t) : Kept t := by
  unfold reconcilerStep at h
  split at h
  next => cases h
  next =>
    cases e with
    | put desired =>
      cases h
      exact ⟨hs.calls, forall_lookup_insert hs.keys rfl⟩
    | delete key =>
      cases h
      exact ⟨hs.calls, fun k desired hk => hs.keys k desired (lookup_erase_some hk).2⟩
    | watch =>
      obtain ⟨-, ⟨⟩⟩ := Option.ite_none_left_eq_some.mp h
      exact ⟨hs.calls, hs.keys⟩
    | sweep keys =>
      obtain ⟨-, ⟨⟩⟩ := Option.ite_none_right_eq_some.mp h
      exact ⟨hs.calls, hs.keys⟩
    | restartService modID =>
      cases h
      exact ⟨rfl, hs.keys⟩
    | advance n moduleConfig depsInstalled =>
      obtain ⟨thread, -, rfl⟩ := Option.map_eq_some_iff.mp h
      exact ⟨rfl, hs.keys⟩
    | exit i panics =>
      obtain ⟨system, hstep, rfl⟩ := Option.map_eq_some_iff.mp h
      exact ⟨(exit_keeps hstep).2.trans hs.calls, hs.keys⟩
    | cleanup i =>
      obtain ⟨system, hstep, rfl⟩ := Option.map_eq_some_iff.mp h
      obtain ⟨inst, -, -, hcalls⟩ := cleanup_keeps hstep
      exact ⟨hcalls.trans hs.calls, hs.keys⟩

/-- Once the watch is set up, the module is as its entry asks for, or a thread is to make it so. -/
def Settling (m : String) (s : Reconciler) : Prop :=
  s.watching = true → s.registered m = s.wants m ∨ s.UnderWay m

theorem Reconciler.UnderWay.mono {m : String} {s t : Reconciler} (h : s.UnderWay m)
    (hentry : t.bucket.lookup m = s.bucket.lookup m) (hsub : s.threads ⊆ t.threads) :
    t.UnderWay m := by
  obtain ⟨thread, hthread, hdue⟩ := h
  refine ⟨thread, hsub hthread, ?_⟩
  rw [hentry]
  exact hdue

/-- A step that writes no entry keeps what is under way, or ends it well, and sets the registration
in time. -/
theorem Settling.of_sets {m : String} {s t : Reconciler} {e : Event} (h : Settling m s)
    (hwatching : t.watching = s.watching) (hwants : t.wants m = s.wants m)
    (hset : t.registered m = (s.sets m e).getD (s.registered m))
    (hkept : s.UnderWay m → t.registered m = t.wants m ∨ t.UnderWay m)
    (hok : ∀ v ∈ s.sets m e, v = s.wants m ∨ s.UnderWay m) : Settling m t := by
  intro hwatch
  cases hsets : s.sets m e with
  | none =>
    obtain hsettled | hunder := h (hwatching ▸ hwatch)
    · left
      rw [hset, hsets, hwants]
      exact hsettled
    · exact hkept hunder
  | some v =>
    obtain hv | hunder := hok v hsets
    · left
      rw [hset, hsets, hwants]
      exact hv
    · exact hkept hunder

/-- A thread that succeeds leaves the module as it is wanted, or on its way there. -/
theorem underWay_advance {b : Setup} {m : String} {s t : Reconciler} {n : Nat}
    {moduleConfig : GoMap String String} {depsInstalled : Bool} (hs : Kept s)
    (hsucceeds : Succeeds b m s (.advance n moduleConfig depsInstalled)) {thread : Thread}
    (hthread : s.threads[n]? = some thread)
    (ht : t = s.become (thread.advance b s.bucket s.system moduleConfig depsInstalled).1
      (s.threads.eraseIdx n ++ (thread.advance b s.bucket s.system moduleConfig depsInstalled).2))
    (h : s.UnderWay m) : t.registered m = t.wants m ∨ t.UnderWay m := by
  subst ht
  obtain ⟨thread', hthread', hdue⟩ := h
  by_cases heq : thread' = thread
  · subst heq
    obtain hset | ⟨next, hnext, hdue⟩ :=
      advance_due hs.calls (hs.keys m) (hsucceeds thread' hthread) hdue
    · exact .inl hset
    · exact .inr ⟨next, List.mem_append_right _ hnext, hdue⟩
  · right
    obtain ⟨k, hk⟩ := List.mem_iff_getElem?.mp hthread'
    refine ⟨thread', List.mem_append_left _ (List.mem_eraseIdx_iff_getElem?.mpr ⟨k, ?_, hk⟩), hdue⟩
    rintro rfl
    exact heq (Option.some.inj (hk.symm.trans hthread))

/-- A step that starts threads at most, and does not write the entry of the module. -/
theorem Settling.of_subset {m : String} {s t : Reconciler} {e : Event} (h : Settling m s)
    (hwatching : t.watching = s.watching) (hentry : t.bucket.lookup m = s.bucket.lookup m)
    (hsub : s.threads ⊆ t.threads) (hset : t.registered m = (s.sets m e).getD (s.registered m))
    (hok : ∀ v ∈ s.sets m e, v = s.wants m ∨ s.UnderWay m) : Settling m t := by
  apply h.of_sets hwatching _ hset _ hok
  · rw [Reconciler.wants, hentry]
    rfl
  · exact fun hunder => .inr (hunder.mono hentry hsub)

theorem subset_notify (s : Reconciler) (thread : Thread) : s.threads ⊆ notify s thread := by
  rw [notify]
  split
  next => exact List.subset_append_left _ _
  next => exact List.Subset.refl _

theorem mem_notify (s : Reconciler) (thread : Thread) (h : s.watching = true) :
    thread ∈ notify s thread := by
  rw [notify, if_pos h]
  exact List.mem_append_right _ (List.mem_singleton_self _)

/-- A watch that starts in time finds the module settling. -/
theorem settling_watch {m : String} {s : Reconciler} (hs : Kept s) (hok : InTime m s .watch) :
    Settling m
      { s with
        watching := true
        threads := s.threads ++ s.bucket.entries.map fun e => .handler e.1 (some e.2) } := by
  intro _
  cases hentry : s.bucket.lookup m with
  | some desired =>
    right
    have hmem := (mem_entries_iff s.bucket m desired).mpr hentry
    refine ⟨_, List.mem_append_right _ (List.mem_map_of_mem hmem), ?_⟩
    change desired = ⟨m, wants (s.bucket.lookup m)⟩
    rw [hentry, ← hs.keys m desired hentry]
    rfl
  | none =>
    cases hreg : s.registered m with
    | false =>
      left
      change s.registered m = wants (s.bucket.lookup m)
      rw [hreg, hentry]
      rfl
    | true =>
      obtain hsome | hunder := hok hreg
      · rw [hentry] at hsome
        cases hsome
      · exact .inr (hunder.mono rfl (List.subset_append_left _ _))

/-- Each event in time keeps the module on its way to what is wanted. -/
theorem settling_step {b : Setup} {m : String} {s t : Reconciler} {e : Event} (hs : Kept s)
    (h : Settling m s) (hsucceeds : Succeeds b m s e) (hok : InTime m s e)
    (hstep : reconcilerStep b s e = some t) : Settling m t := by
  have hset := registered_step m hstep
  unfold reconcilerStep at hstep
  split at hstep
  next => cases hstep
  next =>
    cases e with
    | put desired =>
      cases hstep
      by_cases hm : desired.moduleID = m
      · intro hwatch
        refine .inr ⟨_, mem_notify s _ hwatch, ?_⟩
        subst hm
        rw [AList.lookup_insert]
        rfl
      · exact h.of_subset rfl (AList.lookup_insert_ne (Ne.symm hm)) (subset_notify s _) hset hok
    | delete key =>
      cases hstep
      by_cases hm : key = m
      · intro hwatch
        refine .inr ⟨.handler key none, mem_notify s _ hwatch, hm, ?_⟩
        subst hm
        rw [AList.lookup_erase]
        rfl
      · exact h.of_subset rfl (AList.lookup_erase_ne (Ne.symm hm)) (subset_notify s _) hset hok
    | watch =>
      obtain ⟨-, ⟨⟩⟩ := Option.ite_none_left_eq_some.mp hstep
      exact settling_watch hs hok
    | sweep keys =>
      obtain ⟨-, ⟨⟩⟩ := Option.ite_none_right_eq_some.mp hstep
      exact h.of_subset rfl rfl (List.subset_append_left _ _) hset hok
    | restartService modID =>
      cases hstep
      exact h.of_subset rfl rfl (List.subset_append_left _ _) hset hok
    | advance n moduleConfig depsInstalled =>
      obtain ⟨thread, hthread, rfl⟩ := Option.map_eq_some_iff.mp hstep
      exact h.of_sets rfl rfl hset (underWay_advance hs hsucceeds hthread rfl) hok
    | exit i panics =>
      obtain ⟨system, -, rfl⟩ := Option.map_eq_some_iff.mp hstep
      exact h.of_subset rfl rfl (List.Subset.refl _) hset hok
    | cleanup i =>
      obtain ⟨system, -, rfl⟩ := Option.map_eq_some_iff.mp hstep
      exact h.of_subset rfl rfl (List.Subset.refl _) hset hok

theorem kept_initial : Kept {} := ⟨rfl, nofun⟩

/-- In every run in which starts and stops succeed and the registration of the module is set in
time, when no handler and no sweep is in progress the module is registered exactly when the last
written entry asks for it. -/
theorem registered_eq_wants (b : Setup) (m : String) (es : List Event) (t : Reconciler)
    (hrun : Runs.run (reconcilerStep b) {} es = some t)
    (hsucceeds : Runs.Meets (reconcilerStep b) (Succeeds b m) {} es)
    (hok : Runs.Meets (reconcilerStep b) (InTime m) {} es) (hwatching : t.watching = true)
    (hquiet : t.threads = []) : t.registered m = t.wants m := by
  have hinv : Kept t ∧ Settling m t := by
    apply Runs.run_invariant _ ⟨kept_initial, nofun⟩ (hsucceeds.and hok) hrun
    rintro s e u ⟨hkept, hsettling⟩ ⟨hsucceeds, hok⟩ hstep
    exact ⟨kept_step hkept hstep, settling_step hkept hsettling hsucceeds hok hstep⟩
  obtain hsettled | ⟨thread, hthread, -⟩ := hinv.2 hwatching
  · exact hsettled
  · rw [hquiet] at hthread
    cases hthread

/-! ## What is late stays so -/

/-- The module is not as its entry asks for, and no thread is to make it so. -/
def Stray (m : String) (s : Reconciler) : Prop := s.registered m ≠ s.wants m ∧ ¬ s.UnderWay m

/-- A sweep without the module before it owes it nothing. -/
theorem goOn_not_due {m : String} {entry : Option DesiredService} {sweep : Option Sweep}
    {system : System} (hcalls : ∀ call ∈ system.calls, ¬ (Thread.calling call sweep).Due m entry)
    (h : ⟨m, wants entry⟩ ∉ remaining sweep) :
    ∀ thread ∈ goOn system sweep, ¬ thread.Due m entry := by
  intro thread hthread
  rw [goOn] at hthread
  split at hthread
  next call calls heq =>
    cases List.mem_singleton.mp hthread
    exact hcalls call (heq ▸ List.mem_cons_self)
  next =>
    cases sweep with
    | none => cases hthread
    | some sweep =>
      cases List.mem_singleton.mp hthread
      exact h

/-- A reconcile calls itself on, with what it has found. -/
theorem mem_calls_reconcile {b : Setup} {system : System} {desired : DesiredService}
    {swept : Bool} {moduleConfig : GoMap String String} {depsInstalled : Bool} {call : Call}
    (hcalls : system.calls = [])
    (h : call ∈ (reconcile b system desired swept moduleConfig depsInstalled).calls) :
    ∃ isRunning, call = .reconcile desired isRunning swept := by
  rw [reconcile] at h
  split at h
  next =>
    rw [hcalls] at h
    cases h
  next =>
    change call ∈ system.calls at h
    rw [hcalls] at h
    cases h
  next =>
    rw [hcalls] at h
    exact ⟨_, List.mem_singleton.mp h⟩

/-- A reconcile to an old wish does not bring the module to the new one. -/
theorem reconcile_not_due {b : Setup} {system : System} {m : String}
    {entry : Option DesiredService} {desired : DesiredService} {moduleConfig : GoMap String String}
    {depsInstalled : Bool} (hcalls : system.calls = []) (hne : desired ≠ ⟨m, wants entry⟩)
    (swept : Bool) {sweep : Option Sweep} (h : ⟨m, wants entry⟩ ∉ remaining sweep) :
    ∀ thread ∈ goOn (reconcile b system desired swept moduleConfig depsInstalled) sweep,
      ¬ thread.Due m entry := by
  apply goOn_not_due _ h
  intro call hcall
  obtain ⟨isRunning, rfl⟩ := mem_calls_reconcile hcalls hcall
  rintro (⟨heq, -⟩ | hrest)
  · exact hne heq
  · exact h hrest

/-- A stop is followed by nothing, and a restart by a start. -/
theorem mem_calls_resume {system : System} {call next : Call} (hcalls : system.calls = [])
    (h : next ∈ (resume system call).calls) :
    (∃ m rm, next = .stopping m rm) ∨ ∃ m rm, call = .restart m rm ∧ next = .starting m rm := by
  cases call with
  | reconcile desired isRunning swept =>
    rw [resume] at h
    split at h
    next => simp [reportStatus, start, hcalls] at h
    next =>
      split at h
      next =>
        split at h
        next rm _ =>
          rw [hcalls] at h
          exact .inl ⟨_, rm, List.mem_singleton.mp h⟩
        next => simp [hcalls] at h
      next => simp [reportStatus, hcalls] at h
  | stopping m rm => simp [resume, reportStatus, stop, update, hcalls] at h
  | restart m rm =>
    rw [resume, hcalls] at h
    exact .inr ⟨m, rm, rfl, List.mem_singleton.mp h⟩
  | starting m rm => simp [resume, respond, start, hcalls] at h

/-- A thread that is not due does not become so by going on. -/
theorem advance_not_due {b : Setup} {bucket : GoMap String DesiredService} {system : System}
    {m : String} {moduleConfig : GoMap String String} {depsInstalled : Bool} {thread : Thread}
    (hcalls : system.calls = [])
    (hkeys : ∀ key desired, bucket.lookup key = some desired → desired.moduleID = key)
    (h : ¬ thread.Due m (bucket.lookup m)) :
    ∀ next ∈ (thread.advance b bucket system moduleConfig depsInstalled).2,
      ¬ next.Due m (bucket.lookup m) := by
  cases thread with
  | handler key value =>
    cases value with
    | none => exact nofun
    | some desired => exact reconcile_not_due hcalls h false nofun
  | reading keys results =>
    intro next hnext
    cases keys with
    | nil =>
      cases List.mem_singleton.mp hnext
      exact fun hmem => h (.inr hmem)
    | cons key keys =>
      cases List.mem_singleton.mp hnext
      rintro (⟨hm, hentry⟩ | hread)
      · exact h (.inl ⟨List.mem_cons_of_mem key hm, hentry⟩)
      · obtain hread | hread := List.mem_append.mp hread
        · exact h (.inr hread)
        · have hlook := Option.mem_toList.mp hread
          obtain rfl : m = key := hkeys key _ hlook
          exact h (.inl ⟨List.mem_cons_self, Option.isSome_iff_exists.mpr ⟨_, hlook⟩⟩)
  | sweeping sweep =>
    obtain ⟨all, _ | ⟨desired, rest⟩⟩ := sweep
    · exact nofun
    · obtain ⟨hne, hrest⟩ := not_or.mp (fun hmem => h (List.mem_cons.mpr hmem))
      exact reconcile_not_due hcalls (Ne.symm hne) true hrest
  | calling call sweep =>
    have hrest : ⟨m, wants (bucket.lookup m)⟩ ∉ remaining sweep := fun hmem =>
      h (.of_remaining call hmem)
    apply goOn_not_due _ hrest
    intro next hnext
    obtain ⟨m', rm, rfl⟩ | ⟨m', rm, rfl, rfl⟩ := mem_calls_resume hcalls hnext
    · exact hrest
    · exact h

/-- Only a thread that is due sets the registration to what the entry asks for. -/
theorem sets_ne_wants {m : String} {entry : Option DesiredService} {thread : Thread}
    (h : ¬ thread.Due m entry) : ∀ v ∈ thread.sets m, v ≠ wants entry := by
  rintro v hv rfl
  cases thread with
  | handler key value =>
    cases value with
    | none =>
      obtain ⟨hm, hwants⟩ := Option.ite_none_right_eq_some.mp hv
      exact h ⟨hm, (Option.some.inj hwants).symm⟩
    | some desired => cases hv
  | reading keys results => cases hv
  | sweeping sweep => cases hv
  | calling call sweep =>
    cases call with
    | reconcile desired isRunning swept =>
      obtain ⟨⟨rfl, hne⟩, hwants⟩ := Option.ite_none_right_eq_some.mp hv
      have hwants := Option.some.inj hwants
      refine h (.inl ⟨?_, hwants ▸ Ne.symm hne⟩)
      rw [← hwants]
    | stopping | restart => cases hv
    | starting moduleID rm =>
      obtain ⟨hm, hwants⟩ := Option.ite_none_right_eq_some.mp hv
      exact h (.inl ⟨hm, (Option.some.inj hwants).symm⟩)

/-- A thread goes on from its place in the list. -/
theorem advance_eq {b : Setup} {s t : Reconciler} {n : Nat} {moduleConfig : GoMap String String}
    {depsInstalled : Bool}
    (h : reconcilerStep b s (.advance n moduleConfig depsInstalled) = some t) :
    ∃ thread, s.threads[n]? = some thread ∧
      t = s.become (thread.advance b s.bucket s.system moduleConfig depsInstalled).1
        (s.threads.eraseIdx n ++
          (thread.advance b s.bucket s.system moduleConfig depsInstalled).2) := by
  unfold reconcilerStep at h
  split at h
  next => cases h
  next =>
    obtain ⟨thread, hthread, rfl⟩ := Option.map_eq_some_iff.mp h
    exact ⟨thread, hthread, rfl⟩

/-- The steps of the threads bring nothing under way. -/
theorem underWay_of_advance {b : Setup} {m : String} {s t : Reconciler} {n : Nat}
    {moduleConfig : GoMap String String} {depsInstalled : Bool} (hs : Kept s)
    (hstep : reconcilerStep b s (.advance n moduleConfig depsInstalled) = some t)
    (h : t.UnderWay m) : s.UnderWay m := by
  obtain ⟨thread, hthread, rfl⟩ := advance_eq hstep
  obtain ⟨next, hnext, hdue⟩ := h
  obtain hnext | hnext := List.mem_append.mp hnext
  · exact ⟨next, List.mem_of_mem_eraseIdx hnext, hdue⟩
  · refine ⟨thread, List.mem_of_getElem? hthread, ?_⟩
    by_contra hnot
    exact advance_not_due hs.calls hs.keys hnot next hnext hdue

/-- What has gone astray stays so, whatever thread goes on. -/
theorem stray_advance {b : Setup} {m : String} {s t : Reconciler} {n : Nat}
    {moduleConfig : GoMap String String} {depsInstalled : Bool} (hs : Kept s) (h : Stray m s)
    (hstep : reconcilerStep b s (.advance n moduleConfig depsInstalled) = some t) : Stray m t := by
  refine ⟨?_, fun hunder => h.2 (underWay_of_advance hs hstep hunder)⟩
  rw [registered_step m hstep]
  obtain ⟨thread, hthread, rfl⟩ := advance_eq hstep
  rw [Reconciler.sets, hthread, Option.bind_some]
  cases hsets : thread.sets m with
  | none => exact h.1
  | some v =>
    have hnot : ¬ thread.Due m (s.bucket.lookup m) := fun hdue =>
      h.2 ⟨thread, List.mem_of_getElem? hthread, hdue⟩
    exact sets_ne_wants hnot v hsets

theorem exists_late {m : String} {s : Reconciler} {e : Event}
    (h : ¬ ∀ v ∈ s.sets m e, v = s.wants m ∨ s.UnderWay m) :
    ∃ v, s.sets m e = some v ∧ v ≠ s.wants m ∧ ¬ s.UnderWay m := by
  obtain ⟨v, hv⟩ := not_forall.mp h
  obtain ⟨hv, hnot⟩ := Classical.not_imp.mp hv
  exact ⟨v, hv, not_or.mp hnot⟩

/-- After an event that comes too late the module is astray. -/
theorem stray_of_not_inTime {b : Setup} {m : String} {s t : Reconciler} {e : Event} (hs : Kept s)
    (hlate : ¬ InTime m s e) (hstep : reconcilerStep b s e = some t) : Stray m t := by
  have hset := registered_step m hstep
  cases e with
  | put | delete | sweep | restartService | exit => exact absurd nofun hlate
  | watch =>
    obtain ⟨hreg, hnot⟩ := Classical.not_imp.mp hlate
    obtain ⟨hentry, hunder⟩ := not_or.mp hnot
    have hnone : s.bucket.lookup m = none := Option.not_isSome_iff_eq_none.mp hentry
    unfold reconcilerStep at hstep
    split at hstep
    next => cases hstep
    next =>
      obtain ⟨-, ⟨⟩⟩ := Option.ite_none_left_eq_some.mp hstep
      constructor
      · rw [hset]
        change s.registered m ≠ wants (s.bucket.lookup m)
        rw [hreg, hnone]
        exact nofun
      · rintro ⟨thread, hthread, hdue⟩
        obtain hthread | hthread := List.mem_append.mp hthread
        · exact hunder ⟨thread, hthread, hdue⟩
        · obtain ⟨⟨key, desired⟩, hmem, rfl⟩ := List.mem_map.mp hthread
          have hlook := (mem_entries_iff s.bucket key desired).mp hmem
          obtain rfl : desired = ⟨m, wants (s.bucket.lookup m)⟩ := hdue
          obtain rfl : m = key := hs.keys key _ hlook
          cases hnone.symm.trans hlook
  | advance n moduleConfig depsInstalled =>
    obtain ⟨v, hv, hne, hunder⟩ := exists_late hlate
    refine ⟨?_, fun h => hunder (underWay_of_advance hs hstep h)⟩
    obtain ⟨thread, -, rfl⟩ := advance_eq hstep
    rw [hset, hv]
    exact hne
  | cleanup i =>
    obtain ⟨v, hv, hne, hunder⟩ := exists_late hlate
    unfold reconcilerStep at hstep
    split at hstep
    next => cases hstep
    next =>
      obtain ⟨system, -, rfl⟩ := Option.map_eq_some_iff.mp hstep
      refine ⟨?_, hunder⟩
      rw [hset, hv]
      exact hne

/-- A registration that is not set in time is not set right by what is in progress: that takes
another write, sweep or restart. -/
theorem late_registered_ne_wants (b : Setup) (m : String) (es fs : List Event) (e : Event)
    (s t : Reconciler) (hes : Runs.run (reconcilerStep b) {} es = some s)
    (hlate : ¬ InTime m s e) (hrun : Runs.run (reconcilerStep b) s (e :: fs) = some t)
    (hfs : ∀ f ∈ fs, ∃ n moduleConfig depsInstalled, f = .advance n moduleConfig depsInstalled) :
    t.registered m ≠ t.wants m := by
  have hs : Kept s := Runs.run_preserves (fun _ _ _ => kept_step) kept_initial hes
  obtain ⟨u, hu, hrun⟩ := Option.bind_eq_some_iff.mp hrun
  have hend : Kept t ∧ Stray m t := by
    apply Runs.run_preserves_of _ ⟨kept_step hs hu, stray_of_not_inTime hs hlate hu⟩ hfs hrun
    rintro s f t ⟨hkept, hstray⟩ ⟨n, moduleConfig, depsInstalled, rfl⟩ hstep
    exact ⟨kept_step hkept hstep, stray_advance hkept hstray hstep⟩
  exact hend.2.1

instance Thread.Due.decidable (m : String) (entry : Option DesiredService) :
    (thread : Thread) → Decidable (thread.Due m entry)
  | .handler key none => inferInstanceAs (Decidable (key = m ∧ wants entry = false))
  | .handler _ (some desired) => inferInstanceAs (Decidable (desired = ⟨m, wants entry⟩))
  | .reading keys results => inferInstanceAs (Decidable
    ((m ∈ keys ∧ entry.isSome) ∨ ⟨m, wants entry⟩ ∈ results))
  | .sweeping sweep => inferInstanceAs (Decidable (⟨m, wants entry⟩ ∈ sweep.rest))
  | .calling (.reconcile desired isRunning _) sweep => inferInstanceAs (Decidable
    ((desired = ⟨m, wants entry⟩ ∧ isRunning ≠ wants entry) ∨ ⟨m, wants entry⟩ ∈ remaining sweep))
  | .calling (.stopping _ _) sweep => inferInstanceAs (Decidable
    (⟨m, wants entry⟩ ∈ remaining sweep))
  | .calling (.restart moduleID _) sweep | .calling (.starting moduleID _) sweep =>
    inferInstanceAs (Decidable
      ((moduleID = m ∧ wants entry = true) ∨ ⟨m, wants entry⟩ ∈ remaining sweep))

instance Reconciler.UnderWay.decidable (m : String) (s : Reconciler) : Decidable (s.UnderWay m) :=
  inferInstanceAs (Decidable (∃ thread ∈ s.threads, thread.Due m (s.bucket.lookup m)))

instance InTime.decidable (m : String) (s : Reconciler) : (e : Event) → Decidable (InTime m s e)
  | .watch => inferInstanceAs (Decidable
    (s.registered m = true → (s.bucket.lookup m).isSome ∨ s.UnderWay m))
  | .put _ | .delete _ | .sweep _ | .restartService _ | .exit .. => isTrue nofun
  | .advance n moduleConfig depsInstalled => inferInstanceAs (Decidable
    (∀ v ∈ s.sets m (.advance n moduleConfig depsInstalled), v = s.wants m ∨ s.UnderWay m))
  | .cleanup i => inferInstanceAs (Decidable
    (∀ v ∈ s.sets m (.cleanup i), v = s.wants m ∨ s.UnderWay m))

instance Succeeds.decidable (b : Setup) (m : String) (s : Reconciler) :
    (e : Event) → Decidable (Succeeds b m s e)
  | .advance n moduleConfig depsInstalled => inferInstanceAs (Decidable
    (∀ thread ∈ s.threads[n]?, ∀ desired ∈ thread.begins, desired.moduleID = m →
      (checkDesired b desired moduleConfig depsInstalled).isOk = true))
  | .exit i panics => inferInstanceAs (Decidable (∀ inst ∈ s.system.instances[i]?,
    inst.moduleID = m → inst.toldToStop = true ∧ panics = false))
  | .put _ | .delete _ | .watch | .sweep _ | .restartService _ | .cleanup _ => isTrue trivial

/-- A sweep that has read the first entry starts the module after the second write, and the
handler of the first write runs then too; the handler of the second, which stops it, comes last. -/
def settlingRun : List Event :=
  [.watch, .put ⟨"plc", true⟩, .sweep ["plc"], .advance 1 ∅ true, .advance 1 ∅ true,
    .put ⟨"plc", false⟩, .advance 1 ∅ true, .advance 2 ∅ true, .advance 2 ∅ true, .advance 0 ∅ true,
    .advance 1 ∅ true, .advance 0 ∅ true, .advance 0 ∅ true, .advance 0 ∅ true, .exit 0 false,
    .cleanup 0]

theorem settlingRun_registered :
    ∃ t, Runs.run (reconcilerStep oneModule) {} settlingRun = some t ∧
      t.system.instances.length = 1 ∧ t.wants "plc" = false ∧
      t.registered "plc" = t.wants "plc" := by
  have hsucceeds : Runs.Meets (reconcilerStep oneModule) (Succeeds oneModule "plc") {}
      settlingRun := by decide
  have hok : Runs.Meets (reconcilerStep oneModule) (InTime "plc") {} settlingRun := by decide
  have hend : (Runs.run (reconcilerStep oneModule) {} settlingRun).map (fun t =>
      (t.system.instances.length, t.wants "plc", t.watching, t.threads)) =
        some (1, false, true, []) := by decide
  obtain ⟨t, hrun, ht⟩ := Option.map_eq_some_iff.mp hend
  simp only [Prod.mk.injEq] at ht
  obtain ⟨hlen, hwants, hwatching, hquiet⟩ := ht
  exact ⟨t, hrun, hlen, hwants,
    registered_eq_wants oneModule "plc" settlingRun t hrun hsucceeds hok hwatching hquiet⟩

/-- The handler of the second write stops the module; a sweep that has read the first entry before
starts it again. -/
def staleSweep : List Event :=
  [.watch, .put ⟨"plc", true⟩, .advance 0 ∅ true, .advance 0 ∅ true, .sweep ["plc"],
    .advance 0 ∅ true, .advance 0 ∅ true, .put ⟨"plc", false⟩, .advance 1 ∅ true, .advance 1 ∅ true,
    .advance 1 ∅ true, .advance 0 ∅ true, .advance 0 ∅ true, .advance 0 ∅ true]

theorem staleSweep_registered :
    Runs.Meets (reconcilerStep oneModule) (Succeeds oneModule "plc") {} staleSweep ∧
      ∃ t, Runs.run (reconcilerStep oneModule) {} staleSweep = some t ∧ t.watching = true ∧
        t.threads = [] ∧ t.wants "plc" = false ∧ t.registered "plc" = true := by
  refine ⟨by decide, ?_⟩
  have hend : (Runs.run (reconcilerStep oneModule) {} staleSweep).map (fun t =>
      (t.watching, t.threads, t.wants "plc", t.registered "plc")) =
        some (true, [], false, true) := by decide
  obtain ⟨t, hrun, ht⟩ := Option.map_eq_some_iff.mp hend
  simp only [Prod.mk.injEq] at ht
  exact ⟨t, hrun, ht⟩

theorem staleSweep_registered_ne_wants :
    ∃ s t, Runs.run (reconcilerStep oneModule) {} (staleSweep.take 12) = some s ∧
      ¬InTime "plc" s (.advance 0 ∅ true) ∧
      Runs.run (reconcilerStep oneModule) s (staleSweep.drop 12) = some t ∧
      t.registered "plc" ≠ t.wants "plc" := by
  have hlate : (Runs.run (reconcilerStep oneModule) {} (staleSweep.take 12)).any
      (fun s => ¬InTime "plc" s (.advance 0 ∅ true)) = true := by decide
  have hdone : (Runs.run (reconcilerStep oneModule) {}
      (staleSweep.take 12 ++ staleSweep.drop 12)).isSome = true := by decide
  obtain ⟨t, hrun⟩ := Option.isSome_iff_exists.mp hdone
  obtain ⟨s, hs, ht⟩ := Runs.run_append.mp hrun
  rw [hs, Option.any_some, decide_eq_true_eq] at hlate
  refine ⟨s, t, hs, hlate, ht, late_registered_ne_wants oneModule "plc" (staleSweep.take 12)
    [.advance 0 ∅ true] _ s t hs hlate ht ?_⟩
  intro f hf
  exact ⟨0, ∅, true, List.mem_singleton.mp hf⟩

end Orchestrator
