import Mathlib
import Tentacle.HostGating

/-!
# The STATEs of a session

`onConnect` subscribes to the STATE topics of the primary host before it forgets what it knew about
the host. The broker sends the retained STATE as soon as there is a subscription, so the handler may
come before the reset, which then discards what it wrote.
-/

namespace HostStates

open GoValues SparkplugPayload SparkplugNode HostGating

variable {F32 F64 : Type}

/-! ## Topics -/

/-- A host id as it stands in a topic: one level, and no wildcard. -/
def isLevel (id : String) : Bool := id.toList.all fun c => c ≠ '/' && c ≠ '+' && c ≠ '#'

def stateTopic (config : Config) : Version → String
  | .legacy => "STATE/" ++ config.primaryHostID
  | .v3 => "spBv1.0/STATE/" ++ config.primaryHostID

/-- Levels that are not empty are found again. -/
theorem splitTopic_intercalate {levels : List (List Char)} (hne : levels ≠ [])
    (h : ∀ level ∈ levels, level ≠ [] ∧ '/' ∉ level) :
    splitTopic (String.ofList (['/'].intercalate levels)) = levels.map String.ofList := by
  have hsplit : (['/'].intercalate levels).splitOn '/' = levels :=
    List.splitOn_intercalate '/' (fun level hlevel => (h level hlevel).2) hne
  have hfilter : levels.filter (· ≠ []) = levels := by
    rw [List.filter_eq_self]
    intro level hlevel
    exact decide_eq_true (h level hlevel).1
  rw [splitTopic, String.toList_ofList, hsplit, hfilter]

/-- The handlers find the host id in the topics that `onConnect` subscribes to. -/
theorem hostID_stateTopic {config : Config} (hid : isLevel config.primaryHostID = true)
    (hne : config.primaryHostID ≠ "") (session : Nat) (version : Version) (payload : String) :
    (⟨session, version, stateTopic config version, payload⟩ : StateMessage).hostID =
      config.primaryHostID := by
  let id := config.primaryHostID.toList
  have hlevel : id ≠ [] ∧ '/' ∉ id := by
    refine ⟨fun hnil => hne (String.toList_eq_nil_iff.mp hnil), fun hmem => ?_⟩
    have hc := List.all_eq_true.mp hid '/' hmem
    simp at hc
  have hback : String.ofList id = config.primaryHostID := String.ofList_toList
  have hlevels : ∀ front : List (List Char), (∀ level ∈ front, level ≠ [] ∧ '/' ∉ level) →
      splitTopic (String.ofList (['/'].intercalate (front ++ [id]))) =
        (front ++ [id]).map String.ofList := by
    intro front hfront
    apply splitTopic_intercalate (by simp)
    intro level hmem
    rcases List.mem_append.mp hmem with hmem | hmem
    · exact hfront level hmem
    · rw [List.mem_singleton.mp hmem]
      exact hlevel
  cases version with
  | legacy =>
    have hsplit := hlevels ["STATE".toList] (by decide)
    have htopic : String.ofList (['/'].intercalate (["STATE".toList] ++ [id])) =
        stateTopic config .legacy := by
      rw [stateTopic, ← hback, ← String.ofList_append]
      simp only [List.cons_append, List.nil_append, List.intercalate_cons_cons,
        List.intercalate_singleton]
      rfl
    rw [htopic] at hsplit
    simp only [StateMessage.hostID, parseHostID, hsplit, List.map_append, List.map_cons, hback]
    rfl
  | v3 =>
    have hsplit := hlevels ["spBv1.0".toList, "STATE".toList] (by decide)
    have htopic : String.ofList (['/'].intercalate
        (["spBv1.0".toList, "STATE".toList] ++ [id])) = stateTopic config .v3 := by
      rw [stateTopic, ← hback, ← String.ofList_append]
      simp only [List.cons_append, List.nil_append, List.intercalate_cons_cons,
        List.intercalate_singleton]
      rfl
    rw [htopic] at hsplit
    simp only [StateMessage.hostID, parseHostIDV3, hsplit, List.map_append, List.map_cons, hback]
    rfl

/-! ## One session -/

/-- A session that has just been opened, whatever the node knew about the host. -/
def opened (n : Node F32 F64) : System F32 F64 := openSession { node := n } n

/-- What happens while the session is the last one: the broker sends what is subscribed to, and the
clock is past 1970. -/
def InSession (config : Config) : Action F32 F64 → Prop
  | .deliver version topic _ => topic = stateTopic config version
  | .processHostState _ nowMs => 0 ≤ nowMs
  | .connect _ _ => False
  | .autoReconnect => False
  | _ => True

/-- The node has taken the newest of the STATEs. -/
def Known (s : System F32 F64) : Prop :=
  ∀ w, NewestWins.Newest (states s.session s.log) w → s.node.hostOnline = w.2

/-- What STATEs say together: the host is offline if there is none. -/
def told (after : List HostState) : Bool := (after.foldl NewestWins.put (0, false)).2

/-- The STATEs handled before the reset are not missed: one that is as new comes after it, or the
ones after it say the same. -/
def Superseded (before all : List HostState) : Prop :=
  ∃ after, all = before ++ after ∧
    ∀ w, NewestWins.Newest before w → (∃ x ∈ after, w.1 ≤ x.1) ∨ told after = w.2

def register (n : Node F32 F64) : HostState := (n.hostStateTimestamp, n.hostOnline)

theorem register_of_sameHost {n n' : Node F32 F64} (h : SameHost n n') :
    register n' = register n := by
  rw [register, h.hostStateTimestamp, h.hostOnline]
  rfl

/-- What holds of the session whatever has been handled. -/
structure Session (config : Config) (s : System F32 F64) : Prop where
  session : s.session = 1
  sameConfig : s.node.config = config
  incoming : ∀ m ∈ s.incoming, m.session = 1 ∧ m.hostID = config.primaryHostID

theorem parseDigits_nonneg (digits : List Char) : 0 ≤ parseDigits digits := by
  unfold parseDigits
  split
  · split
    · exact Int.natCast_nonneg _
    · exact le_rfl
  · exact le_rfl

/-- A state without a time stamp gets the clock's. -/
theorem hostState_nonneg (m : StateMessage) {nowMs : Int} (h : 0 ≤ nowMs) :
    0 ≤ (m.hostState nowMs).1 := by
  cases hv : m.version with
  | legacy => simpa [StateMessage.hostState, hv] using h
  | v3 =>
    simp only [StateMessage.hostState, hv, parseStateTimestamp]
    split
    · exact le_rfl
    · exact parseDigits_nonneg _

/-- What a step can do to the STATEs and to what the node knows. -/
inductive HostStep (s t : System F32 F64) : Action F32 F64 → Prop where
  | quiet {a : Action F32 F64} : register t.node = register s.node →
      states 1 t.log = states 1 s.log → t.connects = s.connects → HostStep s t a
  | connect {i : Nat} {c : ConnectStep} {rest : List ConnectStep} :
      s.connects[i]? = some (c :: rest) → t.connects = s.connects.set i rest →
      (c = .reset → register t.node = (0, false)) → states 1 t.log = states 1 s.log →
      HostStep s t (.onConnect i)
  | heard {a : Action F32 F64} (said : HostState) : 0 ≤ said.1 →
      states 1 t.log = states 1 s.log ++ [said] →
      register t.node = NewestWins.put (register s.node) said → t.connects = s.connects →
      HostStep s t a

/-- Neither the host nor the session are concerned. -/
structure Quiet (s t : System F32 F64) : Prop where
  node : SameHost s.node t.node
  states : states 1 t.log = states 1 s.log
  connects : t.connects = s.connects
  session : t.session = s.session
  incoming : t.incoming = s.incoming

theorem Session.quiet {config : Config} {s t : System F32 F64} {a : Action F32 F64}
    (h : Session config s) (hquiet : Quiet s t) : Session config t ∧ HostStep s t a := by
  refine ⟨⟨hquiet.session.trans h.session, hquiet.node.config.trans h.sameConfig, ?_⟩,
    .quiet (register_of_sameHost hquiet.node) hquiet.states hquiet.connects⟩
  rw [hquiet.incoming]
  exact h.incoming

/-- A state of the session is put into the register if it is newer. -/
theorem handleState_session {config : Config} {s : System F32 F64} {m : StateMessage}
    (nowMs : Int) (h : Session config s)
    (hm : m.session = 1 ∧ m.hostID = config.primaryHostID) :
    Session config (handleState s m nowMs) ∧
      states 1 (handleState s m nowMs).log = states 1 s.log ++ [m.hostState nowMs] ∧
      register (handleState s m nowMs).node =
        NewestWins.put (register s.node) (m.hostState nowMs) := by
  have hid : m.hostID = s.node.config.primaryHostID := by rw [hm.2, h.sameConfig]
  obtain ⟨hconfig, hput⟩ := processHostState_primary (m.hostState nowMs).2
    (m.hostState nowMs).1 s.node
  rw [← hid] at hconfig hput
  have hlog : (handleState s m nowMs).log = s.log ++ [.state 1 (m.hostState nowMs)] := by
    simp only [handleState, if_pos hid, hm.1]
  refine ⟨⟨h.session, hconfig.trans h.sameConfig, h.incoming⟩, ?_, hput⟩
  rw [hlog, states_snoc]

/-- A step of the connect handler resets the register or leaves it. -/
theorem connectStep_session {config : Config} {s : System F32 F64} (h : Session config s) {i : Nat}
    {c : ConnectStep} {rest : List ConnectStep} (hcall : s.connects[i]? = some (c :: rest)) :
    Session config (connectStep { s with connects := s.connects.set i rest } c) ∧
      HostStep s (connectStep { s with connects := s.connects.set i rest } c) (.onConnect i) := by
  cases c with
  | subscribe topic =>
    simp only [connectStep]
    split
    · exact ⟨{ h with }, .connect hcall rfl (fun hreset => by cases hreset) rfl⟩
    · exact ⟨{ h with }, .connect hcall rfl (fun hreset => by cases hreset) rfl⟩
  | reset =>
    have hsame := sameHost_setStateLocked s.node .dead
    exact ⟨⟨h.session, hsame.config.trans h.sameConfig, h.incoming⟩,
      .connect hcall rfl (fun _ => rfl) rfl⟩
  | birth => exact ⟨{ h with }, .connect hcall rfl (fun hreset => by cases hreset) rfl⟩

section Steps

variable [GoFloats F32 F64] {marshal : PbPayload F32 F64 → Option String}

theorem states_birthLog (published : Bool) (session k : Nat) (log : List Event) :
    states session (if published then log ++ [.nbirth k] else log) = states session log := by
  cases published with
  | true => exact states_snoc_nbirth session k log
  | false => rfl

/-- A birth says nothing about the host. -/
theorem birthStep_quiet {s t : System F32 F64} {broker : Broker} {now : Nat} {order : List String}
    {b : BirthStep} (ht : birthStep marshal s broker now order b = some t) :
    Quiet s t := by
  cases b with
  | markDead =>
    cases ht
    exact ⟨sameHost_setStateLocked _ _, rfl, rfl, rfl, rfl⟩
  | birth =>
    rw [birthStep] at ht
    split at ht
    · cases ht
      exact ⟨sameHost_birth broker now order s.node, states_birthLog _ _ _ _, rfl, rfl, rfl⟩
    · cases ht

/-- Each step of the session resets the register, puts a state into it or leaves it. -/
theorem step_session {config : Config} (hid : isLevel config.primaryHostID = true)
    (hne : config.primaryHostID ≠ "") {s t : System F32 F64} {a : Action F32 F64}
    (h : Session config s) (ha : InSession config a) (ht : step marshal s a = some t) :
    Session config t ∧ HostStep s t a := by
  cases a with
  | connect now dial => exact ha.elim
  | autoReconnect => exact ha.elim
  | loseConnection =>
    obtain ⟨c, -, hc⟩ := Option.bind_eq_some_iff.mp ht
    split at hc <;> cases hc
    exact h.quiet ⟨⟨rfl, rfl, rfl⟩, rfl, rfl, rfl, rfl⟩
  | connectionLost =>
    cases ht
    exact h.quiet ⟨sameHost_setStateLocked _ _, rfl, rfl, rfl, rfl⟩
  | onConnect i =>
    rw [step] at ht
    split at ht
    next c rest hcall =>
      cases ht
      exact connectStep_session h hcall
    next => cases ht
  | deliver version topic payload =>
    rw [step] at ht
    split at ht <;> cases ht
    refine ⟨⟨h.session, h.sameConfig, ?_⟩, .quiet rfl rfl rfl⟩
    intro m hm
    rcases List.mem_append.mp hm with hm | hm
    · exact h.incoming m hm
    · rw [List.mem_singleton.mp hm, ha]
      exact ⟨h.session, hostID_stateTopic hid hne _ _ _⟩
  | processHostState i nowMs =>
    obtain ⟨m, hm, rfl⟩ := Option.map_eq_some_iff.mp ht
    have hs : Session config { s with incoming := s.incoming.eraseIdx i } :=
      ⟨h.session, h.sameConfig, fun m hm => h.incoming m (List.mem_of_mem_eraseIdx hm)⟩
    obtain ⟨hsession, hstates, hput⟩ :=
      handleState_session nowMs hs (h.incoming m (List.mem_of_getElem? hm))
    exact ⟨hsession, .heard _ (hostState_nonneg m ha) hstates hput rfl⟩
  | rebirth =>
    cases ht
    exact h.quiet ⟨⟨rfl, rfl, rfl⟩, rfl, rfl, rfl, rfl⟩
  | birth i broker now order =>
    rw [step] at ht
    split at ht
    next b rest hcall =>
      have hquiet := birthStep_quiet ht
      exact h.quiet { hquiet with }
    next => cases ht
  | setNodeMetrics metrics =>
    cases ht
    exact h.quiet ⟨⟨rfl, rfl, rfl⟩, rfl, rfl, rfl, rfl⟩
  | setDeviceMetrics deviceID metrics =>
    cases ht
    exact h.quiet ⟨⟨rfl, rfl, rfl⟩, rfl, rfl, rfl, rfl⟩
  | disconnect broker now =>
    cases ht
    exact h.quiet ⟨sameHost_disconnect _ _ _, rfl, rfl, rfl, rfl⟩

/-! ## The reset in a run -/

/-- The rest of `onConnect`, and what the node knows once that has returned. -/
structure Connecting (config : Config) (s : System F32 F64) : Prop extends Session config s where
  program : ∃ rest, s.connects = [rest] ∧ rest <:+ onConnectProgram config

structure Connected (config : Config) (before : List HostState) (s : System F32 F64) : Prop extends
    Session config s where
  returned : s.connects = [[]]
  known : ∃ after, states 1 s.log = before ++ after ∧ (∀ w ∈ after, 0 ≤ w.1) ∧
    register s.node = after.foldl NewestWins.put (0, false)

/-- A call is all there is. -/
theorem getElem?_call {rest call : List ConnectStep} {i : Nat} (h : [rest][i]? = some call) :
    i = 0 ∧ rest = call := by
  cases i with
  | zero => exact ⟨rfl, Option.some.inj h⟩
  | succ i => simp at h

/-- Before the reset the register may hold what an earlier session left. -/
theorem step_connecting {config : Config} (hid : isLevel config.primaryHostID = true)
    (hne : config.primaryHostID ≠ "") {s t : System F32 F64} {a : Action F32 F64}
    (h : Connecting config s) (ha : InSession config a) (ht : step marshal s a = some t) :
    Connecting config t := by
  obtain ⟨hsession, hstep⟩ := step_session hid hne h.toSession ha ht
  obtain ⟨rest, hrest, hsuffix⟩ := h.program
  refine ⟨hsession, ?_⟩
  cases hstep with
  | quiet _ _ hconnects => exact ⟨rest, hconnects.trans hrest, hsuffix⟩
  | connect hcall hconnects =>
    rw [hrest] at hcall hconnects
    obtain ⟨rfl, rfl⟩ := getElem?_call hcall
    exact ⟨_, hconnects, (List.suffix_cons _ _).trans hsuffix⟩
  | heard _ _ _ _ hconnects => exact ⟨rest, hconnects.trans hrest, hsuffix⟩

/-- After it the register holds the newest state of this session. -/
theorem step_connected {config : Config} (hid : isLevel config.primaryHostID = true)
    (hne : config.primaryHostID ≠ "") {before : List HostState} {s t : System F32 F64}
    {a : Action F32 F64} (h : Connected config before s) (ha : InSession config a)
    (ht : step marshal s a = some t) : Connected config before t := by
  obtain ⟨hsession, hstep⟩ := step_session hid hne h.toSession ha ht
  obtain ⟨after, hstates, hnonneg, hregister⟩ := h.known
  cases hstep with
  | quiet hsame hlog hconnects =>
    exact ⟨hsession, hconnects.trans h.returned, after, hlog.trans hstates, hnonneg,
      hsame.trans hregister⟩
  | connect hcall =>
    rw [h.returned] at hcall
    cases (getElem?_call hcall).2
  | heard said hsaid hlog hput hconnects =>
    refine ⟨hsession, hconnects.trans h.returned, after ++ [said], ?_, ?_, ?_⟩
    · rw [hlog, hstates, List.append_assoc]
    · intro w hw
      rcases List.mem_append.mp hw with hw | hw
      · exact hnonneg w hw
      · rw [List.mem_singleton.mp hw]
        exact hsaid
    · rw [hput, hregister, List.foldl_append]
      rfl

/-- The reset is the last step of `onConnect` and starts what the node knows. -/
theorem reset_connected {config : Config} (hid : isLevel config.primaryHostID = true)
    (hne : config.primaryHostID ≠ "") {s t : System F32 F64} (h : Session config s)
    (hreset : s.connects = [[.reset]]) (ht : step marshal s (.onConnect 0) = some t) :
    Connected config (states 1 s.log) t := by
  have ha : InSession config (.onConnect 0 : Action F32 F64) := trivial
  obtain ⟨hsession, -⟩ := step_session hid hne h ha ht
  rw [step, hreset] at ht
  cases ht
  exact ⟨hsession, rfl, [], (List.append_nil _).symm, List.forall_mem_nil _, rfl⟩

omit [GoFloats F32 F64] in
/-- The state of the session is known exactly if no earlier one supersedes it. -/
theorem Connected.known_iff {config : Config} {before : List HostState} {s : System F32 F64}
    (h : Connected config before s) :
    Known s ↔ Superseded before (states s.session s.log) := by
  obtain ⟨after, hstates, hnonneg, hregister⟩ := h.known
  have honline : s.node.hostOnline = told after := congrArg Prod.snd hregister
  have hiff : (∀ w, NewestWins.Newest (before ++ after) w →
      (after.foldl NewestWins.put ((0 : Int), false)).2 = w.2) ↔ _ :=
    NewestWins.foldl_put_newest_iff hnonneg
  rw [Known, honline, h.session, hstates, told, hiff]
  constructor
  · intro hbefore
    exact ⟨after, rfl, hbefore⟩
  · rintro ⟨after', heq, hbefore⟩
    rw [← List.append_cancel_left heq] at hbefore
    exact hbefore

omit [GoFloats F32 F64] in
theorem opened_connecting (n : Node F32 F64) : Connecting n.config (opened n) :=
  ⟨⟨rfl, rfl, nofun⟩, _, rfl, List.suffix_refl _⟩

/-- A run in which the reset is known. -/
theorem known_iff_of_reset {n : Node F32 F64} (hid : isLevel n.config.primaryHostID = true)
    (hne : n.config.primaryHostID ≠ "") {front back : List (Action F32 F64)}
    {u t : System F32 F64} (ha : ∀ a ∈ front ++ .onConnect 0 :: back, InSession n.config a)
    (hfront : Runs.run (step marshal) (opened n) front = some u)
    (hreset : u.connects = [[.reset]])
    (hback : Runs.run (step marshal) u (.onConnect 0 :: back) = some t) :
    Known t ↔ Superseded (states u.session u.log) (states t.session t.log) := by
  have hbefore : Connecting n.config u :=
    Runs.run_preserves_of (fun _ _ _ h ha ht => step_connecting hid hne h ha ht)
      (opened_connecting n) (fun a h => ha a (List.mem_append_left _ h)) hfront
  obtain ⟨v, hv, hback⟩ := Option.bind_eq_some_iff.mp hback
  have hafter : Connected n.config (states 1 u.log) t :=
    Runs.run_preserves_of (fun _ _ _ h ha ht => step_connected hid hne h ha ht)
      (reset_connected hid hne hbefore.toSession hreset hv)
      (fun a h => ha a (List.mem_append_right _ (List.mem_cons_of_mem _ h))) hback
  rw [hafter.known_iff, hbefore.session]

/-- The step after which `onConnect` has returned is the reset. -/
theorem exists_reset {n : Node F32 F64} (hid : isLevel n.config.primaryHostID = true)
    (hne : n.config.primaryHostID ≠ "") {as : List (Action F32 F64)} {t : System F32 F64}
    (ha : ∀ a ∈ as, InSession n.config a)
    (hrun : Runs.run (step marshal) (opened n) as = some t) (hreturned : t.connects = [[]]) :
    ∃ front back u, as = front ++ .onConnect 0 :: back ∧
      Runs.run (step marshal) (opened n) front = some u ∧ u.connects = [[.reset]] ∧
      Runs.run (step marshal) u (.onConnect 0 :: back) = some t := by
  have hprogram : onConnectProgram n.config = [.subscribe .ncmd, .subscribe .dcmd,
      .subscribe (.state .legacy), .subscribe (.state .v3), .reset] := by
    rw [onConnectProgram, if_pos hne]
    rfl
  have hstart : ¬ (opened n).connects = [[]] := by
    change ¬ [onConnectProgram n.config] = [[]]
    rw [hprogram]
    simp
  obtain ⟨front, a, back, u, v, rfl, hfront, hu, hstep, hv, hback⟩ :=
    Runs.run_crosses (P := fun s : System F32 F64 => s.connects = [[]]) hstart hreturned hrun
  have hconnecting : Connecting n.config u :=
    Runs.run_preserves_of (fun _ _ _ h ha ht => step_connecting hid hne h ha ht)
      (opened_connecting n) (fun b h => ha b (List.mem_append_left _ h)) hfront
  obtain ⟨rest, hrest, hsuffix⟩ := hconnecting.program
  obtain ⟨-, hhost⟩ := step_session hid hne hconnecting.toSession
    (ha a (List.mem_append_right _ List.mem_cons_self)) hstep
  have hback' : Runs.run (step marshal) u (a :: back) = some t := by
    rw [Runs.run, hstep]
    exact hback
  cases hhost with
  | quiet _ _ hconnects => exact absurd (hconnects.symm.trans hv) hu
  | heard _ _ _ _ hconnects => exact absurd (hconnects.symm.trans hv) hu
  | @connect i c rest' hcall hconnects =>
    rw [hrest] at hcall
    obtain ⟨rfl, rfl⟩ := getElem?_call hcall
    rw [hconnects, hrest] at hv
    have hnil : rest' = [] := by simpa using hv
    subst hnil
    have hlast : c = .reset := by
      obtain ⟨done, hdone⟩ := hsuffix
      rw [hprogram] at hdone
      have hgetLast := congrArg List.getLast? hdone
      simpa using hgetLast
    subst hlast
    exact ⟨front, back, u, rfl, hfront, hrest, hback'⟩

/-- When `onConnect` has returned, the node knows the newest STATE exactly when none that was
handled before the reset is missed. -/
theorem known_iff_superseded {n : Node F32 F64} (hid : isLevel n.config.primaryHostID = true)
    (hne : n.config.primaryHostID ≠ "") {as : List (Action F32 F64)} {t : System F32 F64}
    (ha : ∀ a ∈ as, InSession n.config a)
    (hrun : Runs.run (step marshal) (opened n) as = some t) (hreturned : t.connects = [[]]) :
    Known t ↔ ∀ front u, front ++ [.onConnect 0] <+: as →
      Runs.run (step marshal) (opened n) front = some u → u.connects = [[.reset]] →
        Superseded (states u.session u.log) (states t.session t.log) := by
  constructor
  · rintro hknown front u ⟨back, rfl⟩ hfront hreset
    rw [List.append_assoc] at ha hrun
    obtain ⟨u', hu', hback⟩ := Runs.run_append.mp hrun
    cases hfront.symm.trans hu'
    exact (known_iff_of_reset hid hne ha hfront hreset hback).mp hknown
  · intro hall
    obtain ⟨front, back, u, rfl, hfront, hreset, hback⟩ := exists_reset hid hne ha hrun hreturned
    apply (known_iff_of_reset hid hne ha hfront hreset hback).mpr
    apply hall front u _ hfront hreset
    exact ⟨back, by simp⟩

end Steps

/-! ## A retained STATE -/

def connectedNode : Node ℚ ℚ :=
  { newSparkplugNode waiting none with state := .dead, client := some ⟨ndeathPayload 0 0, true⟩ }

/-- The subscriptions of `onConnect`, and the retained STATE that the broker sends. -/
def subscribed : List (HostGating.Action ℚ ℚ) :=
  List.replicate 4 (.onConnect 0) ++ [.deliver .legacy "STATE/scada" "ONLINE"]

/-- The STATE is handled after the reset. -/
def resetFirst : List (HostGating.Action ℚ ℚ) :=
  subscribed ++ [.onConnect 0, .processHostState 0 1000]

/-- The handler is faster than `onConnect`. -/
def stateFirst : List (HostGating.Action ℚ ℚ) :=
  subscribed ++ [.processHostState 0 1000, .onConnect 0]

/-- The example stays in its session. -/
theorem subscribed_inSession {rest : List (HostGating.Action ℚ ℚ)}
    (h : ∀ a ∈ rest, InSession waiting a) :
    ∀ a ∈ subscribed ++ rest, InSession waiting a := by
  intro a ha
  rcases List.mem_append.mp ha with ha | ha
  · rcases List.mem_append.mp ha with ha | ha
    · rw [(List.mem_replicate.mp ha).2]
      trivial
    · rw [List.mem_singleton.mp ha]
      rfl
  · exact h a ha

theorem resetFirst_known :
    ∃ t, Runs.run (step marshals) (opened connectedNode) resetFirst = some t ∧
      states t.session t.log = [(1000, true)] ∧ Known t := by
  have hend : (Runs.run (step marshals) (opened connectedNode) resetFirst).map
      (fun t => (t.connects, states t.session t.log)) = some ([[]], [(1000, true)]) := by
    decide +kernel
  have hbefore : ∀ front ∈ resetFirst.inits,
      ∀ u ∈ Runs.run (step marshals) (opened connectedNode) front,
        u.connects = [[.reset]] → states u.session u.log = [] := by decide +kernel
  obtain ⟨t, hrun, ht⟩ := Option.map_eq_some_iff.mp hend
  obtain ⟨hconnects, hstates⟩ := Prod.mk.inj ht
  have ha : ∀ a ∈ resetFirst, InSession connectedNode.config a := by
    apply subscribed_inSession
    simp [InSession]
  refine ⟨t, hrun, hstates, (known_iff_superseded (by decide) (by decide) ha hrun hconnects).mpr ?_⟩
  intro front u hfront hu hreset
  have hmem : front ∈ resetFirst.inits :=
    (List.mem_inits _ _).mpr ((List.prefix_append _ _).trans hfront)
  rw [hbefore front hmem u hu hreset]
  exact ⟨_, rfl, fun w hw => absurd hw (NewestWins.not_newest_nil w)⟩

/-- The reset discards the STATE that was handled before it. -/
theorem stateFirst_not_known :
    ¬ ∀ (n : Node ℚ ℚ) (as : List (HostGating.Action ℚ ℚ)) (t : System ℚ ℚ),
      n.config.primaryHostID ≠ "" → (∀ a ∈ as, InSession n.config a) →
        Runs.run (step marshals) (opened n) as = some t →
          t.connects = [[]] → t.incoming = [] → Known t := by
  intro h
  have hend : (Runs.run (step marshals) (opened connectedNode) stateFirst).map
      (fun t => (t.connects, t.incoming, t.node.hostOnline, states t.session t.log)) =
        some ([[]], [], false, [(1000, true)]) := by decide +kernel
  obtain ⟨t, hrun, ht⟩ := Option.map_eq_some_iff.mp hend
  simp only [Prod.mk.injEq] at ht
  obtain ⟨hconnects, hincoming, honline, hstates⟩ := ht
  have ha : ∀ a ∈ stateFirst, InSession connectedNode.config a := by
    apply subscribed_inSession
    simp [InSession]
  have hknown := h connectedNode stateFirst t (by decide) ha hrun hconnects hincoming
  have hnewest : NewestWins.Newest (states t.session t.log) (1000, true) := by
    rw [hstates]
    exact ⟨[], [], rfl, nofun, nofun⟩
  rw [hknown _ hnewest] at honline
  cases honline

end HostStates
