import Tentacle.GatewayVariables
import Tentacle.Runs

/-!
# Assembling a UDT in the gateway

`SetMember` and `publish` of the assembler, which hold its lock from beginning
to end, and the timers between them. A timer that has expired has started its
callback, which then waits for the lock; stopping it has no effect any more. The
deferred publish replaces the recorded timer without stopping it, so several
timers may be armed. Timers may expire at any moment.
-/

namespace UdtAssembly

open GoValues Rbe MqttBridge Subjects GatewayVariables

/-- The fields of the assembler. A JSON text is given by the fields that it
lists, in the order of their names; `none` is the empty text. -/
structure Assembler (F64 : Type) extends UdtAssembler F64 where
  deadband : Option (DeadBandConfig F64)
  memberDeadbands : GoMap String (DeadBandConfig F64)
  disableRBE : Bool
  dirty : Bool := false
  timer : Option Nat := none
  lastJSON : Option (List (String × Json F64)) := none
  lastValues : Option (GoMap String (Json F64)) := none
  lastPubTime : Int := 0

variable {F64 : Type}

def new (config : GatewayUdtVariableConfig) (template : GatewayUdtTemplateConfig)
    (deadband : Option (DeadBandConfig F64)) (disableRBE : Bool)
    (memberDeadbands : GoMap String (DeadBandConfig F64)) : Assembler F64 where
  toUdtAssembler := newUdtAssembler config template
  deadband := deadband
  memberDeadbands := memberDeadbands
  disableRBE := disableRBE

/-- The members of the template that have a value. -/
def assemble (a : UdtAssembler F64) : GoMap String (Json F64) :=
  a.template.members.foldl (fun assembled member =>
    match a.values.lookup member.name with
    | some val => assembled.insert member.name val
    | none => assembled) ∅

/-- `json.Marshal` of decoded values, which does not fail. -/
def marshal (m : GoMap String (Json F64)) : List (String × Json F64) :=
  (m.entries.map (fun e => (e.1, e.2))).insertionSort (fun f g => f.1 ≤ g.1)

section Publish

variable [GoFloat64 F64]

/-- `==` of two `interface{}`; comparing two arrays or two objects panics, which
the scalars of a member do not. -/
def interfaceEqual : Json F64 → Json F64 → Bool
  | .null, .null => true
  | .bool b, .bool c => b == c
  | .number x, .number y => GoFloat64.eq x y
  | .string s, .string t => s == t
  | _, _ => false

/-- The texts of two objects of scalars are the same. -/
def sameText : List (String × Json F64) → List (String × Json F64) → Bool
  | [], [] => true
  | f :: fs, g :: gs => f.1 == g.1 && interfaceEqual f.2 g.2 && sameText fs gs
  | _, _ => false

/-- The body of the loop over the members that have a value, with what compares
two values. -/
def exceedsBy {m : Type → Type} [Monad m] (compare : Json F64 → Json F64 → m Bool)
    (a : Assembler F64) (lastValues : GoMap String (Json F64)) (memberName : String)
    (newVal : Json F64) : m Bool :=
  match lastValues.lookup memberName with
  | none => pure true
  | some prevVal =>
    match a.memberDeadbands.lookup memberName, toFloat64 newVal, toFloat64 prevVal with
    | some db, some new, some prev =>
      pure (GoFloat64.gt (GoFloat64.abs (GoFloat64.sub new prev)) db.value)
    | _, _, _ => (!·) <$> compare newVal prevVal

def exceedsDeadband (a : Assembler F64) (lastValues : GoMap String (Json F64)) (memberName : String)
    (newVal : Json F64) : Bool :=
  exceedsBy (m := Id) interfaceEqual a lastValues memberName newVal

def anyMemberExceedsDeadband (a : Assembler F64) (lastValues current : GoMap String (Json F64)) :
    Bool :=
  current.entries.any (fun e => exceedsDeadband a lastValues e.1 e.2) ||
    lastValues.entries.any (fun e => (current.lookup e.1).isNone)

inductive Verdict where
  | send | defer | suppress
  deriving DecidableEq, Repr

def maxTimeOver (a : Assembler F64) (nowMs : Int) : Bool :=
  a.deadband.any fun db => 0 < db.maxTime ∧ db.maxTime ≤ nowMs - a.lastPubTime

def minTimeLeft (a : Assembler F64) (nowMs : Int) : Bool :=
  a.deadband.any fun db => 0 < db.minTime ∧ nowMs - a.lastPubTime < db.minTime

/-- The RBE check of `publish`, with what compares the members and what compares
the texts. -/
def rbeCheckBy {m : Type → Type} [Monad m]
    (anyMemberExceeds : GoMap String (Json F64) → m Bool)
    (same : List (String × Json F64) → Bool) (a : Assembler F64) (nowMs : Int) : m Verdict :=
  if a.disableRBE = false ∧ 0 < a.lastPubTime then
    if maxTimeOver a nowMs then pure .send
    else if minTimeLeft a nowMs then pure .defer
    else
      match a.lastValues, a.memberDeadbands.entries with
      | some lastValues, _ :: _ =>
        (fun exceeds => if exceeds then .send else .suppress) <$> anyMemberExceeds lastValues
      | _, _ => pure (if a.lastJSON.any same then .suppress else .send)
  else pure .send

def rbeCheck (a : Assembler F64) (assembled : GoMap String (Json F64)) (nowMs : Int) : Verdict :=
  rbeCheckBy (m := Id) (fun lastValues => anyMemberExceedsDeadband a lastValues assembled)
    (sameText (marshal assembled)) a nowMs

def message (a : Assembler F64) (assembled : GoMap String (Json F64)) (nowMs : Int) :
    BusMessage (PlcDataMessage F64) where
  subject := data gatewayModuleID (sanitizeForSubject a.config.deviceID)
    (sanitizeForSubject a.config.id)
  data :=
    { moduleID := gatewayModuleID
      deviceID := a.config.deviceID
      variableID := a.config.id
      value := .object (assembled.entries.map (fun e => (e.1, e.2)))
      timestamp := nowMs
      datatype := "udt"
      udtTemplate := some
        { name := a.template.name
          version := a.template.version
          members := a.template.members.map (udtMemberDefinition a.toUdtAssembler) }
      deadband := a.deadband
      memberDeadbands :=
        match a.memberDeadbands.entries with
        | [] => none
        | _ :: _ => some a.memberDeadbands
      historyEnabled := a.config.historyEnabled }

/-- The state after a publish, before the message is built. -/
def record (a : Assembler F64) (assembled : GoMap String (Json F64)) (nowMs : Int) :
    Assembler F64 :=
  { a with
    dirty := false
    lastJSON := some (marshal assembled)
    lastValues := some assembled
    lastPubTime := nowMs }

end Publish

/-! ## The system -/

/-- The assembler with its timers and with what it has published. -/
structure System (F64 : Type) where
  assembler : Assembler F64
  armed : List Nat := []
  started : Nat := 0
  nextTimer : Nat := 0
  published : List (BusMessage (PlcDataMessage F64)) := []

/-- The values that the model of a comparison is about. -/
def Scalar : Json F64 → Prop
  | .array _ | .object _ => False
  | _ => True

inductive UdtAction (F64 : Type) where
  | setMember (memberName : String) (value : { v : Json F64 // Scalar v })
  | expire (timer : Nat)
  | callback (nowMs : Int)

def setMember (s : System F64) (memberName : String) (value : Json F64) : System F64 :=
  { s with
    assembler :=
      { s.assembler with
        values := s.assembler.values.insert memberName value
        dirty := true
        timer := some s.nextTimer }
    armed := s.armed.filter (fun t => some t ≠ s.assembler.timer) ++ [s.nextTimer]
    nextTimer := s.nextTimer + 1 }

variable [GoFloat64 F64]

/-- What a callback does once the check is made. -/
def settle (s : System F64) (assembled : GoMap String (Json F64)) (nowMs : Int) :
    Verdict → System F64
  | .suppress => { s with assembler := { s.assembler with dirty := false } }
  | .defer =>
    { s with
      assembler := { s.assembler with timer := some s.nextTimer }
      armed := s.armed ++ [s.nextTimer]
      nextTimer := s.nextTimer + 1 }
  | .send =>
    { s with
      assembler := record s.assembler assembled nowMs
      published := s.published ++ [message s.assembler assembled nowMs] }

/-- A started callback runs. -/
def publish (s : System F64) (nowMs : Int) : System F64 :=
  if s.assembler.dirty = false then s
  else
    let assembled := assemble s.assembler.toUdtAssembler
    settle s assembled nowMs (rbeCheck s.assembler assembled nowMs)

def step (s : System F64) : UdtAction F64 → Option (System F64)
  | .setMember memberName value => some (setMember s memberName value.1)
  | .expire timer =>
    if timer ∈ s.armed then
      some { s with armed := s.armed.erase timer, started := s.started + 1 }
    else none
  | .callback nowMs =>
    if s.started = 0 then none else some (publish { s with started := s.started - 1 } nowMs)

/-! ## What holds in every state -/

section Assembled

omit [GoFloat64 F64]

/-- The value of a member in a message. -/
def published? (msg : BusMessage (PlcDataMessage F64)) (memberName : String) : Option (Json F64) :=
  msg.data.value.members.bind (·.lookup memberName)

/-- A message has the members that were assembled. -/
theorem published?_message (a : Assembler F64) (assembled : GoMap String (Json F64)) (nowMs : Int)
    (memberName : String) :
    published? (message a assembled nowMs) memberName = assembled.lookup memberName := by
  have hentries : (assembled.entries.map (fun e => (e.1, e.2))).map
      (fun f => (⟨f.1, f.2⟩ : Sigma fun _ : String => Json F64)) = assembled.entries := by
    simp [Function.comp_def]
  rw [published?, message, Json.members, Option.bind_some, hentries, AList.lookup_to_alist]
  rfl

/-- Of the values those are assembled whose member the template has. -/
theorem lookup_foldl_members (values : GoMap String (Json F64))
    (members : List GatewayUdtTemplateMemberConfig) (m : GoMap String (Json F64)) (memberName : String) :
    (members.foldl (fun assembled member =>
      match values.lookup member.name with
      | some val => assembled.insert member.name val
      | none => assembled) m).lookup memberName =
      if memberName ∈ members.map (·.name) then (values.lookup memberName).or (m.lookup memberName)
      else m.lookup memberName := by
  induction members generalizing m with
  | nil => simp
  | cons member members ih =>
    rw [List.foldl_cons, ih]
    by_cases hname : memberName = member.name
    · subst hname
      cases values.lookup member.name <;> simp
    · cases values.lookup member.name <;> simp [hname, AList.lookup_insert_ne hname]

theorem lookup_assemble (a : UdtAssembler F64) (memberName : String) :
    (assemble a).lookup memberName =
      if memberName ∈ a.template.members.map (·.name) then a.values.lookup memberName else none := by
  rw [assemble, lookup_foldl_members]
  simp

/-- The text determines the members. -/
theorem lookup_eq_of_marshal_eq {m m' : GoMap String (Json F64)} (h : marshal m = marshal m')
    (memberName : String) : m.lookup memberName = m'.lookup memberName := by
  have hsorted : ∀ m : GoMap String (Json F64),
      (marshal m).Perm (m.entries.map (fun e => (e.1, e.2))) :=
    fun m => List.perm_insertionSort _ _
  have hperm : (m.entries.map (fun e => (e.1, e.2))).Perm (m'.entries.map (fun e => (e.1, e.2))) := by
    apply (hsorted m).symm.trans
    rw [h]
    exact hsorted m'
  have hentries : m.entries.Perm m'.entries := by
    simpa [Function.comp_def] using
      hperm.map (fun f => (⟨f.1, f.2⟩ : Sigma fun _ : String => Json F64))
  exact AList.perm_lookup hentries

end Assembled

/-- A member follows what was published of it: within its deadband, where there
is one and both values are numbers, and unchanged otherwise. Within a negative
deadband is only the value itself. -/
def Follows (db : Option (DeadBandConfig ℚ)) (current published : Json ℚ) : Prop :=
  match db, toFloat64 current, toFloat64 published with
  | some db, some x, some y => |x - y| ≤ max db.value 0
  | _, _, _ => current = published

/-- Members without a value follow what was published without one. -/
def MemberFollows (db : Option (DeadBandConfig ℚ)) :
    (current published : Option (Json ℚ)) → Prop
  | some x, some y => Follows db x y
  | none, none => True
  | _, _ => False

theorem follows_refl (db : Option (DeadBandConfig ℚ)) (v : Json ℚ) : Follows db v v := by
  unfold Follows
  split
  next x y hx hy =>
    cases hx.symm.trans hy
    simp
  next => rfl

theorem memberFollows_refl (db : Option (DeadBandConfig ℚ)) (v : Option (Json ℚ)) :
    MemberFollows db v v := by
  cases v with
  | none => trivial
  | some v => exact follows_refl db v

theorem eq_of_interfaceEqual {v w : Json ℚ} (h : interfaceEqual v w = true) : v = w := by
  unfold interfaceEqual at h
  split at h
  · rfl
  · rw [eq_of_beq h]
  · rw [eq_of_beq (show (_ == _) = true from h)]
  · rw [eq_of_beq h]
  · cases h

theorem eq_of_sameText {fs gs : List (String × Json ℚ)} (h : sameText fs gs = true) : fs = gs := by
  induction fs generalizing gs with
  | nil =>
    cases gs with
    | nil => rfl
    | cons g gs => cases h
  | cons f fs ih =>
    cases gs with
    | nil => cases h
    | cons g gs =>
      simp only [sameText, Bool.and_eq_true] at h
      obtain ⟨⟨hname, hvalue⟩, hrest⟩ := h
      rw [ih hrest, Prod.ext (eq_of_beq hname) (eq_of_interfaceEqual hvalue)]

/-- No member that is checked needs a publish, so all follow. -/
theorem memberFollows_of_check {a : Assembler ℚ} {lastValues current : GoMap String (Json ℚ)}
    (h : anyMemberExceedsDeadband a lastValues current = false) (memberName : String) :
    MemberFollows (a.memberDeadbands.lookup memberName) (current.lookup memberName)
      (lastValues.lookup memberName) := by
  simp only [anyMemberExceedsDeadband, Bool.or_eq_false_iff, List.any_eq_false] at h
  obtain ⟨hcurrent, hremoved⟩ := h
  cases hnew : current.lookup memberName with
  | none =>
    cases hprev : lastValues.lookup memberName with
    | none => trivial
    | some prev =>
      have := hremoved ⟨memberName, prev⟩ ((mem_entries_iff _ _ _).mpr hprev)
      simp [hnew] at this
  | some new =>
    have hexceeds := hcurrent ⟨memberName, new⟩ ((mem_entries_iff _ _ _).mpr hnew)
    rw [exceedsDeadband, exceedsBy] at hexceeds
    cases hprev : lastValues.lookup memberName with
    | none =>
      rw [hprev] at hexceeds
      exact absurd rfl hexceeds
    | some prev =>
      simp only [hprev] at hexceeds
      show Follows _ new prev
      unfold Follows
      split
      next db x y hdb hx hy =>
        rw [hdb, hx, hy] at hexceeds
        have hwithin : ¬ decide (|x - y| > db.value) = true := hexceeds
        rw [decide_eq_true_eq, not_lt] at hwithin
        exact le_max_of_le_left hwithin
      next hnot =>
        split at hexceeds
        next db x y hdb hx hy => exact absurd hy (hnot db x y hdb hx)
        next =>
          have hequal : ¬ (!interfaceEqual new prev) = true := hexceeds
          exact eq_of_interfaceEqual (by simpa using hequal)

/-- A publish is suppressed by the deadbands or by the text. -/
theorem rbeCheck_suppress {a : Assembler ℚ} {assembled : GoMap String (Json ℚ)} {nowMs : Int}
    (h : rbeCheck a assembled nowMs = .suppress) :
    (∃ lastValues, a.lastValues = some lastValues ∧
      anyMemberExceedsDeadband a lastValues assembled = false) ∨
    ∃ text, a.lastJSON = some text ∧ sameText (marshal assembled) text = true := by
  unfold rbeCheck rbeCheckBy at h
  split at h
  · split at h
    · cases h
    · split at h
      · cases h
      · split at h
        next lastValues _ _ hlast _ =>
          have hverdict : (if anyMemberExceedsDeadband a lastValues assembled then Verdict.send
            else .suppress) = .suppress := h
          split at hverdict
          · cases hverdict
          next hany => exact .inl ⟨lastValues, hlast, by simpa using hany⟩
        next =>
          have hverdict : (if a.lastJSON.any (sameText (marshal assembled)) then Verdict.suppress
            else .send) = .suppress := h
          split at hverdict
          next hany =>
            cases hlast : a.lastJSON with
            | none => simp [hlast] at hany
            | some text => exact .inr ⟨text, rfl, by simpa [hlast] using hany⟩
          · cases hverdict
  · cases h

/-- The state that the assembler keeps is that of the last message, and the
members follow it unless a publish is due. -/
structure Keeps (s : System ℚ) : Prop where
  last : ∀ msg, s.published.getLast? = some msg → ∃ m, s.assembler.lastValues = some m ∧
    ∀ memberName, published? msg memberName = m.lookup memberName
  text : ∀ text, s.assembler.lastJSON = some text →
    ∃ m, s.assembler.lastValues = some m ∧ text = marshal m
  followed : s.assembler.dirty = false → ∀ m, s.assembler.lastValues = some m → ∀ memberName,
    MemberFollows (s.assembler.memberDeadbands.lookup memberName)
      ((assemble s.assembler.toUdtAssembler).lookup memberName) (m.lookup memberName)

/-- A publish that is due will be run by some callback. -/
structure Invariant (s : System ℚ) : Prop extends Keeps s where
  pending : s.assembler.dirty = true → s.armed ≠ [] ∨ 0 < s.started

/-- A suppressed publish leaves only members that follow. -/
theorem follows_of_suppress {s : System ℚ} (h : Keeps s) {nowMs : Int}
    (hcheck : rbeCheck s.assembler (assemble s.assembler.toUdtAssembler) nowMs = .suppress)
    {m : GoMap String (Json ℚ)} (hm : s.assembler.lastValues = some m) (memberName : String) :
    MemberFollows (s.assembler.memberDeadbands.lookup memberName)
      ((assemble s.assembler.toUdtAssembler).lookup memberName) (m.lookup memberName) := by
  rcases rbeCheck_suppress hcheck with ⟨lastValues, hlast, hany⟩ | ⟨text, htext, hsame⟩
  · cases hm.symm.trans hlast
    exact memberFollows_of_check hany memberName
  · obtain ⟨m', hm', rfl⟩ := h.text text htext
    cases hm.symm.trans hm'
    rw [lookup_eq_of_marshal_eq (eq_of_sameText hsame) memberName]
    exact memberFollows_refl _ _

/-- A callback leaves nothing due, or arms the timer of another one. -/
theorem publish_invariant {s : System ℚ} (h : Keeps s) (nowMs : Int) :
    Invariant (publish s nowMs) := by
  by_cases hdirty : s.assembler.dirty = false
  · rw [publish, if_pos hdirty]
    exact { h with pending := by simp [hdirty] }
  · cases hcheck : rbeCheck s.assembler (assemble s.assembler.toUdtAssembler) nowMs with
    | suppress =>
      simp only [publish, if_neg hdirty, hcheck, settle]
      exact
        { last := h.last
          text := h.text
          followed := fun _ m hm memberName => follows_of_suppress h hcheck hm memberName
          pending := by simp }
    | defer =>
      simp only [publish, if_neg hdirty, hcheck, settle]
      exact
        { last := h.last
          text := h.text
          followed := fun hclean => absurd hclean hdirty
          pending := by simp }
    | send =>
      simp only [publish, if_neg hdirty, hcheck, settle]
      exact
        { last := by
            intro msg hmsg
            simp only [List.getLast?_append, List.getLast?_singleton, Option.some_or,
              Option.some.injEq] at hmsg
            subst hmsg
            exact ⟨_, rfl, published?_message _ _ _⟩
          text := by
            intro text htext
            cases htext
            exact ⟨_, rfl, rfl⟩
          followed := by
            intro _ m hm memberName
            cases hm
            exact memberFollows_refl _ _
          pending := by simp [record] }

theorem setMember_invariant {s : System ℚ} (h : Invariant s) (memberName : String)
    (value : Json ℚ) : Invariant (setMember s memberName value) where
  last := h.last
  text := h.text
  followed := by simp [setMember]
  pending := by simp [setMember]

/-- Each step leaves the assembler with what has come in. -/
theorem step_invariant (s : System ℚ) (a : UdtAction ℚ) (t : System ℚ) (h : Invariant s)
    (hstep : step s a = some t) : Invariant t := by
  cases a with
  | setMember memberName value =>
    cases hstep
    exact setMember_invariant h memberName value.1
  | expire timer =>
    simp only [step] at hstep
    split at hstep
    · cases hstep
      exact
        { last := h.last
          text := h.text
          followed := h.followed
          pending := by simp }
    · cases hstep
  | callback nowMs =>
    simp only [step] at hstep
    split at hstep
    · cases hstep
    · cases hstep
      -- the callback that runs is not one of those still to come
      have hkeeps : Keeps { s with started := s.started - 1 } :=
        { last := h.last
          text := h.text
          followed := h.followed }
      exact publish_invariant hkeeps nowMs

theorem new_invariant (a : Assembler ℚ) (hvalues : a.lastValues = none) (hjson : a.lastJSON = none)
    (hdirty : a.dirty = false) : Invariant { assembler := a } where
  last := by simp
  text := by simp [hjson]
  followed := by simp [hvalues]
  pending := by simp [hdirty]

/-- In every state that an assembler reaches: if it is dirty, a timer is armed
or a callback has started; if not, every member of the template follows the
last message. -/
theorem assembler_follows (config : GatewayUdtVariableConfig) (template : GatewayUdtTemplateConfig)
    (deadband : Option (DeadBandConfig ℚ)) (disableRBE : Bool)
    (memberDeadbands : GoMap String (DeadBandConfig ℚ)) (actions : List (UdtAction ℚ))
    (s : System ℚ)
    (hrun : Runs.run step
      { assembler := new config template deadband disableRBE memberDeadbands } actions = some s) :
    (s.assembler.dirty = true → s.armed ≠ [] ∨ 0 < s.started) ∧
    (s.assembler.dirty = false → ∀ msg, s.published.getLast? = some msg →
      ∀ member ∈ s.assembler.template.members,
        MemberFollows (s.assembler.memberDeadbands.lookup member.name)
          (s.assembler.values.lookup member.name) (published? msg member.name)) := by
  have hinv : Invariant s := Runs.run_preserves step_invariant (new_invariant _ rfl rfl rfl) hrun
  refine ⟨hinv.pending, ?_⟩
  intro hclean msg hmsg member hmember
  obtain ⟨m, hm, hpublished⟩ := hinv.last msg hmsg
  have hfollows := hinv.followed hclean m hm member.name
  have hname : member.name ∈ s.assembler.template.members.map (·.name) :=
    List.mem_map_of_mem hmember
  rwa [lookup_assemble, if_pos hname, ← hpublished] at hfollows

/-- A pump with a deadband on its speed, published at most every 100 ms. -/
def pump : Assembler ℚ :=
  new
    { id := "pump1", deviceID := "plc1", templateName := "pump", memberTags := ∅,
      memberCipTypes := ∅ }
    { name := "pump"
      version := "1.0"
      members :=
        [{ name := "speed", datatype := "number" }, { name := "mode", datatype := "string" }] }
    (some ⟨0, 100, 0⟩) false (AList.singleton "speed" ⟨2, 0, 0⟩)

/-- The first timer has expired when the second value stops it; the third change
is too early and is deferred, and then lies within the deadband. -/
def pumpRun : List (UdtAction ℚ) :=
  [.setMember "speed" ⟨.number 1, trivial⟩, .expire 0, .setMember "speed" ⟨.number 3, trivial⟩,
    .callback 1000, .expire 1, .callback 1001, .setMember "speed" ⟨.number 4, trivial⟩, .expire 2,
    .callback 1050, .expire 3, .callback 1100]

theorem pump_follows : ∃ s : System ℚ, Runs.run step { assembler := pump } pumpRun = some s ∧
    s.assembler.dirty = false ∧ s.published.length = 1 ∧
    ∀ msg, s.published.getLast? = some msg → ∀ member ∈ s.assembler.template.members,
      MemberFollows (s.assembler.memberDeadbands.lookup member.name)
        (s.assembler.values.lookup member.name) (published? msg member.name) := by
  have hend : (Runs.run step { assembler := pump } pumpRun).any
      (fun s => s.assembler.dirty = false ∧ s.published.length = 1) = true := by
    decide +kernel
  cases hrun : Runs.run step { assembler := pump } pumpRun with
  | none => simp [hrun] at hend
  | some s =>
    simp only [hrun, Option.any_some, decide_eq_true_eq] at hend
    exact ⟨s, rfl, hend.1, hend.2, (assembler_follows _ _ _ _ _ _ s hrun).2 hend.1⟩

end UdtAssembly
