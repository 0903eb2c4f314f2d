import Tentacle.ManifestApply
import Tentacle.Runs

/-!
# The feedback filter of the configuration repository

A change of the configuration is to be written to the repository unless it came from there. Who
made a change is not part of it: `Apply` puts the configuration and then the source, into another
bucket, and the debounce loop looks the source up when it comes to the change. A source counts as
the repository for ten seconds.
-/

namespace GitopsFeedback

open JsonCodec Manifest Runs

/-- A write to a bucket of the configuration. The source is known to who writes. -/
structure Write where
  source : String
  bucket : String
  key : String
  deriving DecidableEq, Repr

def watchBuckets : List String := ["gateway_config", "desired_services", "tentacle_config"]

def metaKey (w : Write) : String := w.bucket ++ "." ++ w.key

/-- The capacity of the channel of changes. -/
def changesCap : Nat := 100

/-- The clock is in nanoseconds. `applying` are the calls of `Apply` between their two puts, and
`notifications` the updates of the watched buckets that the callback has not had. What the loop has
had is in `decided`, with whether it made the loop pending, and what does not reach it in
`missed`. -/
structure State where
  now : Int := 0
  configMetadata : StrMap SourceMetadata := ∅
  applying : List Write := []
  notifications : List Write := []
  changes : List Write := []
  pending : Bool := false
  decided : List (Write × Bool) := []
  missed : List Write := []
  metaPuts : List (String × SourceMetadata) := []

/-- `Apply` puts a resource and later its metadata; another source may write without it. The
callback of the watch gets an update, the loop receives a change, its timer expires, and time
passes. -/
inductive Action where
  | applyPut (w : Write)
  | metaPut (i : Nat)
  | put (w : Write)
  | notify (i : Nat)
  | take
  | fire
  | wait (d : Nat)
  deriving DecidableEq, Repr

/-- `time.Now().UnixMilli()`. -/
def unixMilli (now : Int) : Int := now / 1000000

def isGitOpsSource (s : State) (w : Write) : Bool :=
  match s.configMetadata[metaKey w]? with
  | none => false
  | some data =>
    data.source = "gitops" && decide (s.now - data.timestamp * 1000000 < 10 * 1000000000)

/-- The setting of the module itself. -/
def isOwnSetting (moduleID : String) (w : Write) : Bool :=
  w.bucket = "tentacle_config" && (moduleID ++ ".").toList.isPrefixOf w.key.toList

/-- The callback of the watch. Of a full channel the oldest change is dropped. -/
def enqueue (moduleID : String) (s : State) (w : Write) : State :=
  if isOwnSetting moduleID w then { s with missed := s.missed ++ [w] }
  else if s.changes.length < changesCap then { s with changes := s.changes ++ [w] }
  else { s with changes := s.changes.tail ++ [w], missed := s.missed ++ s.changes.take 1 }

def notifyWatch (s : State) (w : Write) : State :=
  if w.bucket ∈ watchBuckets then { s with notifications := s.notifications ++ [w] } else s

def writeSourceMetadata (s : State) (w : Write) : State :=
  let data : SourceMetadata := ⟨w.source, unixMilli s.now⟩
  { s with
    configMetadata := s.configMetadata.insert (metaKey w) data
    metaPuts := s.metaPuts ++ [(metaKey w, data)] }

/-- The case of the loop for a change. -/
def receive (s : State) (w : Write) : State :=
  if isGitOpsSource s w then { s with decided := s.decided ++ [(w, false)] }
  else { s with pending := true, decided := s.decided ++ [(w, true)] }

def step (moduleID : String) (s : State) : Action → Option State
  | .applyPut w => some (notifyWatch { s with applying := s.applying ++ [w] } w)
  | .metaPut i => s.applying[i]?.map fun w =>
      writeSourceMetadata { s with applying := s.applying.eraseIdx i } w
  | .put w => if w.source = "gitops" then none else some (notifyWatch s w)
  | .notify i => s.notifications[i]?.map fun w =>
      enqueue moduleID { s with notifications := s.notifications.eraseIdx i } w
  | .take =>
    match s.changes with
    | [] => none
    | w :: changes => some (receive { s with changes := changes } w)
  | .fire => if s.pending then some { s with pending := false } else none
  | .wait d => some { s with now := s.now + d }

/-- The module starts with the metadata of earlier writes and with what the watch has for it. -/
def start (now : Int) (metaPuts : List (String × SourceMetadata)) (notifications : List Write) :
    State where
  now := now
  configMetadata := writeAll ∅ metaPuts
  notifications := notifications
  metaPuts := metaPuts

/-- A change makes the loop pending if and only if it is not from the repository. -/
structure Filtered (s : State) : Prop where
  decided : ∀ d ∈ s.decided, d.2 = true ↔ d.1.source ≠ "gitops"
  missed : ∀ w ∈ s.missed, w.source = "gitops"

/-! ## The order that the filter needs -/

/-- The last metadata that was put for the key is from the repository and is not ten seconds
old. -/
def MarkedOwn (s : State) (w : Write) : Prop :=
  ∃ data ∈ lastWrite s.metaPuts (metaKey w),
    data.source = "gitops" ∧ s.now < data.timestamp * 1000000 + 10 * 1000000000

instance (s : State) (w : Write) : Decidable (MarkedOwn s w) :=
  inferInstanceAs (Decidable (∃ data ∈ lastWrite s.metaPuts (metaKey w),
    data.source = "gitops" ∧ s.now < data.timestamp * 1000000 + 10 * 1000000000))

/-- The loop comes to a change of the repository while its key is marked so, and to any other
while it is not; and what does not get to the loop is from the repository. -/
def Timely (moduleID : String) (s : State) : Action → Prop
  | .take => ∀ w ∈ s.changes.head?, w.source = "gitops" ↔ MarkedOwn s w
  | .notify i => ∀ w ∈ s.notifications[i]?,
      if isOwnSetting moduleID w then w.source = "gitops"
      else changesCap ≤ s.changes.length → ∀ oldest ∈ s.changes.head?, oldest.source = "gitops"
  | _ => True

instance (moduleID : String) (s : State) : (a : Action) → Decidable (Timely moduleID s a)
  | .take => inferInstanceAs (Decidable
      (∀ w ∈ s.changes.head?, w.source = "gitops" ↔ MarkedOwn s w))
  | .notify i => inferInstanceAs (Decidable (∀ w ∈ s.notifications[i]?,
      if isOwnSetting moduleID w then w.source = "gitops"
      else changesCap ≤ s.changes.length →
        ∀ oldest ∈ s.changes.head?, oldest.source = "gitops"))
  | .applyPut _ | .metaPut _ | .put _ | .fire | .wait _ => isTrue trivial

/-- The bucket of the metadata has what was put there. -/
def Recorded (s : State) : Prop := s.configMetadata = writeAll ∅ s.metaPuts

/-- A write is taken for one of the module itself exactly if its source is recorded as such. -/
theorem isGitOpsSource_iff {s : State} (h : Recorded s) (w : Write) :
    isGitOpsSource s w = true ↔ MarkedOwn s w := by
  have hlookup : s.configMetadata[metaKey w]? = lastWrite s.metaPuts (metaKey w) := by
    rw [h, getElem?_writeAll]
    simp
  rw [isGitOpsSource, MarkedOwn, hlookup]
  cases lastWrite s.metaPuts (metaKey w) with
  | none => simp
  | some data =>
    simp only [Bool.and_eq_true, decide_eq_true_eq, Option.mem_def, Option.some.injEq,
      exists_eq_left']
    exact and_congr_right fun _ => by omega

section Steps

variable {moduleID : String} {s t : State}

theorem notifyWatch_eq (s : State) (w : Write) :
    ∃ notifications, notifyWatch s w = { s with notifications := notifications } := by
  unfold notifyWatch
  split
  next => exact ⟨_, rfl⟩
  next => exact ⟨_, rfl⟩

/-- What a step does to the state that the invariant and the property are about. -/
theorem step_cases {a : Action} (h : step moduleID s a = some t) :
    (∃ w, (t.configMetadata = s.configMetadata.insert (metaKey w) ⟨w.source, unixMilli s.now⟩ ∧
        t.metaPuts = s.metaPuts ++ [(metaKey w, ⟨w.source, unixMilli s.now⟩)]) ∧
      t.decided = s.decided ∧ t.missed = s.missed ∧ Timely moduleID s a) ∨
    (t.configMetadata = s.configMetadata ∧ t.metaPuts = s.metaPuts) ∧
      ((t.decided = s.decided ∧ t.missed = s.missed ∧ Timely moduleID s a) ∨
       (∃ i w, a = .notify i ∧ s.notifications[i]? = some w ∧ t.decided = s.decided ∧
          t.missed = (enqueue moduleID s w).missed) ∨
       (∃ w rest, a = .take ∧ s.changes = w :: rest ∧ t.missed = s.missed ∧
          t.decided = s.decided ++ [(w, !isGitOpsSource s w)])) := by
  cases a with
  | applyPut w =>
    cases h
    obtain ⟨n, hn⟩ := notifyWatch_eq { s with applying := s.applying ++ [w] } w
    rw [hn]
    exact .inr ⟨⟨rfl, rfl⟩, .inl ⟨rfl, rfl, trivial⟩⟩
  | metaPut i =>
    obtain ⟨w, -, rfl⟩ := Option.map_eq_some_iff.mp h
    exact .inl ⟨w, ⟨rfl, rfl⟩, rfl, rfl, trivial⟩
  | put w =>
    simp only [step] at h
    split at h
    next => cases h
    next =>
      cases h
      obtain ⟨n, hn⟩ := notifyWatch_eq s w
      rw [hn]
      exact .inr ⟨⟨rfl, rfl⟩, .inl ⟨rfl, rfl, trivial⟩⟩
  | notify i =>
    obtain ⟨w, hw, rfl⟩ := Option.map_eq_some_iff.mp h
    refine .inr ⟨?_, .inr (.inl ⟨i, w, rfl, hw, ?_⟩)⟩
    · unfold enqueue
      split_ifs <;> exact ⟨rfl, rfl⟩
    · unfold enqueue
      split_ifs <;> exact ⟨rfl, rfl⟩
  | take =>
    simp only [step] at h
    split at h
    next => cases h
    next w rest hchanges =>
      cases h
      refine .inr ⟨?_, .inr (.inr ⟨w, rest, rfl, hchanges, ?_⟩)⟩
      · unfold receive
        split <;> exact ⟨rfl, rfl⟩
      · unfold receive
        change (if isGitOpsSource s w then _ else _ : State).missed = _ ∧
          (if isGitOpsSource s w then _ else _ : State).decided = _
        cases isGitOpsSource s w with
        | true => exact ⟨rfl, rfl⟩
        | false => exact ⟨rfl, rfl⟩
  | fire =>
    simp only [step] at h
    split at h
    next =>
      cases h
      exact .inr ⟨⟨rfl, rfl⟩, .inl ⟨rfl, rfl, trivial⟩⟩
    next => cases h
  | wait d =>
    cases h
    exact .inr ⟨⟨rfl, rfl⟩, .inl ⟨rfl, rfl, trivial⟩⟩

theorem recorded_step {a : Action} (hs : Recorded s) (h : step moduleID s a = some t) :
    Recorded t := by
  obtain ⟨w, ⟨hmeta, hputs⟩, -⟩ | ⟨⟨hmeta, hputs⟩, -⟩ := step_cases h
  · rw [Recorded, hmeta, hputs, writeAll_append, ← hs]
    rfl
  · rw [Recorded, hmeta, hputs]
    exact hs

theorem recorded_start (now : Int) (metaPuts : List (String × SourceMetadata))
    (notifications : List Write) : Recorded (start now metaPuts notifications) := rfl

/-- What no decision and no loss is added to stays filtered. -/
theorem filtered_congr (hdecided : t.decided = s.decided) (hmissed : t.missed = s.missed) :
    Filtered t ↔ Filtered s := by
  constructor
  · rintro ⟨hd, hm⟩
    rw [hdecided] at hd
    rw [hmissed] at hm
    exact ⟨hd, hm⟩
  · rintro ⟨hd, hm⟩
    rw [← hdecided] at hd
    rw [← hmissed] at hm
    exact ⟨hd, hm⟩

/-- Notifications that are lost must have been those of the module. -/
theorem filtered_missed {ws : List Write} (hdecided : t.decided = s.decided)
    (hmissed : t.missed = s.missed ++ ws) :
    Filtered t ↔ Filtered s ∧ ∀ w ∈ ws, w.source = "gitops" := by
  constructor
  · rintro ⟨hd, hm⟩
    rw [hdecided] at hd
    rw [hmissed, List.forall_mem_append] at hm
    exact ⟨⟨hd, hm.1⟩, hm.2⟩
  · rintro ⟨⟨hd, hm⟩, hws⟩
    refine ⟨?_, ?_⟩
    · rw [hdecided]
      exact hd
    · rw [hmissed, List.forall_mem_append]
      exact ⟨hm, hws⟩

/-- A full channel loses its oldest notification, which then must have been one of the module. -/
theorem filtered_enqueue {w : Write} (hdecided : t.decided = s.decided)
    (hmissed : t.missed = (enqueue moduleID s w).missed) :
    Filtered t ↔ Filtered s ∧
      if isOwnSetting moduleID w then w.source = "gitops"
      else changesCap ≤ s.changes.length →
        ∀ oldest ∈ s.changes.head?, oldest.source = "gitops" := by
  unfold enqueue at hmissed
  split_ifs at hmissed with hown hroom
  · rw [filtered_missed hdecided hmissed, if_pos hown]
    simp
  · rw [filtered_congr hdecided hmissed, if_neg hown]
    simp [Nat.not_le.mpr hroom]
  · rw [filtered_missed hdecided hmissed, if_neg hown, List.take_one]
    simp [Nat.not_lt.mp hroom]

/-- A decision is right exactly if it skips what the module has written. -/
theorem filtered_decided {w : Write} {own : Bool} (hmissed : t.missed = s.missed)
    (hdecided : t.decided = s.decided ++ [(w, !own)]) :
    Filtered t ↔ Filtered s ∧ (w.source = "gitops" ↔ own = true) := by
  have hlast : (∀ d ∈ [(w, !own)], d.2 = true ↔ d.1.source ≠ "gitops") ↔
      (w.source = "gitops" ↔ own = true) := by
    cases own with
    | true => simp
    | false => simp
  constructor
  · rintro ⟨hd, hm⟩
    rw [hdecided, List.forall_mem_append] at hd
    rw [hmissed] at hm
    exact ⟨⟨hd.1, hm⟩, hlast.mp hd.2⟩
  · rintro ⟨⟨hd, hm⟩, hown⟩
    refine ⟨?_, ?_⟩
    · rw [hdecided, List.forall_mem_append]
      exact ⟨hd, hlast.mpr hown⟩
    · rw [hmissed]
      exact hm

/-- A step keeps the filter right exactly if it meets the condition. -/
theorem filtered_step_iff {a : Action} (hs : Recorded s) (h : step moduleID s a = some t) :
    Filtered t ↔ Filtered s ∧ Timely moduleID s a := by
  obtain ⟨w, -, hd, hm, htimely⟩ | ⟨-, ⟨hd, hm, htimely⟩ | ⟨i, w, rfl, hw, hd, hm⟩ |
    ⟨w, rest, rfl, hchanges, hm, hd⟩⟩ := step_cases h
  · rw [filtered_congr hd hm]
    exact (and_iff_left htimely).symm
  · rw [filtered_congr hd hm]
    exact (and_iff_left htimely).symm
  · rw [filtered_enqueue hd hm]
    simp only [Timely, hw, Option.mem_def, Option.some.injEq, forall_eq']
  · rw [filtered_decided hm hd, isGitOpsSource_iff hs]
    simp only [Timely, hchanges, List.head?_cons, Option.mem_def, Option.some.injEq, forall_eq']

end Steps

/-- In every run exactly the changes that are not from the repository make the loop pending if and
only if each lookup comes in time. -/
theorem run_filtered_iff (moduleID : String) (now : Int)
    (metaPuts : List (String × SourceMetadata)) (notifications : List Write)
    (actions : List Action) (t : State)
    (hrun : run (step moduleID) (start now metaPuts notifications) actions = some t) :
    Filtered t ↔ Meets (step moduleID) (Timely moduleID) (start now metaPuts notifications)
      actions := by
  have hstart : Filtered (start now metaPuts notifications) := ⟨nofun, nofun⟩
  rw [run_iff_meets (fun _ _ _ => recorded_step) (fun _ _ _ => filtered_step_iff)
    (recorded_start now metaPuts notifications) hrun]
  exact and_iff_right hstart

/-- The repository is applied, and the change is looked up after the metadata is put. -/
def appliedRun : List Action :=
  [.applyPut ⟨"gitops", "gateway_config", "gateway"⟩, .metaPut 0, .notify 0, .take]

theorem run_filtered_appliedRun :
    ∃ t, run (step "gitops") (start 0 [] []) appliedRun = some t ∧ Filtered t := by
  refine ⟨_, rfl, (run_filtered_iff "gitops" 0 [] [] appliedRun _ rfl).mpr ?_⟩
  decide +kernel

/-- The user changes the gateway five seconds after the repository was applied. -/
def editedRun : List Action :=
  appliedRun ++ [.wait 5000000000, .put ⟨"gui", "gateway_config", "gateway"⟩, .notify 0, .take]

theorem editedRun_not_filtered :
    ¬∀ (moduleID : String) (now : Int) (metaPuts : List (String × SourceMetadata))
      (notifications : List Write) (actions : List Action) (t : State),
      run (step moduleID) (start now metaPuts notifications) actions = some t → Filtered t := by
  intro h
  have hfiltered := h "gitops" 0 [] [] editedRun _ rfl
  have hgui := hfiltered.decided (⟨"gui", "gateway_config", "gateway"⟩, false) (by decide +kernel)
  exact absurd (hgui.mpr (by decide)) (by decide)

end GitopsFeedback
