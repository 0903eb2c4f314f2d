import Mathlib.Data.List.Nodup
import Tentacle.GatewaySystem

/-!
# The subscriptions of the gateway to the scanners

`ApplyConfig` is to stop the current subscriptions and to make those of the new
config. It makes them, but those to the scanners it does not stop, so a run
collects the subscriptions of all configs that it has applied. They are the right
ones exactly when all configs but the last had none, and the last has no two
devices with one subject.
-/

namespace GatewaySubscriptions

open GoValues Subjects GatewayVariables GatewayRouting GatewaySystem

variable {F64 : Type}

/-- The config needs the values of the device from its scanner. -/
structure Needs (config : GatewayConfig F64) (deviceID : String)
    (device : GatewayDeviceConfig F64) : Prop where
  known : config.devices.lookup deviceID = some device
  used : usesDevice config deviceID = true
  scanned : device.protocol ≠ gatewayModuleID

/-- A subject that the config needs: that of the values or that of the batches of
a device. -/
def Needed (config : GatewayConfig F64) (subject : String) : Prop :=
  ∃ deviceID device, Needs config deviceID device ∧
    ∃ batch, subject = patternOf batch device.protocol (sanitizeForSubject deviceID)

/-- There is one subscription for each subject that the config needs, and no other. -/
structure Exact (s : GatewayState F64) : Prop where
  once : ∀ subject, Needed s.config subject → (s.subs.map (·.subject)).count subject = 1
  none : ∀ subject, ¬ Needed s.config subject → (s.subs.map (·.subject)).count subject = 0

/-- The config needs a device that the scanner's messages for this one are for. -/
def CurrentDevice (config : GatewayConfig F64) (scanner : ScannerModule) (deviceID : String) :
    Prop :=
  ∃ deviceID' device, Needs config deviceID' device ∧ device.protocol = scanner.protocol ∧
    sanitizeForSubject deviceID' = sanitizeForSubject deviceID

/-- Each message of a current device is handled once, and no other message is; no
protocol of the config is a wildcard. -/
def HandledOnce (s : GatewayState F64) : Prop :=
  (∀ deviceID device, Needs s.config deviceID device → Plain device.protocol) →
    ∀ batch scanner deviceID tag,
      (CurrentDevice s.config scanner deviceID →
        (handlers s.subs (subjectOf batch scanner deviceID tag)).length = 1) ∧
      (¬ CurrentDevice s.config scanner deviceID →
        (handlers s.subs (subjectOf batch scanner deviceID tag)).length = 0)

/-- No two devices that the config needs have the same subjects. -/
def DistinctDevices (config : GatewayConfig F64) : Prop :=
  ∀ deviceID device deviceID' device', Needs config deviceID device →
    Needs config deviceID' device' → device.protocol = device'.protocol →
      sanitizeForSubject deviceID = sanitizeForSubject deviceID' → deviceID = deviceID'

/-- The configs that a run applies; a cleared one has empty maps. -/
def configs (acts : List (GatewayAction F64)) : List (GatewayConfig F64) :=
  acts.filterMap fun
    | .applyConfig config => some (config.getD noConfig)
    | .deliver .. => none

/-- A pattern gives back its protocol and the token of its device. -/
theorem patternOf_injective {batch batch' : Bool} {protocol protocol' : String}
    {deviceID deviceID' : String}
    (h : patternOf batch protocol (sanitizeForSubject deviceID) =
      patternOf batch' protocol' (sanitizeForSubject deviceID')) :
    batch = batch' ∧ protocol = protocol' ∧
      sanitizeForSubject deviceID = sanitizeForSubject deviceID' := by
  have hdot := dot_not_mem_sanitize deviceID
  have hdot' := dot_not_mem_sanitize deviceID'
  -- the batch subjects end in a device, the others in a wildcard, which is none
  have hgreater : ∀ d, ['>'] ≠ (sanitizeForSubject d).toList := fun d => (plain_sanitize d).greater.symm
  have hdevice : ∀ {p p' : String}, deviceData p (sanitizeForSubject deviceID) =
      deviceData p' (sanitizeForSubject deviceID') →
      p = p' ∧ sanitizeForSubject deviceID = sanitizeForSubject deviceID' := by
    intro p p' hd
    have hchars : (p ++ ".data").toList ++ '.' :: (sanitizeForSubject deviceID).toList =
        (p' ++ ".data").toList ++ '.' :: (sanitizeForSubject deviceID').toList := by
      simpa [deviceData] using congrArg String.toList hd
    obtain ⟨hp, hd⟩ := append_dot_injective hdot hdot' hchars
    exact ⟨by simpa [← String.toList_inj] using hp, String.toList_injective hd⟩
  have hwild : ∀ p d, (deviceWildcard p d).toList = (deviceData p d).toList ++ '.' :: ['>'] := by
    intro p d
    simp [deviceWildcard, deviceData]
  have hbatch : ∀ p d, (deviceData p d).toList = (p ++ ".data").toList ++ '.' :: d.toList := by
    intro p d
    simp [deviceData]
  have hlist := congrArg String.toList h
  cases batch with
  | false =>
    cases batch' with
    | false =>
      simp only [patternOf, Bool.false_eq_true, if_false, hwild] at hlist
      obtain ⟨hfront, -⟩ := append_dot_injective (by decide) (by decide) hlist
      exact ⟨rfl, hdevice (String.toList_injective hfront)⟩
    | true =>
      simp only [patternOf, Bool.false_eq_true, if_false, if_true, hwild] at hlist
      rw [hbatch _ (sanitizeForSubject deviceID')] at hlist
      exact absurd (append_dot_injective (by decide) hdot' hlist).2 (hgreater _)
  | true =>
    cases batch' with
    | false =>
      simp only [patternOf, Bool.false_eq_true, if_false, if_true, hwild] at hlist
      rw [hbatch _ (sanitizeForSubject deviceID)] at hlist
      exact absurd (append_dot_injective hdot (by decide) hlist).2.symm (hgreater _)
    | true => exact ⟨rfl, hdevice h⟩

/-! ## One config -/

/-- The gateway subscribes to a subject exactly if a variable needs it. -/
theorem mem_subjects_iff (config : GatewayConfig F64) (subject : String) :
    subject ∈ (subscribeToScanners config).map (·.subject) ↔ Needed config subject := by
  simp only [List.mem_map, mem_subscribeToScanners_iff]
  constructor
  · rintro ⟨sub, ⟨deviceID, device, hknown, hused, hscanned, hsub⟩, rfl⟩
    refine ⟨deviceID, device, ⟨hknown, hused, hscanned⟩, ?_⟩
    simp only [subscribeToDevice, List.mem_cons, List.not_mem_nil, or_false] at hsub
    obtain rfl | rfl := hsub
    · exact ⟨false, rfl⟩
    · exact ⟨true, rfl⟩
  · rintro ⟨deviceID, device, ⟨hknown, hused, hscanned⟩, batch, rfl⟩
    refine ⟨⟨patternOf batch device.protocol (sanitizeForSubject deviceID), device.protocol,
      deviceID, batch⟩, ⟨deviceID, device, hknown, hused, hscanned, ?_⟩, rfl⟩
    cases batch with
    | false => simp [subscribeToDevice, patternOf]
    | true => simp [subscribeToDevice, patternOf]

/-- It subscribes to nothing exactly if no device has a variable. -/
theorem subscribeToScanners_eq_nil_iff (config : GatewayConfig F64) :
    subscribeToScanners config = [] ↔ ∀ deviceID device, ¬ Needs config deviceID device := by
  rw [← List.map_eq_nil_iff (f := (·.subject)), List.eq_nil_iff_forall_not_mem]
  simp only [mem_subjects_iff]
  constructor
  · intro h deviceID device hneeds
    exact h _ ⟨deviceID, device, hneeds, true, rfl⟩
  · rintro h subject ⟨deviceID, device, hneeds, -⟩
    exact h deviceID device hneeds

/-- A config makes each subscription once if its devices can be told apart. -/
theorem nodup_subjects_iff (config : GatewayConfig F64) :
    ((subscribeToScanners config).map (·.subject)).Nodup ↔ DistinctDevices config := by
  have hsubjects : ∀ e : Sigma fun _ : String => GatewayDeviceConfig F64,
      (subscribeToDevice e.1 e.2).map (·.subject) =
        [false, true].map fun batch =>
          patternOf batch e.2.protocol (sanitizeForSubject e.1) := fun e => rfl
  rw [subscribeToScanners, List.map_flatMap, List.nodup_flatMap]
  simp only [hsubjects]
  constructor
  · rintro ⟨-, hpairs⟩ deviceID device deviceID' device' h h' hprotocol hdevice
    by_contra hne
    have hmem : ∀ {d v}, Needs config d v → (⟨d, v⟩ : Sigma fun _ : String => _) ∈
        config.devices.entries.filter
          (fun e => usesDevice config e.1 && decide (e.2.protocol ≠ gatewayModuleID)) :=
      fun hn => List.mem_filter.mpr
        ⟨(mem_entries_iff _ _ _).mpr hn.known, by simp [hn.used, hn.scanned]⟩
    have hsymm : Std.Symm (Function.onFun List.Disjoint
        fun e : Sigma fun _ : String => GatewayDeviceConfig F64 =>
          [false, true].map fun batch => patternOf batch e.2.protocol (sanitizeForSubject e.1)) :=
      ⟨fun _ _ h _ ha hb => h hb ha⟩
    have hdisjoint := hpairs.forall (hmem h) (hmem h') (fun he => hne (congrArg Sigma.fst he))
    apply hdisjoint (List.mem_map_of_mem (a := true) (by decide))
    rw [hprotocol, hdevice]
    exact List.mem_map_of_mem (by decide)
  · intro hdistinct
    refine ⟨fun e _ => List.Nodup.map_on ?_ (by decide), ?_⟩
    · intro batch _ batch' _ h
      exact (patternOf_injective h).1
    · refine List.Nodup.pairwise_of_forall_ne
        ((List.NodupKeys.nodup config.devices.nodupKeys).filter _) ?_
      intro e he e' he' hne
      simp only [List.mem_filter, Bool.and_eq_true, decide_eq_true_eq] at he he'
      have hlookup := (mem_entries_iff config.devices e.1 e.2).mp he.1
      have hlookup' := (mem_entries_iff config.devices e'.1 e'.2).mp he'.1
      -- a shared subject would make them one device
      simp only [Function.onFun, List.Disjoint, List.mem_map]
      rintro subject ⟨batch, -, rfl⟩ ⟨batch', -, heq⟩
      obtain ⟨-, hprotocol, hdevice⟩ := patternOf_injective heq
      have hid := hdistinct _ _ _ _ ⟨hlookup, he.2.1, he.2.2⟩ ⟨hlookup', he'.2.1, he'.2.2⟩
        hprotocol.symm hdevice.symm
      rw [← hid, hlookup, Option.some.injEq] at hlookup'
      exact hne (Sigma.ext hid (heq_of_eq hlookup'))

/-! ## Runs -/

/-- Every subject of the second list occurs once in both together, and no other:
the first list is empty. -/
theorem count_append_iff (earlier current : List String) :
    ((∀ x ∈ current, (earlier ++ current).count x = 1) ∧
        ∀ x ∉ current, (earlier ++ current).count x = 0) ↔
      earlier = [] ∧ current.Nodup := by
  constructor
  · rintro ⟨hone, hzero⟩
    have hnil : earlier = [] := by
      rw [List.eq_nil_iff_forall_not_mem]
      intro x hx
      have hpos := List.count_pos_iff.mpr hx
      by_cases hcurrent : x ∈ current
      · have hpos' := List.count_pos_iff.mpr hcurrent
        have hcount := hone x hcurrent
        rw [List.count_append] at hcount
        omega
      · have hcount := hzero x hcurrent
        rw [List.count_append] at hcount
        omega
    subst hnil
    refine ⟨rfl, List.nodup_iff_count_le_one.mpr fun x => ?_⟩
    by_cases hcurrent : x ∈ current
    · exact (hone x hcurrent).le
    · exact (hzero x hcurrent).trans_le zero_le_one
  · rintro ⟨rfl, hnodup⟩
    exact ⟨fun x hx => List.count_eq_one_of_mem hnodup hx,
      fun x hx => List.count_eq_zero.mpr hx⟩

/-- With exact subscriptions every message is handled as it should. -/
theorem Exact.handledOnce {s : GatewayState F64} (h : Exact s) : HandledOnce s := by
  intro hplain batch scanner deviceID tag
  have hpattern : ∀ sub ∈ s.subs, matchSubject sub.subject (subjectOf batch scanner deviceID tag) =
      (sub.subject == patternOf batch scanner.protocol (sanitizeForSubject deviceID)) := by
    intro sub hsub
    -- the subject is one of the config, so the protocol has no wildcards
    have hneeded : Needed s.config sub.subject := by
      by_contra hnot
      exact List.count_eq_zero.mp (h.none _ hnot) (List.mem_map_of_mem hsub)
    obtain ⟨deviceID', device, hneeds, batch', heq⟩ := hneeded
    rw [heq, Bool.eq_iff_iff, beq_iff_eq]
    by_cases hbatch : batch' = batch
    · subst hbatch
      rw [matchSubject_patternOf_iff (hplain _ _ hneeds)]
      constructor
      · rintro ⟨hp, hd⟩
        rw [hp, hd]
      · intro he
        exact (patternOf_injective he).2
    · have hnot : batch' = !batch := by
        cases batch <;> cases batch' <;> simp_all
      rw [hnot, matchSubject_patternOf_not (hplain _ _ hneeds)]
      constructor
      · intro hfalse
        cases hfalse
      · intro he
        have hb := (patternOf_injective he).1
        cases batch <;> cases hb
  have hlength : (handlers s.subs (subjectOf batch scanner deviceID tag)).length =
      (s.subs.map (·.subject)).count
        (patternOf batch scanner.protocol (sanitizeForSubject deviceID)) := by
    rw [handlers, List.filter_congr hpattern, ← List.countP_eq_length_filter, List.count,
      List.countP_map]
    rfl
  rw [hlength]
  constructor
  · rintro ⟨deviceID', device, hneeds, hp, hd⟩
    exact h.once _ ⟨deviceID', device, hneeds, batch, by rw [hp, hd]⟩
  · intro hnot
    apply h.none _
    rintro ⟨deviceID', device, hneeds, batch', heq⟩
    obtain ⟨-, hp, hd⟩ := patternOf_injective heq
    exact hnot ⟨deviceID', device, hneeds, hp.symm, hd.symm⟩

section Runs

variable [GoFloat64 F64]

/-- A run adds the subscriptions of all its configs, and ends with the last one. -/
theorem run_subs {s t : GatewayState F64} {acts : List (GatewayAction F64)} (hs : Inv s.config s)
    (hrun : Runs.run step s acts = some t) :
    t.subs = s.subs ++ (configs acts).flatMap subscribeToScanners ∧
      t.config = (configs acts).getLastD s.config := by
  induction acts generalizing s with
  | nil =>
    cases hrun
    simp [configs]
  | cons act acts ih =>
    obtain ⟨u, hu, hrun⟩ := Option.bind_eq_some_iff.mp hrun
    have hinv : Inv u.config u := step_inv hs hu
    obtain ⟨hsubs, hconfig⟩ := ih hinv hrun
    cases act with
    | applyConfig config =>
      cases hu
      refine ⟨?_, ?_⟩
      · rw [hsubs]
        simp [configs, GatewayState.applyConfig]
      · rw [hconfig]
        simp only [configs, List.filterMap_cons, List.getLastD_cons]
        rfl
    | deliver msg order nowMs =>
      rw [step] at hu
      split at hu
      · cases hu
        refine ⟨hsubs, ?_⟩
        rw [hconfig, (hs.deliver msg order nowMs).fits.config_eq]
        rfl
      · cases hu

/-- The subscriptions are right exactly when no config but the last needs a
device, and the devices that the last one needs can be told apart. -/
theorem run_exact_iff {s : GatewayState F64} {acts : List (GatewayAction F64)}
    (hrun : Runs.run step GatewayState.start acts = some s) :
    Exact s ↔ (∀ config ∈ (configs acts).dropLast, ∀ deviceID device,
        ¬ Needs config deviceID device) ∧ DistinctDevices ((configs acts).getLastD noConfig) := by
  obtain ⟨hsubs, hconfig⟩ := run_subs inv_start hrun
  have hcurrent : s.config = (configs acts).getLastD noConfig := hconfig
  have hsplit : s.subs.map (·.subject) =
      ((configs acts).dropLast.flatMap subscribeToScanners).map (·.subject) ++
        (subscribeToScanners s.config).map (·.subject) := by
    rw [hsubs, hcurrent, ← List.map_append]
    rcases List.eq_nil_or_concat (configs acts) with hnil | ⟨earlier, last, hconcat⟩
    · simp [hnil, GatewayState.start, subscribeToScanners, noConfig]
    · simp [hconcat, GatewayState.start]
  rw [← hcurrent, ← nodup_subjects_iff]
  have hexact : Exact s ↔
      (∀ x ∈ (subscribeToScanners s.config).map (·.subject), (s.subs.map (·.subject)).count x = 1) ∧
        ∀ x ∉ (subscribeToScanners s.config).map (·.subject),
          (s.subs.map (·.subject)).count x = 0 := by
    simp only [mem_subjects_iff]
    exact ⟨fun h => ⟨h.once, h.none⟩, fun h => ⟨h.1, h.2⟩⟩
  rw [hexact, hsplit, count_append_iff, List.map_eq_nil_iff, List.flatMap_eq_nil_iff]
  simp only [subscribeToScanners_eq_nil_iff]

/-- After a run the subscriptions are those of the last config, and every message
is handled as it should be, exactly when no earlier config needs a device and the
devices that the last one needs can be told apart. -/
theorem subscriptions_follow_config {s : GatewayState F64} {acts : List (GatewayAction F64)}
    (hrun : Runs.run step GatewayState.start acts = some s) :
    (Exact s ∧ HandledOnce s) ↔
      (∀ config ∈ (configs acts).dropLast, ∀ deviceID device, ¬ Needs config deviceID device) ∧
        DistinctDevices ((configs acts).getLastD noConfig) := by
  rw [← run_exact_iff hrun]
  exact ⟨fun h => h.1, fun h => ⟨h, h.handledOnce⟩⟩

end Runs

/-- A variable of one Modbus device. -/
def pumpConfig : GatewayConfig ℚ where
  devices := AList.singleton "plc1" { protocol := "modbus" }
  variableConfigs := AList.singleton "a"
    { id := "a", deviceID := "plc1", tag := "speed", datatype := "number" }
  udtTemplates := ∅
  udtVariables := ∅

/-- The first config after a start without one is followed. -/
theorem first_config_followed :
    ∃ s, Runs.run step GatewayState.start [.applyConfig none, .applyConfig (some pumpConfig)] =
      some s ∧ Exact s ∧ HandledOnce s := by
  obtain ⟨s, hrun⟩ : ∃ s, Runs.run step GatewayState.start
      [.applyConfig none, .applyConfig (some pumpConfig)] = some s := ⟨_, rfl⟩
  refine ⟨s, hrun, (subscriptions_follow_config hrun).mpr ⟨?_, ?_⟩⟩
  · intro config hconfig deviceID device hneeds
    simp only [configs, List.filterMap_cons, List.filterMap_nil, List.dropLast_cons_cons,
      List.dropLast_singleton, List.mem_singleton] at hconfig
    subst hconfig
    exact absurd hneeds.known (by simp [noConfig])
  · intro deviceID device deviceID' device' h h' _ _
    have hone : ∀ {d v}, Needs pumpConfig d v → d = "plc1" := by
      intro d v hneeds
      exact (eq_of_lookup_singleton hneeds.known).1
    rw [hone h, hone h']

/-- A config that is applied again leaves two subscriptions for each subject. -/
theorem second_config_not_followed :
    ∃ s, Runs.run step GatewayState.start
        [.applyConfig (some pumpConfig), .applyConfig (some pumpConfig)] = some s ∧
      ¬ (Exact s ∧ HandledOnce s) := by
  refine ⟨_, rfl, ?_⟩
  rintro ⟨hexact, -⟩
  have hneeds : Needs pumpConfig "plc1" { protocol := "modbus" } := ⟨rfl, by decide, by decide⟩
  have honce := hexact.once _ ⟨"plc1", _, hneeds, true, rfl⟩
  exact absurd honce (by decide)

end GatewaySubscriptions
