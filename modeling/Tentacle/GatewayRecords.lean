import Tentacle.ScannerRecords

/-!
# The records of the gateway

`ApplyConfig` deletes the records of the config before and writes those of the new one. What is
deleted goes by the variables and their devices, what is written by groups of variables, so the two
agree only in the devices that they are about.
-/

namespace GatewayRecords

open GoValues Manifest ScannerRecords
open ModbusWrites (modbusStringFCToInt)

/-- The config over the records as they are stored. -/
abbrev GatewayConfig :=
  GatewayVariables.GatewayConfigOf GatewayDeviceConfig GatewayVariableConfig
    GatewayUdtTemplateConfig GatewayUdtVariableConfig

/-- What is under the keys of the scanners' buckets. -/
abbrev Buckets := GoMap (String × String) (Option SubscribeRecord)

structure Gateway where
  config : Option GatewayConfig := none
  buckets : Buckets

/-! ## Groups -/

structure DeviceGroup where
  device : GatewayDeviceConfig
  vars : GoMap String GatewayVariableConfig := ∅

abbrev Groups := GoMap String DeviceGroup

section Groups

variable (config : GatewayConfig)

/-- The variable that stands for a member of a UDT. -/
def syntheticVariable (device : GatewayDeviceConfig) (udtVar : GatewayUdtVariableConfig)
    (memberName memberTag : String) : GatewayVariableConfig :=
  let member := (config.udtTemplates.lookup udtVar.templateName).bind fun tmpl =>
    (tmpl.members.getD []).find? (·.name = memberName)
  let v : GatewayVariableConfig :=
    { id := "__udt__" ++ udtVar.id ++ "__" ++ memberName
      deviceID := udtVar.deviceID
      tag := memberTag
      datatype := "number"
      cipType := udtVar.memberCipTypes[memberName]?.getD "" }
  if device.protocol = "modbus" then
    { v with
      functionCode := ((member.map (·.functionCode)).filter (· ≠ "")).map modbusStringFCToInt
      modbusDatatype := (member.map (·.modbusDatatype)).getD ""
      address := udtVar.memberAddresses[memberName]?
      byteOrder := udtVar.memberByteOrders[memberName]?.getD "" }
  else v

/-- The group of a device, which may be new. -/
def groupOf (groups : Groups) (deviceID : String) (device : GatewayDeviceConfig) : DeviceGroup :=
  (groups.lookup deviceID).getD { device := device }

def addVariable (groups : Groups) (varID : String) (varCfg : GatewayVariableConfig) : Groups :=
  match config.devices.lookup varCfg.deviceID with
  | none => groups
  | some device =>
    let grp := groupOf groups varCfg.deviceID device
    groups.insert varCfg.deviceID { grp with vars := grp.vars.insert varID varCfg }

def addUdtVariable (groups : Groups) (udtVar : GatewayUdtVariableConfig) : Groups :=
  match config.devices.lookup udtVar.deviceID with
  | none => groups
  | some device =>
    let grp := groupOf groups udtVar.deviceID device
    let vars := (udtVar.memberTags.getD ∅).toList.foldl (fun vars m =>
      let v := syntheticVariable config device udtVar m.1 m.2
      vars.insert v.id v) grp.vars
    groups.insert udtVar.deviceID { grp with vars := vars }

def deviceGroups : Groups :=
  let atomic := config.variableConfigs.entries.foldl (fun groups e =>
    addVariable config groups e.1 e.2) ∅
  config.udtVariables.entries.foldl (fun groups e => addUdtVariable config groups e.2) atomic

end Groups

/-! ## Writing and deleting -/

section Records

variable (gatewayID : String)

def recordKey (deviceID : String) : String := "gateway-" ++ gatewayID ++ "." ++ deviceID

/-- A device of the gateway's own protocol is not subscribed to. -/
def subscribeToDevice (config : GatewayConfig) (buckets : Buckets) (deviceID : String)
    (grp : DeviceGroup) : Buckets :=
  if grp.device.protocol = gatewayID then buckets
  else
    match writeSubscriptionConfig gatewayID config.udtVariables deviceID grp.device
      grp.vars with
    | none => buckets
    | some w => buckets.insert (w.bucket, w.key) w.payload

def subscribeToScanners (config : GatewayConfig) (buckets : Buckets) : Buckets :=
  (deviceGroups config).entries.foldl (fun buckets e =>
    subscribeToDevice gatewayID config buckets e.1 e.2) buckets

/-- The record of a device is deleted once for each protocol. -/
def deleteDevice (config : GatewayConfig) (s : Buckets × List (String × String))
    (deviceID : String) : Buckets × List (String × String) :=
  match config.devices.lookup deviceID with
  | none => s
  | some device =>
    if s.2.contains (device.protocol, deviceID) then s
    else
      let seen := (device.protocol, deviceID) :: s.2
      if scannerBucket device.protocol = "" then (s.1, seen)
      else (s.1.erase (scannerBucket device.protocol, recordKey gatewayID deviceID), seen)

def deleteSubscriptionConfigs (config : GatewayConfig) (buckets : Buckets) : Buckets :=
  let afterVariables := config.variableConfigs.entries.foldl (fun s e =>
    deleteDevice gatewayID config s e.2.deviceID) (buckets, [])
  (config.udtVariables.entries.foldl (fun s e =>
    deleteDevice gatewayID config s e.2.deviceID) afterVariables).1

def unsubscribeData (g : Gateway) : Buckets :=
  match g.config with
  | none => g.buckets
  | some old => deleteSubscriptionConfigs gatewayID old g.buckets

def applyConfig (g : Gateway) (config : Option GatewayConfig) : Gateway :=
  match config with
  | none => ⟨none, unsubscribeData gatewayID g⟩
  | some config => ⟨some config, subscribeToScanners gatewayID config (unsubscribeData gatewayID g)⟩

end Records

/-! ## What a fold goes over -/

/-- A fold that accounts for each element accounts for all of them. -/
theorem foldl_accounts {α β σ : Type} {P : List β → σ → Prop} {step : σ → α → σ} {key : α → β}
    (hstep : ∀ ids s a, P ids s → P (ids ++ [key a]) (step s a)) {ids : List β} {s : σ}
    (h : P ids s) (l : List α) : P (ids ++ l.map key) (l.foldl step s) := by
  induction l generalizing ids s with
  | nil =>
    rw [List.map_nil, List.append_nil]
    exact h
  | cons a l ih =>
    rw [List.map_cons, List.append_cons, List.foldl_cons]
    exact ih (hstep ids s a h)

/-- A variable or a UDT variable of the config is on the device. -/
def Referenced (config : GatewayConfig) (deviceID : String) : Prop :=
  (∃ varID varCfg, config.variableConfigs.lookup varID = some varCfg ∧
    varCfg.deviceID = deviceID) ∨
  ∃ varID udtVar, config.udtVariables.lookup varID = some udtVar ∧ udtVar.deviceID = deviceID

/-- The devices in the order in which the loops come to them. -/
def referencedIDs (config : GatewayConfig) : List String :=
  config.variableConfigs.entries.map (·.2.deviceID) ++
    config.udtVariables.entries.map (·.2.deviceID)

theorem mem_referencedIDs {config : GatewayConfig} {deviceID : String} :
    deviceID ∈ referencedIDs config ↔ Referenced config deviceID := by
  simp only [referencedIDs, Referenced, List.mem_append, List.mem_map, Sigma.exists,
    mem_entries_iff]

section Grouping

variable {config : GatewayConfig}

/-- The groups are those of the given devices, each with the device of the config. -/
def Grouped (config : GatewayConfig) (ids : List String) (groups : Groups) : Prop :=
  ∀ deviceID device, (groups.lookup deviceID).map (·.device) = some device ↔
    deviceID ∈ ids ∧ config.devices.lookup deviceID = some device

theorem grouped_empty : Grouped config [] ∅ := by
  intro deviceID device
  simp

/-- A device that the config does not know gets no group. -/
theorem grouped_unknown {ids : List String} {groups : Groups} {id : String}
    (h : Grouped config ids groups) (hid : config.devices.lookup id = none) :
    Grouped config (ids ++ [id]) groups := by
  intro deviceID device
  rw [h deviceID device, List.mem_append, List.mem_singleton]
  constructor
  · rintro ⟨hmem, hdevice⟩
    exact ⟨.inl hmem, hdevice⟩
  · rintro ⟨hmem | rfl, hdevice⟩
    · exact ⟨hmem, hdevice⟩
    · rw [hid] at hdevice
      cases hdevice

/-- The group that a variable is added to has the device of the config, also when it is old. -/
theorem groupOf_device {ids : List String} {groups : Groups} {id : String}
    {device : GatewayDeviceConfig} (h : Grouped config ids groups)
    (hid : config.devices.lookup id = some device) :
    (groupOf groups id device).device = device := by
  cases hgrp : groups.lookup id with
  | none => rw [groupOf, hgrp, Option.getD_none]
  | some grp =>
    have hdevice := ((h id grp.device).mp (by rw [hgrp, Option.map_some])).2
    rw [groupOf, hgrp, Option.getD_some]
    exact (Option.some.inj (hid.symm.trans hdevice)).symm

/-- A known device gets a group with its variables. -/
theorem grouped_insert {ids : List String} {groups : Groups} {id : String}
    {device : GatewayDeviceConfig} (h : Grouped config ids groups)
    (hid : config.devices.lookup id = some device) (vars : GoMap String GatewayVariableConfig) :
    Grouped config (ids ++ [id])
      (groups.insert id { groupOf groups id device with vars := vars }) := by
  intro deviceID device'
  rw [List.mem_append, List.mem_singleton]
  by_cases hd : deviceID = id
  · subst hd
    rw [AList.lookup_insert, Option.map_some, groupOf_device h hid, hid]
    simp
  · rw [AList.lookup_insert_ne hd, h deviceID device']
    simp [hd]

theorem grouped_addVariable {ids : List String} {groups : Groups} (varID : String)
    (varCfg : GatewayVariableConfig) (h : Grouped config ids groups) :
    Grouped config (ids ++ [varCfg.deviceID]) (addVariable config groups varID varCfg) := by
  rw [addVariable]
  cases hid : config.devices.lookup varCfg.deviceID with
  | none => exact grouped_unknown h hid
  | some device => exact grouped_insert h hid _

theorem grouped_addUdtVariable {ids : List String} {groups : Groups}
    (udtVar : GatewayUdtVariableConfig) (h : Grouped config ids groups) :
    Grouped config (ids ++ [udtVar.deviceID]) (addUdtVariable config groups udtVar) := by
  rw [addUdtVariable]
  cases hid : config.devices.lookup udtVar.deviceID with
  | none => exact grouped_unknown h hid
  | some device => exact grouped_insert h hid _

theorem grouped_deviceGroups : Grouped config (referencedIDs config) (deviceGroups config) := by
  have hatomic := foldl_accounts (P := Grouped config) (fun _ _ e h =>
    grouped_addVariable e.1 e.2 h) grouped_empty config.variableConfigs.entries
  exact foldl_accounts (P := Grouped config) (fun _ _ e h => grouped_addUdtVariable e.2 h) hatomic
    config.udtVariables.entries

end Grouping

/-! ## The records of a config -/

section Applying

variable {gatewayID : String} {config : GatewayConfig}

theorem recordKey_injective (gatewayID : String) : Function.Injective (recordKey gatewayID) := by
  intro d d' h
  have hlist := congrArg String.toList h
  simp only [recordKey, String.toList_append, List.append_cancel_left_eq] at hlist
  exact String.toList_inj.mp hlist

/-- Where the record of a device stands. -/
def recordAt (gatewayID deviceID : String) (device : GatewayDeviceConfig) : String × String :=
  (scannerBucket device.protocol, recordKey gatewayID deviceID)

/-- The device manages not itself, and a scanner other than the gateway polls it. -/
def Polled (gatewayID : String) (device : GatewayDeviceConfig) : Prop :=
  device.autoManaged = false ∧ scannerBucket device.protocol ≠ "" ∧ device.protocol ≠ gatewayID

/-- A device that is polled gets one record, and no record goes. -/
theorem isSome_subscribeToDevice {buckets : Buckets} {deviceID : String} {grp : DeviceGroup}
    {k : String × String} :
    ((subscribeToDevice gatewayID config buckets deviceID grp).lookup k).isSome ↔
      (buckets.lookup k).isSome ∨
        Polled gatewayID grp.device ∧ k = recordAt gatewayID deviceID grp.device := by
  unfold subscribeToDevice Polled
  by_cases hown : grp.device.protocol = gatewayID
  · rw [if_pos hown]
    simp [hown]
  · rw [if_neg hown]
    obtain ⟨hnone, hwrite⟩ | ⟨hauto, hbucket, payload, hwrite⟩ :=
      writeSubscriptionConfig_cases gatewayID config.udtVariables deviceID grp.device grp.vars
    · rw [hwrite]
      rcases hnone with hauto | hbucket
      · simp [hauto]
      · simp [hbucket]
    · rw [hwrite]
      change ((buckets.insert (recordAt gatewayID deviceID grp.device) payload).lookup k).isSome ↔ _
      by_cases hk : k = recordAt gatewayID deviceID grp.device
      · rw [hk, AList.lookup_insert]
        simp [hown, hauto, hbucket]
      · rw [AList.lookup_insert_ne hk]
        simp [hk]

/-- One after the other they get one record each. -/
theorem isSome_foldl_subscribeToDevice (l : List (Sigma fun _ : String => DeviceGroup))
    {buckets : Buckets} {k : String × String} :
    ((l.foldl (fun buckets e => subscribeToDevice gatewayID config buckets e.1 e.2)
        buckets).lookup k).isSome ↔
      (buckets.lookup k).isSome ∨
        ∃ e ∈ l, Polled gatewayID e.2.device ∧ k = recordAt gatewayID e.1 e.2.device := by
  induction l generalizing buckets with
  | nil => simp
  | cons e l ih =>
    rw [List.foldl_cons, ih, isSome_subscribeToDevice, or_assoc, List.exists_mem_cons_iff]

/-- The device is one of the config that has a record. -/
def Recorded (gatewayID : String) (config : GatewayConfig) (deviceID : String)
    (device : GatewayDeviceConfig) : Prop :=
  config.devices.lookup deviceID = some device ∧ Referenced config deviceID ∧
    Polled gatewayID device

/-- Afterwards the records of the config are there, and those from before. -/
theorem isSome_subscribeToScanners {buckets : Buckets} {k : String × String} :
    ((subscribeToScanners gatewayID config buckets).lookup k).isSome ↔
      (buckets.lookup k).isSome ∨
        ∃ deviceID device, Recorded gatewayID config deviceID device ∧
          k = recordAt gatewayID deviceID device := by
  rw [subscribeToScanners, isSome_foldl_subscribeToDevice]
  refine or_congr_right ?_
  constructor
  · rintro ⟨⟨deviceID, grp⟩, hmem, hpolled, hk⟩
    have hlookup := (mem_entries_iff _ deviceID grp).mp hmem
    obtain ⟨hid, hdevice⟩ := (grouped_deviceGroups deviceID grp.device).mp (by rw [hlookup]; rfl)
    exact ⟨deviceID, grp.device, ⟨hdevice, mem_referencedIDs.mp hid, hpolled⟩, hk⟩
  · rintro ⟨deviceID, device, ⟨hdevice, hid, hpolled⟩, hk⟩
    have hgroup := (grouped_deviceGroups deviceID device).mpr ⟨mem_referencedIDs.mpr hid, hdevice⟩
    obtain ⟨grp, hgrp, rfl⟩ := Option.map_eq_some_iff.mp hgroup
    exact ⟨⟨deviceID, grp⟩, (mem_entries_iff _ deviceID grp).mpr hgrp, hpolled, hk⟩

/-- The record of one of the devices stands there, or may stand there. -/
def Deletes (gatewayID : String) (config : GatewayConfig) (ids : List String)
    (k : String × String) : Prop :=
  ∃ deviceID ∈ ids, ∃ device, config.devices.lookup deviceID = some device ∧
    scannerBucket device.protocol ≠ "" ∧ k = recordAt gatewayID deviceID device

/-- The records of the given devices are gone and all others stand, and what was seen is of these
devices: to skip it a second time changes nothing. -/
structure Deleted (gatewayID : String) (config : GatewayConfig) (before : Buckets)
    (ids : List String) (s : Buckets × List (String × String)) : Prop where
  gone : ∀ k, Deletes gatewayID config ids k → s.1.lookup k = none
  kept : ∀ k, ¬Deletes gatewayID config ids k → s.1.lookup k = before.lookup k
  seen : ∀ protocol deviceID, (protocol, deviceID) ∈ s.2 → deviceID ∈ ids

theorem deletes_snoc {ids : List String} {id : String} {k : String × String} :
    Deletes gatewayID config (ids ++ [id]) k ↔
      Deletes gatewayID config ids k ∨ Deletes gatewayID config [id] k := by
  simp only [Deletes, List.mem_append, or_and_right, exists_or]

theorem deleted_init (before : Buckets) : Deleted gatewayID config before [] (before, []) where
  gone := by
    rintro k ⟨_, hmem, _⟩
    cases hmem
  kept _ _ := rfl
  seen _ _ hmem := by cases hmem

/-- Nothing is done for a device whose record is not there. -/
theorem Deleted.skip {before : Buckets} {ids : List String} {s : Buckets × List (String × String)}
    {id : String} {seen : List (String × String)} (h : Deleted gatewayID config before ids s)
    (hid : ∀ k, Deletes gatewayID config [id] k → Deletes gatewayID config ids k)
    (hseen : ∀ e ∈ seen, e ∈ s.2 ∨ e.2 = id) :
    Deleted gatewayID config before (ids ++ [id]) (s.1, seen) where
  gone k hk := h.gone k ((deletes_snoc.mp hk).elim (fun h => h) (hid k))
  kept k hk := h.kept k fun hdel => hk (deletes_snoc.mpr (.inl hdel))
  seen protocol deviceID hmem := by
    rw [List.mem_append, List.mem_singleton]
    exact (hseen _ hmem).imp (h.seen protocol deviceID) fun heq => heq

/-- Each device takes the records of the protocol that it had. -/
theorem deleted_deleteDevice {before : Buckets} {ids : List String}
    {s : Buckets × List (String × String)} (id : String)
    (h : Deleted gatewayID config before ids s) :
    Deleted gatewayID config before (ids ++ [id]) (deleteDevice gatewayID config s id) := by
  rw [deleteDevice]
  cases hid : config.devices.lookup id with
  | none =>
    refine h.skip ?_ fun e he => .inl he
    rintro k ⟨deviceID, hmem, device, hdevice, -⟩
    rw [List.mem_singleton.mp hmem, hid] at hdevice
    cases hdevice
  | some device =>
    dsimp only
    split_ifs with hseen hbucket
    · refine h.skip ?_ fun e he => .inl he
      rintro k ⟨deviceID, hmem, hdel⟩
      rw [List.mem_singleton.mp hmem] at hdel
      exact ⟨id, h.seen _ _ (List.contains_iff_mem.mp hseen), hdel⟩
    · refine h.skip ?_ ?_
      · rintro k ⟨deviceID, hmem, device', hdevice, hne, -⟩
        rw [List.mem_singleton.mp hmem, hid, Option.some.injEq] at hdevice
        rw [hdevice] at hbucket
        exact absurd hbucket hne
      · intro e he
        rcases List.mem_cons.mp he with rfl | he
        · exact .inr rfl
        · exact .inl he
    · have hdel : ∀ k, Deletes gatewayID config [id] k ↔ k = recordAt gatewayID id device := by
        intro k
        constructor
        · rintro ⟨deviceID, hmem, device', hdevice, -, hk⟩
          rw [List.mem_singleton.mp hmem, hid, Option.some.injEq] at hdevice
          rw [hk, List.mem_singleton.mp hmem, hdevice]
        · intro hk
          exact ⟨id, List.mem_singleton_self id, device, hid, hbucket, hk⟩
      change Deleted gatewayID config before (ids ++ [id])
        (s.1.erase (recordAt gatewayID id device), (device.protocol, id) :: s.2)
      constructor
      · intro k hk
        by_cases heq : k = recordAt gatewayID id device
        · rw [heq, AList.lookup_erase]
        · rw [AList.lookup_erase_ne heq]
          exact h.gone k ((deletes_snoc.mp hk).resolve_right (mt (hdel k).mp heq))
      · intro k hk
        have heq : k ≠ recordAt gatewayID id device :=
          fun heq => hk (deletes_snoc.mpr (.inr ((hdel k).mpr heq)))
        rw [AList.lookup_erase_ne heq]
        exact h.kept k fun hids => hk (deletes_snoc.mpr (.inl hids))
      · intro protocol deviceID hmem
        rw [List.mem_append, List.mem_singleton]
        rcases List.mem_cons.mp hmem with heq | hmem
        · exact .inr (congrArg Prod.snd heq)
        · exact .inl (h.seen protocol deviceID hmem)

/-- The records of the config are deleted, and what is not where one of them may be stands. -/
theorem deleted_deleteSubscriptionConfigs (gatewayID : String) (config : GatewayConfig)
    (before : Buckets) :
    ∃ seen, Deleted gatewayID config before (referencedIDs config)
      (deleteSubscriptionConfigs gatewayID config before, seen) := by
  have hatomic := foldl_accounts (P := Deleted gatewayID config before)
    (fun _ _ e h => deleted_deleteDevice (Sigma.snd e).deviceID h) (deleted_init before)
    config.variableConfigs.entries
  have hall := foldl_accounts (P := Deleted gatewayID config before)
    (fun _ _ e h => deleted_deleteDevice (Sigma.snd e).deviceID h) hatomic
    config.udtVariables.entries
  exact ⟨_, hall⟩

/-! ## Sequences of configs -/

/-- The keys of the gateway are those of the devices of the config that have a record. -/
def OwnRecords (gatewayID : String) (buckets : Buckets) (config : Option GatewayConfig) : Prop :=
  ∀ bucket deviceID, (buckets.lookup (bucket, recordKey gatewayID deviceID)).isSome ↔
    ∃ current device, config = some current ∧ Recorded gatewayID current deviceID device ∧
      bucket = scannerBucket device.protocol

/-- No key of the gateway is left over from another config. -/
def NoLeftover (gatewayID : String) (g : Gateway) : Prop :=
  ∀ bucket deviceID, (g.buckets.lookup (bucket, recordKey gatewayID deviceID)).isSome →
    ∃ current device, g.config = some current ∧ Recorded gatewayID current deviceID device ∧
      bucket = scannerBucket device.protocol

/-- The deletion goes over every device that has a record, so that no key is left. -/
theorem lookup_unsubscribeData {g : Gateway} (h : NoLeftover gatewayID g)
    (bucket deviceID : String) :
    (unsubscribeData gatewayID g).lookup (bucket, recordKey gatewayID deviceID) = none := by
  rw [unsubscribeData]
  cases hold : g.config with
  | none =>
    rw [← Option.not_isSome_iff_eq_none]
    intro hsome
    obtain ⟨current, _, hcurrent, -⟩ := h bucket deviceID hsome
    rw [hold] at hcurrent
    cases hcurrent
  | some old =>
    obtain ⟨seen, hdeleted⟩ := deleted_deleteSubscriptionConfigs gatewayID old g.buckets
    by_cases hdel : Deletes gatewayID old (referencedIDs old) (bucket, recordKey gatewayID deviceID)
    · exact hdeleted.gone _ hdel
    · change (deleteSubscriptionConfigs gatewayID old g.buckets).lookup _ = none
      rw [hdeleted.kept _ hdel, ← Option.not_isSome_iff_eq_none]
      intro hsome
      obtain ⟨current, device, hcurrent, ⟨hdevice, href, -, hbucket, -⟩, rfl⟩ :=
        h bucket deviceID hsome
      rw [hold, Option.some.injEq] at hcurrent
      subst hcurrent
      exact hdel ⟨deviceID, mem_referencedIDs.mpr href, device, hdevice, hbucket, rfl⟩

theorem recordAt_eq_iff {bucket deviceID deviceID' : String} {device : GatewayDeviceConfig} :
    (bucket, recordKey gatewayID deviceID) = recordAt gatewayID deviceID' device ↔
      deviceID = deviceID' ∧ bucket = scannerBucket device.protocol := by
  rw [recordAt, Prod.mk.injEq, (recordKey_injective gatewayID).eq_iff, and_comm]

/-- A config that meets no leftover leaves its own records and no other. -/
theorem ownRecords_applyConfig {g : Gateway} (h : NoLeftover gatewayID g)
    (config : Option GatewayConfig) :
    OwnRecords gatewayID (applyConfig gatewayID g config).buckets config := by
  intro bucket deviceID
  have hclean := lookup_unsubscribeData h bucket deviceID
  cases config with
  | none =>
    simp only [applyConfig, hclean]
    simp
  | some config =>
    simp only [applyConfig, isSome_subscribeToScanners, hclean, recordAt_eq_iff]
    constructor
    · rintro (hnone | ⟨_, device, hrecorded, rfl, hbucket⟩)
      · cases hnone
      · exact ⟨config, device, rfl, hrecorded, hbucket⟩
    · rintro ⟨_, device, hcurrent, hrecorded, hbucket⟩
      cases hcurrent
      exact .inr ⟨deviceID, device, hrecorded, rfl, hbucket⟩

theorem applyConfig_config (g : Gateway) (config : Option GatewayConfig) :
    (applyConfig gatewayID g config).config = config := by
  cases config <;> rfl

theorem noLeftover_applyConfig {g : Gateway} (h : NoLeftover gatewayID g)
    (config : Option GatewayConfig) : NoLeftover gatewayID (applyConfig gatewayID g config) := by
  intro bucket deviceID hsome
  rw [applyConfig_config]
  exact (ownRecords_applyConfig h config bucket deviceID).mp hsome

theorem noLeftover_applyConfigs {g : Gateway} (h : NoLeftover gatewayID g)
    (configs : List (Option GatewayConfig)) :
    NoLeftover gatewayID (configs.foldl (applyConfig gatewayID) g) := by
  induction configs generalizing g with
  | nil => exact h
  | cons config configs ih => exact ih (noLeftover_applyConfig h config)

/-- After the last of any sequence of configs the gateway has one key for each device of that
config that is to have a record, in the bucket of its protocol, and no other. -/
theorem applyConfigs_ownRecords (gatewayID : String) (g : Gateway)
    (configs : List (Option GatewayConfig)) (config : Option GatewayConfig)
    (hfresh : ∀ bucket deviceID, g.buckets.lookup (bucket, recordKey gatewayID deviceID) = none) :
    OwnRecords gatewayID ((configs ++ [config]).foldl (applyConfig gatewayID) g).buckets config ∧
      Function.Injective (recordKey gatewayID) := by
  refine ⟨?_, recordKey_injective gatewayID⟩
  have hinit : NoLeftover gatewayID g := by
    intro bucket deviceID hsome
    rw [hfresh bucket deviceID] at hsome
    cases hsome
  rw [List.foldl_append]
  exact ownRecords_applyConfig (noLeftover_applyConfigs hinit configs) config

/-- A variable is on a Modbus device. -/
def modbusConfig : GatewayConfig where
  devices := AList.singleton "plc" { protocol := "modbus" }
  variableConfigs := AList.singleton "speed" { id := "speed", deviceID := "plc", tag := "s" }

/-- The protocol of the device is another one, and only a UDT variable is on it. -/
def opcuaConfig : GatewayConfig where
  devices := AList.singleton "plc" { protocol := "opcua" }
  udtVariables := AList.singleton "motor" { id := "motor", deviceID := "plc", tag := "m" }

theorem applyConfigs_ownRecords_opcuaConfig :
    OwnRecords "gateway" (([some modbusConfig, none, some modbusConfig] ++
      [some opcuaConfig]).foldl (applyConfig "gateway") ⟨none, ∅⟩).buckets (some opcuaConfig) ∧
      Function.Injective (recordKey "gateway") :=
  applyConfigs_ownRecords "gateway" ⟨none, ∅⟩ [some modbusConfig, none, some modbusConfig]
    (some opcuaConfig) fun bucket deviceID =>
      AList.lookup_empty (bucket, recordKey "gateway" deviceID)

end Applying

end GatewayRecords
