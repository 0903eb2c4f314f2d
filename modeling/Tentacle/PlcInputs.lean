import Tentacle.PlcScannerBridge
import Tentacle.PlcVariables

/-!
# Values from Modbus in the soft PLC

The scanner writes the IDs of the device and of the tag into the subject with the same characters
replaced. The bridge looks for the variables of a value by what stands in the subject, but it has
filed them under the ID of the device as it is configured.
-/

namespace PlcInputs

open GoValues Subjects ScannerRecords PlcScannerBridge PlcVariables
open Manifest (PlcDeviceConfigKV PlcVariableConfigKV PlcVariableSourceKV)
open MqttBridge (PlcDataMessage)
open GatewayVariables (BusMessage)
open ModbusScanner (ModbusTagConfig)
open ScannerKvWatch (splitKey)

variable {F64 : Type}

/-! ## The scanner -/

/-- What `decodeRegisters` and `decodeBoolFromCoils` return. -/
inductive Reading (F64 : Type) where
  | bool (b : Bool)
  | int64 (n : Int)
  | float64 (x : F64)

/-- `fmt.Sprintf("%v", val)`. -/
def Reading.sprint [GoFloat64 F64] : Reading F64 → String
  | .bool b => if b then "true" else "false"
  | .int64 n => toString n
  | .float64 x => GoFloat64.format x

/-- What is decoded from the encoded value; a number that is not finite is not encoded. -/
def Reading.marshal [GoFloat64OfInt F64] (finite : F64 → Bool) : Reading F64 → Option (Json F64)
  | .bool b => some (.bool b)
  | .int64 n => some (.number (GoFloat64OfInt.float64 n))
  | .float64 x => if finite x then some (.number x) else none

def modbusToNatsDatatype (dt : String) : String := if dt = "boolean" then "boolean" else "number"

/-- A device of the scanner with the values that it has published. -/
structure PolledDevice (F64 : Type) where
  deviceID : String
  allTags : GoMap String ModbusTagConfig := ∅
  lastValues : GoMap String (Reading F64) := ∅

section Scanner

variable [GoFloat64 F64] [GoFloat64OfInt F64] (finite : F64 → Bool) (moduleID : String)

def dataMessage (deviceID tagID : String) (tag : ModbusTagConfig) (value : Json F64) (nowMs : Int) :
    BusMessage (PlcDataMessage F64) where
  subject := data "modbus" (sanitizeForSubject deviceID) (sanitizeForSubject tagID)
  data :=
    { moduleID := moduleID
      deviceID := deviceID
      variableID := tagID
      value := value
      timestamp := nowMs
      datatype := modbusToNatsDatatype tag.datatype }

/-- The body of the loop over the values. A value that prints as the last one is not published. -/
def publishChange (nowMs : Int) (dev : PolledDevice F64) (tagID : String) (val : Reading F64) :
    PolledDevice F64 × Option (BusMessage (PlcDataMessage F64)) :=
  if (dev.lastValues.lookup tagID).any (fun lastVal => lastVal.sprint = val.sprint) then (dev, none)
  else
    let dev := { dev with lastValues := dev.lastValues.insert tagID val }
    (dev, (dev.allTags.lookup tagID).bind fun tag =>
      (val.marshal finite).map fun value => dataMessage moduleID dev.deviceID tagID tag value nowMs)

def publishChanges (nowMs : Int) (dev : PolledDevice F64) (values : GoMap String (Reading F64)) :
    PolledDevice F64 × List (BusMessage (PlcDataMessage F64)) :=
  values.entries.foldl (fun s e =>
    let next := publishChange finite moduleID nowMs s.1 e.1 e.2
    (next.1, s.2 ++ next.2.toList)) (dev, [])

end Scanner

/-! ## The bridge -/

/-- `strings.SplitN(s, ".", 4)`, if there are four parts. -/
def splitN4 (s : String) : Option (String × String × String × String) :=
  (splitKey s).bind fun first =>
    (splitKey first.2).bind fun second =>
      (splitKey second.2).map fun third => (first.1, second.1, third.1, third.2)

def handleScannerData (tagIndex : GoMap String (List String)) (vs : VariableStore F64)
    (msg : BusMessage (PlcDataMessage F64)) (now : Int) : VariableStore F64 :=
  match splitN4 msg.subject with
  | none => vs
  | some (protocol, _, deviceID, tag) =>
    match tagIndex.lookup (protocol ++ "." ++ deviceID ++ "." ++ tag) with
    | none => vs
    | some varIDs => varIDs.foldl (fun vs varID => (vs.set varID msg.data.value now).1) vs

/-- Each subscription that matches the subject calls the handler. -/
def deliver (sb : Bridge) (vs : VariableStore F64) (msg : BusMessage (PlcDataMessage F64))
    (now : Int) : VariableStore F64 :=
  (sb.subs.filter fun pattern => matchSubject pattern msg.subject).foldl
    (fun vs _ => handleScannerData sb.tagIndex vs msg now) vs

def runtimeVariable (decode : JsonCodec.GoAny → Json F64) (now : Int) (id : String)
    (vcfg : PlcVariableConfigKV) : RuntimeVariable F64 where
  id := id
  datatype := vcfg.datatype
  direction := vcfg.direction
  value := decode vcfg.default
  lastUpdated := now

/-- The variables as `applyConfig` registers them. -/
def registerVariables (decode : JsonCodec.GoAny → Json F64) (config : PlcConfigKV) (now : Int) :
    VariableStore F64 :=
  config.variableConfigs.entries.foldl (fun vs e =>
    vs.insert e.1 (runtimeVariable decode now e.1 e.2)) ∅

/-- The variables after calls of `Set`, from the bridge or from programs. -/
def afterSets (vs : VariableStore F64) (sets : List (String × Json F64 × Int)) :
    VariableStore F64 :=
  sets.foldl (fun vs s => (vs.set s.1 s.2.1 s.2.2).1) vs

/-! ## What is published -/

section Publishing

variable [GoFloat64 F64] [GoFloat64OfInt F64] {finite : F64 → Bool} {moduleID : String}
  {nowMs : Int} {dev : PolledDevice F64}

theorem publishChange_deviceID (tagID : String) (val : Reading F64) :
    (publishChange finite moduleID nowMs dev tagID val).1.deviceID = dev.deviceID := by
  unfold publishChange
  split
  · rfl
  · rfl

/-- What is published for a tag is its value. -/
theorem mem_publishChange {tagID : String} {val : Reading F64}
    {msg : BusMessage (PlcDataMessage F64)}
    (h : msg ∈ (publishChange finite moduleID nowMs dev tagID val).2) :
    ∃ tag value, msg = dataMessage moduleID dev.deviceID tagID tag value nowMs := by
  unfold publishChange at h
  split at h
  · cases h
  · obtain ⟨tag, -, hmap⟩ := Option.bind_eq_some_iff.mp h
    obtain ⟨value, -, hmsg⟩ := Option.map_eq_some_iff.mp hmap
    exact ⟨tag, value, hmsg.symm⟩

theorem mem_foldl_publishChange (values : List (Sigma fun _ : String => Reading F64))
    (sent : List (BusMessage (PlcDataMessage F64))) {msg : BusMessage (PlcDataMessage F64)}
    (h : msg ∈ (values.foldl (fun s e =>
      let next := publishChange finite moduleID nowMs s.1 e.1 e.2
      (next.1, s.2 ++ next.2.toList)) (dev, sent)).2) :
    msg ∈ sent ∨
      ∃ tagID tag value, msg = dataMessage moduleID dev.deviceID tagID tag value nowMs := by
  induction values generalizing dev sent with
  | nil => exact .inl h
  | cons e values ih =>
    rw [List.foldl_cons] at h
    obtain hsent | ⟨tagID, tag, value, hmsg⟩ := ih _ h
    · rw [List.mem_append, Option.mem_toList] at hsent
      obtain hsent | hnew := hsent
      · exact .inl hsent
      · obtain ⟨tag, value, hmsg⟩ := mem_publishChange hnew
        exact .inr ⟨e.1, tag, value, hmsg⟩
    · rw [publishChange_deviceID] at hmsg
      exact .inr ⟨tagID, tag, value, hmsg⟩

theorem mem_publishChanges {values : GoMap String (Reading F64)}
    {msg : BusMessage (PlcDataMessage F64)}
    (h : msg ∈ (publishChanges finite moduleID nowMs dev values).2) :
    ∃ tag value, msg = dataMessage moduleID dev.deviceID msg.data.variableID tag value nowMs := by
  obtain hnil | ⟨tagID, tag, value, rfl⟩ := mem_foldl_publishChange _ [] h
  · cases hnil
  · exact ⟨tag, value, rfl⟩

end Publishing

/-! ## Where a value goes -/

/-- The key under which the bridge files a variable. -/
def indexKey (src : PlcVariableSourceKV) : String :=
  src.protocol ++ "." ++ src.deviceID ++ "." ++ sanitizeForSubject src.tag

/-- The variables that are filed under a key. -/
def filed (tagIndex : GoMap String (List String)) (key : String) : List String :=
  (tagIndex.lookup key).getD []

theorem filed_addItem (tagIndex : GoMap String (List String)) (key varID key' : String) :
    filed (addItem tagIndex key [] (· ++ [varID])) key' =
      if key' = key then filed tagIndex key' ++ [varID] else filed tagIndex key' := by
  unfold filed addItem
  split
  next h => rw [h, AList.lookup_insert, Option.getD_some]
  next h => rw [AList.lookup_insert_ne h]

theorem addSource_tagIndex (plcID : String) (src : PlcVariableSourceKV)
    (device : PlcDeviceConfigKV) (r : Requests) (varID : String) :
    (addSource plcID src device r varID).tagIndex =
      addItem r.tagIndex (indexKey src) [] (· ++ [varID]) := by
  unfold addSource
  split_ifs <;> rfl

section Index

variable {plcID : String} {config : PlcConfigKV}

/-- The variable is filed under the key by one of the entries. -/
def FiledBy (config : PlcConfigKV) (es : List (Sigma fun _ : String => PlcVariableConfigKV))
    (key varID : String) : Prop :=
  ∃ e ∈ es, e.1 = varID ∧ ∃ src device, inputSource config e.2 = some (src, device) ∧
    key = indexKey src

theorem filedBy_snoc {es : List (Sigma fun _ : String => PlcVariableConfigKV)}
    {e : Sigma fun _ : String => PlcVariableConfigKV} {key varID : String} :
    FiledBy config (es ++ [e]) key varID ↔
      FiledBy config es key varID ∨ FiledBy config [e] key varID := by
  simp only [FiledBy, List.mem_append, or_and_right, exists_or]

/-- A variable is filed under a key if it was or has its source there. -/
theorem mem_filed_addVariable {r : Requests} {e : Sigma fun _ : String => PlcVariableConfigKV}
    {key varID : String} :
    varID ∈ filed (addVariable plcID config r e).tagIndex key ↔
      varID ∈ filed r.tagIndex key ∨ FiledBy config [e] key varID := by
  unfold addVariable
  cases hsrc : inputSource config e.2 with
  | none => simp [FiledBy, hsrc]
  | some pair =>
    obtain ⟨src, device⟩ := pair
    dsimp only
    rw [addSource_tagIndex, filed_addItem]
    by_cases hkey : key = indexKey src
    · simp [FiledBy, hsrc, hkey, eq_comm]
    · rw [if_neg hkey]
      simp [FiledBy, hsrc, hkey, eq_comm]

/-- A variable is filed under the key of its source. -/
theorem mem_filed_foldl (es : List (Sigma fun _ : String => PlcVariableConfigKV))
    {key varID : String} :
    varID ∈ filed (es.foldl (addVariable plcID config) {}).tagIndex key ↔
      FiledBy config es key varID := by
  induction es using List.reverseRecOn with
  | nil => simp [filed, FiledBy]
  | append_singleton es e ih =>
    rw [List.foldl_append, List.foldl_cons, List.foldl_nil, mem_filed_addVariable, ih, filedBy_snoc]

/-- Each input variable of a known device is filed, once and under its own key. -/
theorem mem_filed_buildRequests {key varID : String} {vcfg : PlcVariableConfigKV}
    (hvar : config.variableConfigs.lookup varID = some vcfg) :
    varID ∈ filed (buildRequests plcID config).tagIndex key ↔
      ∃ src device, inputSource config vcfg = some (src, device) ∧ key = indexKey src := by
  rw [buildRequests, mem_filed_foldl]
  constructor
  · rintro ⟨⟨_, vcfg'⟩, he, rfl, hsrc⟩
    have hvar' := (mem_entries_iff _ _ vcfg').mp he
    rw [hvar, Option.some.injEq] at hvar'
    rw [hvar']
    exact hsrc
  · intro hsrc
    exact ⟨⟨varID, vcfg⟩, (mem_entries_iff _ varID vcfg).mpr hvar, rfl, hsrc⟩

end Index

/-! ## The store -/

section Store

variable {vs : VariableStore F64} {varID : String}

/-- A value that is set takes no variable away. -/
theorem set_lookup_ne_none (h : vs.lookup varID ≠ none) (id : String) (value : Json F64)
    (now : Int) : (vs.set id value now).1.lookup varID ≠ none := by
  by_cases hid : varID = id
  · subst hid
    intro hnone
    have hvalue := VariableStore.value_set_self h value now
    rw [hnone] at hvalue
    cases hvalue
  · rw [VariableStore.lookup_set_other vs hid]
    exact h

theorem afterSets_lookup_ne_none (h : vs.lookup varID ≠ none)
    (sets : List (String × Json F64 × Int)) : (afterSets vs sets).lookup varID ≠ none := by
  induction sets generalizing vs with
  | nil => exact h
  | cons s sets ih => exact ih (set_lookup_ne_none h s.1 s.2.1 s.2.2)

/-- Each variable of the config is registered. -/
theorem registerVariables_ne_none (decode : JsonCodec.GoAny → Json F64) {config : PlcConfigKV}
    (now : Int) {vcfg : PlcVariableConfigKV}
    (h : config.variableConfigs.lookup varID = some vcfg) :
    (registerVariables decode config now).lookup varID ≠ none := by
  have hnodup : (config.variableConfigs.entries.map Sigma.fst).Nodup :=
    config.variableConfigs.nodupKeys
  have hfound := lookup_foldl_insert (fun e : Sigma fun _ : String => PlcVariableConfigKV => e.1)
    (fun e => runtimeVariable decode now e.1 e.2) hnodup ∅ ((mem_entries_iff _ varID vcfg).mpr h)
  rw [registerVariables, hfound]
  exact Option.some_ne_none _

/-- Values that are set for others leave a variable. -/
theorem lookup_foldl_set_other {ids : List String} (h : varID ∉ ids) (value : Json F64)
    (now : Int) :
    (ids.foldl (fun vs id => (VariableStore.set vs id value now).1) vs).lookup varID =
      vs.lookup varID := by
  induction ids generalizing vs with
  | nil => rfl
  | cons id ids ih =>
    rw [List.mem_cons, not_or] at h
    rw [List.foldl_cons, ih h.2, VariableStore.lookup_set_other vs h.1]

/-- A variable has the value after the calls if one of them is for it or it had it before. -/
theorem value_foldl_set {ids : List String} {value : Json F64} {now : Int}
    (hknown : vs.lookup varID ≠ none)
    (h : varID ∈ ids ∨ (vs.lookup varID).map (·.value) = some value) :
    ((ids.foldl (fun vs id => (VariableStore.set vs id value now).1) vs).lookup varID).map
      (·.value) = some value := by
  induction ids generalizing vs with
  | nil =>
    obtain hmem | hvalue := h
    · cases hmem
    · exact hvalue
  | cons id ids ih =>
    rw [List.foldl_cons]
    refine ih (set_lookup_ne_none hknown id value now) ?_
    by_cases hid : varID = id
    · subst hid
      exact .inr (VariableStore.value_set_self hknown value now)
    · rw [VariableStore.lookup_set_other vs hid]
      exact h.imp_left fun hmem => (List.mem_cons.mp hmem).resolve_left hid

end Store

/-! ## The handler -/

/-- A data subject is split into its four parts. -/
theorem splitN4_data {moduleID deviceID : String} (hm : '.' ∉ moduleID.toList)
    (hd : '.' ∉ deviceID.toList) (variableID : String) :
    splitN4 (data moduleID deviceID variableID) =
      some (moduleID, "data", deviceID, variableID) := by
  have hdata : data moduleID deviceID variableID =
      moduleID ++ "." ++ ("data" ++ "." ++ (deviceID ++ "." ++ variableID)) := by
    apply String.toList_injective
    simp [data]
  rw [splitN4, hdata, splitKey_dot hm, Option.bind_some, splitKey_dot (by decide), Option.bind_some,
    splitKey_dot hd, Option.map_some]

/-- The key that the handler makes of the subject of a value. -/
def subjectKey (deviceID tagID : String) : String :=
  "modbus" ++ "." ++ sanitizeForSubject deviceID ++ "." ++ sanitizeForSubject tagID

section Handler

variable {moduleID deviceID tagID : String} {tag : ModbusTagConfig} {value : Json F64} {nowMs : Int}

/-- A value is set for the variables that are filed under its subject. -/
theorem handleScannerData_eq (tagIndex : GoMap String (List String)) (vs : VariableStore F64)
    (now : Int) :
    handleScannerData tagIndex vs (dataMessage moduleID deviceID tagID tag value nowMs) now =
      (filed tagIndex (subjectKey deviceID tagID)).foldl
        (fun vs varID => (vs.set varID value now).1) vs := by
  rw [handleScannerData, dataMessage,
    splitN4_data (by decide) (dot_not_mem_sanitize deviceID) (sanitizeForSubject tagID), filed]
  change (match tagIndex.lookup (subjectKey deviceID tagID) with
    | none => vs
    | some varIDs => varIDs.foldl (fun vs varID => (vs.set varID value now).1) vs) = _
  cases tagIndex.lookup (subjectKey deviceID tagID) with
  | none => rfl
  | some varIDs => rfl

/-- The bridge receives what the scanner publishes. -/
theorem match_dataWildcard :
    matchSubject (dataWildcard "modbus")
      (dataMessage moduleID deviceID tagID tag value nowMs).subject = true := by
  have hpattern : tokens (dataWildcard "modbus") = ["modbus".toList, "data".toList, ['>']] := by
    decide
  have hmodbus : '.' ∉ "modbus".toList := by decide
  rw [matchSubject, hpattern, dataMessage, tokens_data hmodbus (dot_not_mem_sanitize deviceID),
    matchTokens_cons (by decide) (by decide), matchTokens_cons (by decide) (by decide)]
  simp [matchTokens]

variable {sb : Bridge} {vs : VariableStore F64} {now : Int} {varID : String}

/-- A value reaches a variable that is filed under its subject. -/
theorem deliver_filed (hsub : dataWildcard "modbus" ∈ sb.subs) (hknown : vs.lookup varID ≠ none)
    (hfiled : varID ∈ filed sb.tagIndex (subjectKey deviceID tagID)) :
    ((deliver sb vs (dataMessage moduleID deviceID tagID tag value nowMs) now).lookup varID).map
      (·.value) = some value := by
  have hmatch : dataWildcard "modbus" ∈ sb.subs.filter fun pattern =>
      matchSubject pattern (dataMessage moduleID deviceID tagID tag value nowMs).subject :=
    List.mem_filter.mpr ⟨hsub, match_dataWildcard⟩
  have hstep : ∀ vs : VariableStore F64, vs.lookup varID ≠ none →
      ((handleScannerData sb.tagIndex vs (dataMessage moduleID deviceID tagID tag value nowMs)
        now).lookup varID).map (·.value) = some value := by
    intro vs hknown
    rw [handleScannerData_eq]
    exact value_foldl_set hknown (.inl hfiled)
  rw [deliver]
  -- the first of the handlers writes the value and the others write it again
  generalize sb.subs.filter (fun pattern =>
    matchSubject pattern (dataMessage moduleID deviceID tagID tag value nowMs).subject) = patterns
    at hmatch ⊢
  have hsome : patterns ≠ [] := List.ne_nil_of_mem hmatch
  clear hmatch
  induction patterns generalizing vs with
  | nil => exact absurd rfl hsome
  | cons pattern patterns ih =>
    have hvalue := hstep vs hknown
    rw [List.foldl_cons]
    cases patterns with
    | nil =>
      rw [List.foldl_nil]
      exact hvalue
    | cons pattern' patterns =>
      apply ih _ (List.cons_ne_nil _ _)
      intro hnone
      rw [hnone] at hvalue
      cases hvalue

/-- It leaves a variable that is not. -/
theorem deliver_not_filed (hfiled : varID ∉ filed sb.tagIndex (subjectKey deviceID tagID)) :
    (deliver sb vs (dataMessage moduleID deviceID tagID tag value nowMs) now).lookup varID =
      vs.lookup varID := by
  rw [deliver]
  induction sb.subs.filter fun pattern =>
      matchSubject pattern (dataMessage moduleID deviceID tagID tag value nowMs).subject
    generalizing vs with
  | nil => rfl
  | cons pattern patterns ih =>
    rw [List.foldl_cons, ih, handleScannerData_eq, lookup_foldl_set_other hfiled]

end Handler

/-! ## Delivery -/

/-- The input variable is configured with the Modbus device and the tag. -/
def Reads (config : PlcConfigKV) (deviceID tagID varID : String) : Prop :=
  ∃ vcfg src, config.variableConfigs.lookup varID = some vcfg ∧ vcfg.direction = "input" ∧
    vcfg.source = some src ∧ src.protocol = "modbus" ∧ src.deviceID = deviceID ∧ src.tag = tagID

/-- Every value that the scanner publishes for the device and the tag is written to every input
variable that is configured with them, whatever was set before. -/
def Delivered [GoFloat64 F64] [GoFloat64OfInt F64] (finite : F64 → Bool)
    (decode : JsonCodec.GoAny → Json F64) (plcID : String) (sb : Bridge) (config : PlcConfigKV)
    (deviceID tagID : String) : Prop :=
  ∀ (moduleID : String) (nowMs : Int) (dev : PolledDevice F64)
    (values : GoMap String (Reading F64)) (msg : BusMessage (PlcDataMessage F64)),
    dev.deviceID = deviceID → msg ∈ (publishChanges finite moduleID nowMs dev values).2 →
    msg.data.variableID = tagID →
    ∀ (started : Int) (sets : List (String × Json F64 × Int)) (now : Int) (varID : String),
      Reads config deviceID tagID varID →
      ((deliver (subscribe plcID sb (some config))
        (afterSets (registerVariables decode config started) sets) msg now).lookup varID).map
        (·.value) = some msg.data.value

/-- The ID is in a subject what it is in the config. -/
def SubjectSafe (deviceID : String) : Prop :=
  ∀ c ∈ deviceID.toList, c ∉ [' ', '.', ':', '*', '>', ';', '=']

/-- A name stays as it is exactly if it is safe. -/
theorem sanitize_eq_self_iff (s : String) : sanitizeForSubject s = s ↔ SubjectSafe s := by
  have hself : replaceChars [] s = s := by simp [replaceChars]
  have hiff := replaceChars_eq_iff [' ', '.', ':', '*', '>', ';', '='] [] s
  rw [hself] at hiff
  rw [sanitizeForSubject, hiff]
  refine forall₂_congr fun c _ => ?_
  simp only [List.not_mem_nil, iff_false]
  constructor
  · rintro (rfl | hnot)
    · decide
    · exact hnot
  · exact .inr

/-- The key of a subject is that of a source exactly if the name of the device is safe. -/
theorem subjectKey_eq_indexKey_iff {src : PlcVariableSourceKV} (h : src.protocol = "modbus") :
    subjectKey src.deviceID src.tag = indexKey src ↔ SubjectSafe src.deviceID := by
  rw [← sanitize_eq_self_iff, subjectKey, indexKey, h]
  constructor
  · intro heq
    have hlist := congrArg String.toList heq
    simp only [String.toList_append, List.append_assoc, List.append_cancel_left_eq] at hlist
    exact String.toList_inj.mp (List.append_cancel_right hlist)
  · intro heq
    rw [heq]

section Delivery

variable {plcID : String} {sb : Bridge} {config : PlcConfigKV} {deviceID tagID varID : String}

theorem mem_subs_of_reads (h : Reads config deviceID tagID varID) :
    dataWildcard "modbus" ∈ (subscribe plcID sb (some config)).subs := by
  obtain ⟨vcfg, src, hvar, hinput, hsrc, hprotocol, -⟩ := h
  refine List.mem_map_of_mem ?_
  rw [protocols, List.mem_dedup, List.mem_filterMap]
  refine ⟨⟨varID, vcfg⟩, (mem_entries_iff _ varID vcfg).mpr hvar, ?_⟩
  rw [if_pos hinput, hsrc, Option.map_some, hprotocol]

/-- The bridge finds a variable by the subject if it has filed it and under that key. -/
theorem mem_filed_of_reads (h : Reads config deviceID tagID varID) :
    varID ∈ filed (subscribe plcID sb (some config)).tagIndex (subjectKey deviceID tagID) ↔
      (config.devices.lookup deviceID).isSome ∧ SubjectSafe deviceID := by
  obtain ⟨vcfg, src, hvar, hinput, hsrc, hprotocol, rfl, rfl⟩ := h
  change varID ∈ filed (buildRequests plcID config).tagIndex _ ↔ _
  rw [mem_filed_buildRequests hvar, ← subjectKey_eq_indexKey_iff hprotocol,
    Option.isSome_iff_exists]
  simp only [inputSource_eq_some_iff, hsrc, Option.some.injEq]
  constructor
  · rintro ⟨_, device, ⟨-, rfl, hdevice⟩, hkey⟩
    exact ⟨⟨device, hdevice⟩, hkey⟩
  · rintro ⟨⟨device, hdevice⟩, hkey⟩
    exact ⟨src, device, ⟨hinput, rfl, hdevice⟩, hkey⟩

variable [GoFloat64 F64] [GoFloat64OfInt F64] {finite : F64 → Bool}
  {decode : JsonCodec.GoAny → Json F64}

/-- A device that has published nothing publishes what it reads. -/
theorem mem_publishChanges_first (moduleID deviceID tagID : String) (tag : ModbusTagConfig)
    (b : Bool) (nowMs : Int) :
    dataMessage moduleID deviceID tagID tag (Json.bool b : Json F64) nowMs ∈
      (publishChanges finite moduleID nowMs
        { deviceID := deviceID, allTags := AList.singleton tagID tag }
        (AList.singleton tagID (.bool b))).2 := by
  have hlookup : (AList.singleton tagID tag : GoMap String ModbusTagConfig).lookup tagID =
      some tag := (mem_entries_iff _ tagID tag).mp (by simp [AList.singleton_entries])
  simp [publishChanges, AList.singleton_entries, publishChange, hlookup, Reading.marshal]

/-- A variable of an unknown device, or of one whose name is not safe, gets no value. -/
theorem not_delivered (hreads : Reads config deviceID tagID varID)
    (h : ¬((config.devices.lookup deviceID).isSome ∧ SubjectSafe deviceID)) :
    ¬Delivered finite decode plcID sb config deviceID tagID := by
  intro hdelivered
  have hvar : (registerVariables decode config 0).lookup varID ≠ none := by
    obtain ⟨vcfg, _, hvar, -⟩ := hreads
    exact registerVariables_ne_none decode 0 hvar
  -- the variable is false, and true is published
  have hvalue := hdelivered "modbus" 0 _ _ _ rfl
    (mem_publishChanges_first "modbus" deviceID tagID
      { id := tagID, address := 0, functionCode := "coil", datatype := "boolean" } true 0) rfl 0
    [(varID, .bool false, 0)] 0 varID hreads
  rw [deliver_not_filed (mt (mem_filed_of_reads hreads).mp h), afterSets, List.foldl_cons,
    List.foldl_nil, VariableStore.value_set_self hvar] at hvalue
  cases hvalue

/-- Values reach the variables of a device exactly when the config has the device and its ID is
free of the characters that are replaced in a subject. -/
theorem delivered_iff_variables (finite : F64 → Bool) (decode : JsonCodec.GoAny → Json F64)
    (plcID : String) (sb : Bridge) (config : PlcConfigKV) (deviceID tagID : String) :
    Delivered finite decode plcID sb config deviceID tagID ↔
      (∀ varID, ¬Reads config deviceID tagID varID) ∨
        ((config.devices.lookup deviceID).isSome ∧ SubjectSafe deviceID) := by
  constructor
  · intro hdelivered
    by_contra hcond
    rw [not_or, not_forall] at hcond
    obtain ⟨⟨varID, hreads⟩, hunsafe⟩ := hcond
    exact not_delivered (not_not.mp hreads) hunsafe hdelivered
  · rintro (hnone | hsafe) moduleID nowMs dev values msg rfl hmsg rfl started sets now varID hreads
    · exact absurd hreads (hnone varID)
    · obtain ⟨tag, value, heq⟩ := mem_publishChanges hmsg
      have hknown : (afterSets (registerVariables decode config started) sets).lookup varID ≠
          none := by
        obtain ⟨vcfg, _, hvar, -⟩ := hreads
        exact afterSets_lookup_ne_none (registerVariables_ne_none decode started hvar) sets
      rw [heq]
      exact deliver_filed (mem_subs_of_reads hreads) hknown ((mem_filed_of_reads hreads).mpr hsafe)

end Delivery

/-- A device with a dot in its ID is filed with the dot, and its values come with an underscore. -/
def dottedConfig : PlcConfigKV where
  devices := AList.singleton "line.1" { protocol := "modbus", host := "10.0.0.5" }
  variableConfigs := AList.singleton "running"
    { id := "running", datatype := "boolean", direction := "input",
      source := some { protocol := "modbus", deviceID := "line.1", tag := "run" } }

theorem dottedConfig_not_delivered :
    ¬∀ (config : PlcConfigKV) (deviceID tagID : String),
      Delivered (fun _ : ℚ => true) (fun _ => .null) "plc" emptyBridge config deviceID tagID := by
  intro h
  have hreads : Reads dottedConfig "line.1" "run" "running" :=
    ⟨_, _, rfl, rfl, rfl, rfl, rfl, rfl⟩
  have hunsafe : ¬SubjectSafe "line.1" := by
    intro hsafe
    exact hsafe '.' (by decide) (by decide)
  exact not_delivered hreads (fun hcond => hunsafe hcond.2) (h dottedConfig "line.1" "run")

end PlcInputs
