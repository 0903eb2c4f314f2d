import Mathlib.Data.List.Induction
import Tentacle.GatewayVariables

/-!
# Scanner values in the gateway

`ApplyConfig` as far as it indexes the tags of the variables and of the UDT
members, the subscriptions to the scanners, and the way of a value from a
scanner's message to the variables. A key of the index is made of the protocol,
the sanitised device ID and the sanitised tag; the last two have no dots, so a
key determines all three.
-/

namespace GatewayRouting

open GoValues Rbe MqttBridge Subjects GatewayVariables

structure UdtMemberRef where
  variableID : String
  memberName : String
  deriving DecidableEq, Repr

/-- A subscription of the gateway, with what its handler has captured. -/
structure Subscription where
  subject : String
  protocol : String
  deviceID : String
  batch : Bool
  deriving DecidableEq, Repr

/-- The gateway after `ApplyConfig`. -/
structure Routing (F64 : Type) extends Gateway F64 where
  tagIndex : GoMap String (List String)
  udtMemberIndex : GoMap String (List UdtMemberRef)

/-- A value of a batch. -/
structure BatchValue (F64 : Type) where
  variableID : String
  value : Json F64
  datatype : String

def routingKey (protocol sanitizedDevice sanitizedTag : String) : String :=
  protocol ++ "." ++ sanitizedDevice ++ "." ++ sanitizedTag

/-- `index[key] = append(index[key], x)` for all pairs in order. -/
def indexPairs {α : Type} (pairs : List (String × α)) : GoMap String (List α) :=
  pairs.foldl (fun index p => index.insert p.1 ((index.lookup p.1).getD [] ++ [p.2])) ∅

variable {F64 : Type}

/-- What a variable adds to the index, if its device is known. -/
def tagEntry (config : GatewayConfig F64) (varID : String) (varCfg : GatewayVariableConfig F64) :
    Option (String × String) :=
  (config.devices.lookup varCfg.deviceID).map fun device =>
    (routingKey device.protocol (sanitizeForSubject varCfg.deviceID)
      (sanitizeForSubject varCfg.tag), varID)

/-- What a UDT variable adds, if its device and its template are known. -/
def memberEntries (config : GatewayConfig F64) (varID : String)
    (udtVar : GatewayUdtVariableConfig) : List (String × UdtMemberRef) :=
  match config.devices.lookup udtVar.deviceID, config.udtTemplates.lookup udtVar.templateName with
  | some device, some _ =>
    udtVar.memberTags.entries.map fun m =>
      (routingKey device.protocol (sanitizeForSubject udtVar.deviceID) (sanitizeForSubject m.2),
        ⟨varID, m.1⟩)
  | _, _ => []

def routing (config : GatewayConfig F64) : Routing F64 where
  toGateway := applyConfig config
  tagIndex := indexPairs (config.variableConfigs.entries.filterMap fun e => tagEntry config e.1 e.2)
  udtMemberIndex := indexPairs (config.udtVariables.entries.flatMap fun e =>
    memberEntries config e.1 e.2)

/-! ## Values -/

section Values

variable [GoFloat64 F64]

def outMessage (tv : TrackedVariable F64) (value : Json F64) (datatype : String) (nowMs : Int) :
    BusMessage (PlcDataMessage F64) where
  subject := data gatewayModuleID (sanitizeForSubject tv.config.deviceID)
    (sanitizeForSubject tv.config.tag)
  data :=
    { moduleID := gatewayModuleID
      deviceID := tv.config.deviceID
      variableID := tv.config.id
      value := value
      timestamp := nowMs
      datatype := if datatype = "" then tv.config.datatype else datatype
      description := tv.config.description
      deadband := tv.deadband
      disableRBE := tv.disableRBE
      historyEnabled := tv.config.historyEnabled }

/-- The body of the loop over the variables of a key. -/
def routeToVariable (value : Json F64) (datatype : String) (nowMs : Int)
    (s : GoMap String (TrackedVariable F64) × List (BusMessage (PlcDataMessage F64)))
    (varID : String) : GoMap String (TrackedVariable F64) × List (BusMessage (PlcDataMessage F64)) :=
  match s.1.lookup varID with
  | none => s
  | some tv =>
    if shouldPublish tv.rbeState value nowMs tv.deadband tv.disableRBE then
      (s.1.insert varID { tv with value := value, rbeState := recordPublish value nowMs },
        s.2 ++ [outMessage tv value datatype nowMs])
    else (s.1.insert varID { tv with value := value }, s.2)

/-- The body of the loop over the UDT members of a key; what `SetMember` does
besides is in the assembler. -/
def routeToMember (value : Json F64) (assemblers : GoMap String (UdtAssembler F64))
    (ref : UdtMemberRef) : GoMap String (UdtAssembler F64) :=
  match assemblers.lookup ref.variableID with
  | none => assemblers
  | some a => assemblers.insert ref.variableID
      { a with values := a.values.insert ref.memberName value }

def routeValue (r : Routing F64) (protocol deviceID sanitizedTag : String) (value : Json F64)
    (datatype : String) (nowMs : Int) : Routing F64 × List (BusMessage (PlcDataMessage F64)) :=
  let key := routingKey protocol (sanitizeForSubject deviceID) sanitizedTag
  let routed := ((r.tagIndex.lookup key).getD []).foldl (routeToVariable value datatype nowMs)
    (r.tracked, [])
  ({ r with
      tracked := routed.1
      udtAssemblers := ((r.udtMemberIndex.lookup key).getD []).foldl (routeToMember value)
        r.udtAssemblers },
    routed.2)

def handleScannerData (r : Routing F64) (subject : String) (dataMsg : PlcDataMessage F64)
    (protocol deviceID : String) (nowMs : Int) :
    Routing F64 × List (BusMessage (PlcDataMessage F64)) :=
  match fourthPart subject with
  | none => (r, [])
  | some tag => routeValue r protocol deviceID tag dataMsg.value dataMsg.datatype nowMs

def handleScannerBatchData (r : Routing F64) (values : List (BatchValue F64))
    (protocol deviceID : String) (nowMs : Int) :
    Routing F64 × List (BusMessage (PlcDataMessage F64)) :=
  values.foldl (fun s val =>
    let next := routeValue s.1 protocol deviceID (sanitizeForSubject val.variableID) val.value
      val.datatype nowMs
    (next.1, s.2 ++ next.2)) (r, [])

end Values

/-! ## Where a value arrives -/

/-- What takes a scanner's values: an atomic variable, or a member of a UDT variable. -/
inductive Target where
  | atomic (varID : String)
  | member (varID memberName : String)
  deriving DecidableEq, Repr

/-- What a target is configured to show. -/
structure Source where
  protocol : String
  deviceID : String
  tag : String
  deriving DecidableEq, Repr

def Source.key (src : Source) : String :=
  routingKey src.protocol (sanitizeForSubject src.deviceID) (sanitizeForSubject src.tag)

/-- The source of a target, if the gateway takes the target up. -/
def source (config : GatewayConfig F64) : Target → Option Source
  | .atomic varID =>
    (config.variableConfigs.lookup varID).bind fun varCfg =>
      (config.devices.lookup varCfg.deviceID).map fun device =>
        ⟨device.protocol, varCfg.deviceID, varCfg.tag⟩
  | .member varID memberName =>
    (config.udtVariables.lookup varID).bind fun udtVar =>
      (config.devices.lookup udtVar.deviceID).bind fun device =>
        (config.udtTemplates.lookup udtVar.templateName).bind fun _ =>
          (udtVar.memberTags.lookup memberName).map fun tag =>
            ⟨device.protocol, udtVar.deviceID, tag⟩

def Routing.valueOf (r : Routing F64) : Target → Option (Json F64)
  | .atomic varID => (r.tracked.lookup varID).map (·.value)
  | .member varID memberName => (r.udtAssemblers.lookup varID).bind (·.values.lookup memberName)

/-- The gateway has the indices of its config, and still all that it tracks. -/
structure Fits (config : GatewayConfig F64) (r : Routing F64) : Prop where
  config_eq : r.config = config
  tagIndex : r.tagIndex = (routing config).tagIndex
  udtMemberIndex : r.udtMemberIndex = (routing config).udtMemberIndex
  tracked : ∀ varID, (r.tracked.lookup varID).isSome =
    ((applyConfig config).tracked.lookup varID).isSome
  udtAssemblers : ∀ varID, (r.udtAssemblers.lookup varID).isSome =
    ((applyConfig config).udtAssemblers.lookup varID).isSome

theorem fits_routing (config : GatewayConfig F64) : Fits config (routing config) :=
  ⟨rfl, rfl, rfl, fun _ => rfl, fun _ => rfl⟩

/-- The index holds under each key what was paired with it, in order. -/
theorem lookup_indexPairs {α : Type} (pairs : List (String × α)) (key : String) :
    ((indexPairs pairs).lookup key).getD [] = (pairs.filter (·.1 = key)).map (·.2) := by
  induction pairs using List.reverseRecOn with
  | nil => simp [indexPairs]
  | append_singleton pairs p ih =>
    rw [indexPairs, List.foldl_append, List.foldl_cons, List.foldl_nil, ← indexPairs]
    by_cases hkey : key = p.1
    · subst hkey
      simp [AList.lookup_insert, ih]
    · have hne : p.1 ≠ key := Ne.symm hkey
      rw [AList.lookup_insert_ne hkey, ih]
      simp [hne]

/-- The two dots of a key are the last ones of it. -/
theorem routingKey_injective {p p' d d' t t' : String} (hd : '.' ∉ d.toList)
    (hd' : '.' ∉ d'.toList) (ht : '.' ∉ t.toList) (ht' : '.' ∉ t'.toList)
    (h : routingKey p d t = routingKey p' d' t') : p = p' ∧ d = d' ∧ t = t' := by
  have hchars : (p.toList ++ '.' :: d.toList) ++ '.' :: t.toList =
      (p'.toList ++ '.' :: d'.toList) ++ '.' :: t'.toList := by
    simpa [routingKey] using congrArg String.toList h
  obtain ⟨hfront, htag⟩ := append_dot_injective ht ht' hchars
  obtain ⟨hprotocol, hdevice⟩ := append_dot_injective hd hd' hfront
  exact ⟨String.toList_injective hprotocol, String.toList_injective hdevice,
    String.toList_injective htag⟩

/-- The index names a variable under the key of its source. -/
theorem mem_tagIndex_iff (config : GatewayConfig F64) (key varID : String) :
    varID ∈ ((routing config).tagIndex.lookup key).getD [] ↔
      ∃ src, source config (.atomic varID) = some src ∧ src.key = key := by
  simp only [routing, lookup_indexPairs, List.mem_map, List.mem_filter, List.mem_filterMap,
    decide_eq_true_eq, source, Option.bind_eq_some_iff, Option.map_eq_some_iff]
  constructor
  · rintro ⟨p, ⟨⟨e, he, hentry⟩, hkey⟩, rfl⟩
    obtain ⟨device, hdevice, rfl⟩ := Option.map_eq_some_iff.mp hentry
    exact ⟨_, ⟨e.2, (mem_entries_iff _ _ _).mp he, device, hdevice, rfl⟩, hkey⟩
  · rintro ⟨src, ⟨varCfg, hcfg, device, hdevice, rfl⟩, hkey⟩
    refine ⟨(key, varID), ⟨⟨⟨varID, varCfg⟩, (mem_entries_iff _ _ _).mpr hcfg, ?_⟩, rfl⟩, rfl⟩
    rw [tagEntry, hdevice, Option.map_some, ← hkey]
    rfl

/-- The same for the members of the UDT variables. -/
theorem mem_udtMemberIndex_iff (config : GatewayConfig F64) (key varID memberName : String) :
    ⟨varID, memberName⟩ ∈ ((routing config).udtMemberIndex.lookup key).getD [] ↔
      ∃ src, source config (.member varID memberName) = some src ∧ src.key = key := by
  simp only [routing, lookup_indexPairs, List.mem_map, List.mem_filter, List.mem_flatMap,
    decide_eq_true_eq, source, Option.bind_eq_some_iff, Option.map_eq_some_iff]
  constructor
  · rintro ⟨⟨key', ref⟩, ⟨⟨e, he, hentry⟩, rfl⟩, rfl⟩
    simp only [memberEntries] at hentry
    split at hentry
    next device tmpl hdevice htmpl =>
      obtain ⟨m, hm, heq⟩ := List.mem_map.mp hentry
      simp only [Prod.mk.injEq, UdtMemberRef.mk.injEq] at heq
      obtain ⟨hkey, rfl, rfl⟩ := heq
      exact ⟨_, ⟨e.2, (mem_entries_iff _ _ _).mp he, device, hdevice, tmpl, htmpl, m.2,
        (mem_entries_iff _ _ _).mp hm, rfl⟩, hkey⟩
    next => simp at hentry
  · rintro ⟨src, ⟨udtVar, hvar, device, hdevice, tmpl, htmpl, tag, htag, rfl⟩, hkey⟩
    refine ⟨(key, ⟨varID, memberName⟩), ⟨⟨⟨varID, udtVar⟩, (mem_entries_iff _ _ _).mpr hvar, ?_⟩,
      rfl⟩, rfl⟩
    simp only [memberEntries, hdevice, htmpl, List.mem_map]
    exact ⟨⟨memberName, tag⟩, (mem_entries_iff _ _ _).mpr htag, by rw [← hkey]; rfl⟩

/-- Routing to a member makes no assembler and drops none. -/
theorem isSome_routeToMember (value : Json F64) (assemblers : GoMap String (UdtAssembler F64))
    (ref : UdtMemberRef) (id : String) :
    ((routeToMember value assemblers ref).lookup id).isSome = (assemblers.lookup id).isSome := by
  rw [routeToMember]
  split
  · rfl
  next a ha =>
    by_cases hid : id = ref.variableID
    · subst hid
      simp [AList.lookup_insert, ha]
    · simp [AList.lookup_insert_ne hid]

/-- A value goes to the member that the reference names. -/
theorem value_routeToMember (value : Json F64) (assemblers : GoMap String (UdtAssembler F64))
    (ref : UdtMemberRef) (id memberName : String) :
    ((routeToMember value assemblers ref).lookup id).bind (·.values.lookup memberName) =
      (assemblers.lookup id).bind fun a =>
        if ⟨id, memberName⟩ = ref then some value else a.values.lookup memberName := by
  rw [routeToMember]
  split
  next hnone =>
    by_cases href : ⟨id, memberName⟩ = ref
    · subst href
      simp [hnone]
    · simp [href]
  next a ha =>
    by_cases hid : id = ref.variableID
    · subst hid
      by_cases hname : memberName = ref.memberName
      · subst hname
        simp [AList.lookup_insert, ha]
      · have hne : (⟨ref.variableID, memberName⟩ : UdtMemberRef) ≠ ref :=
          fun href => hname (congrArg UdtMemberRef.memberName href)
        simp [AList.lookup_insert, ha, AList.lookup_insert_ne hname, hne]
    · have hne : (⟨id, memberName⟩ : UdtMemberRef) ≠ ref :=
        fun href => hid (congrArg UdtMemberRef.variableID href)
      simp [AList.lookup_insert_ne hid, hne]

theorem isSome_routeMembers (value : Json F64) (refs : List UdtMemberRef)
    (assemblers : GoMap String (UdtAssembler F64)) (id : String) :
    ((refs.foldl (routeToMember value) assemblers).lookup id).isSome =
      (assemblers.lookup id).isSome := by
  induction refs generalizing assemblers with
  | nil => rfl
  | cons ref refs ih => rw [List.foldl_cons, ih, isSome_routeToMember]

/-- Along a list of references it goes to all of them, and to no other member. -/
theorem value_routeMembers (value : Json F64) (refs : List UdtMemberRef)
    (assemblers : GoMap String (UdtAssembler F64)) (id memberName : String) :
    ((refs.foldl (routeToMember value) assemblers).lookup id).bind
        (·.values.lookup memberName) =
      (assemblers.lookup id).bind fun a =>
        if ⟨id, memberName⟩ ∈ refs then some value else a.values.lookup memberName := by
  induction refs generalizing assemblers with
  | nil => simp
  | cons ref refs ih =>
    have hstep := value_routeToMember value assemblers ref id memberName
    rw [List.foldl_cons, ih]
    by_cases hmem : ⟨id, memberName⟩ ∈ refs
    · have hsome := isSome_routeToMember value assemblers ref id
      cases hs : assemblers.lookup id with
      | none => simp_all
      | some a =>
        rw [hs, Option.isSome_some, Option.isSome_iff_exists] at hsome
        obtain ⟨a', ha'⟩ := hsome
        simp [ha', hmem]
    · simpa [hmem, List.mem_cons] using hstep

/-- A target that is configured is taken up. -/
theorem Fits.taken {config : GatewayConfig F64} {r : Routing F64} (h : Fits config r)
    {target : Target} {src : Source} (hsrc : source config target = some src) :
    match target with
    | .atomic varID => (r.tracked.lookup varID).isSome
    | .member varID _ => (r.udtAssemblers.lookup varID).isSome := by
  cases target with
  | atomic varID =>
    simp only [source, Option.bind_eq_some_iff, Option.map_eq_some_iff] at hsrc
    obtain ⟨varCfg, hcfg, device, hdevice, -⟩ := hsrc
    simp [h.tracked, applyConfig, hcfg, hdevice]
  | member varID memberName =>
    simp only [source, Option.bind_eq_some_iff, Option.map_eq_some_iff] at hsrc
    obtain ⟨udtVar, hvar, device, hdevice, tmpl, htmpl, -⟩ := hsrc
    simp [h.udtAssemblers, applyConfig, hvar, hdevice, htmpl]

section Values

variable [GoFloat64 F64]

/-- The loop over the variables of a key keeps what is tracked. -/
theorem isSome_routeToVariable (value : Json F64) (datatype : String) (nowMs : Int)
    (s : GoMap String (TrackedVariable F64) × List (BusMessage (PlcDataMessage F64)))
    (varID id : String) :
    ((routeToVariable value datatype nowMs s varID).1.lookup id).isSome =
      (s.1.lookup id).isSome := by
  by_cases hid : id = varID
  · subst hid
    rw [routeToVariable]
    split
    · rfl
    next tv htv =>
      split <;> simp [AList.lookup_insert, htv]
  · rw [routeToVariable]
    split
    · rfl
    · split <;> simp [AList.lookup_insert_ne hid]

/-- A value goes to the variable of that name. -/
theorem value_routeToVariable (value : Json F64) (datatype : String) (nowMs : Int)
    (s : GoMap String (TrackedVariable F64) × List (BusMessage (PlcDataMessage F64)))
    (varID id : String) :
    ((routeToVariable value datatype nowMs s varID).1.lookup id).map (·.value) =
      (s.1.lookup id).map fun tv => if id = varID then value else tv.value := by
  by_cases hid : id = varID
  · subst hid
    rw [routeToVariable]
    split
    next hnone => simp [hnone]
    next tv htv => split <;> simp [AList.lookup_insert, htv]
  · rw [routeToVariable]
    split
    · simp [hid]
    · split <;> simp [AList.lookup_insert_ne hid]

theorem isSome_routeVariables (value : Json F64) (datatype : String) (nowMs : Int)
    (varIDs : List String)
    (s : GoMap String (TrackedVariable F64) × List (BusMessage (PlcDataMessage F64)))
    (id : String) :
    ((varIDs.foldl (routeToVariable value datatype nowMs) s).1.lookup id).isSome =
      (s.1.lookup id).isSome := by
  induction varIDs generalizing s with
  | nil => rfl
  | cons varID varIDs ih => rw [List.foldl_cons, ih, isSome_routeToVariable]

/-- Along a list of names it goes to all of them, and to no other variable. -/
theorem value_routeVariables (value : Json F64) (datatype : String) (nowMs : Int)
    (varIDs : List String)
    (s : GoMap String (TrackedVariable F64) × List (BusMessage (PlcDataMessage F64)))
    (id : String) :
    ((varIDs.foldl (routeToVariable value datatype nowMs) s).1.lookup id).map (·.value) =
      (s.1.lookup id).map fun tv => if id ∈ varIDs then value else tv.value := by
  induction varIDs generalizing s with
  | nil => simp
  | cons varID varIDs ih =>
    have hstep := value_routeToVariable value datatype nowMs s varID id
    rw [List.foldl_cons, ih]
    by_cases hmem : id ∈ varIDs
    · have hsome := isSome_routeToVariable value datatype nowMs s varID id
      cases hs : s.1.lookup id with
      | none => simp_all
      | some tv =>
        rw [hs, Option.isSome_some, Option.isSome_iff_exists] at hsome
        obtain ⟨tv', htv'⟩ := hsome
        simp [htv', hmem]
    · simpa [hmem, List.mem_cons] using hstep

/-- A value changes no index, so the routing fits the config as before. -/
theorem Fits.routeValue {config : GatewayConfig F64} {r : Routing F64} (h : Fits config r)
    (protocol deviceID sanitizedTag : String) (value : Json F64) (datatype : String)
    (nowMs : Int) :
    Fits config (routeValue r protocol deviceID sanitizedTag value datatype nowMs).1 where
  config_eq := h.config_eq
  tagIndex := h.tagIndex
  udtMemberIndex := h.udtMemberIndex
  tracked varID := by
    simp only [GatewayRouting.routeValue]
    rw [isSome_routeVariables, h.tracked]
  udtAssemblers varID := by
    simp only [GatewayRouting.routeValue]
    rw [isSome_routeMembers, h.udtAssemblers]

/-- A value arrives at the targets whose sources have its key, and nowhere else. -/
theorem valueOf_routeValue {config : GatewayConfig F64} {r : Routing F64} (h : Fits config r)
    (protocol deviceID sanitizedTag : String) (value : Json F64) (datatype : String)
    (nowMs : Int) (target : Target) :
    (routeValue r protocol deviceID sanitizedTag value datatype nowMs).1.valueOf target =
      if ∃ src, source config target = some src ∧
          src.key = routingKey protocol (sanitizeForSubject deviceID) sanitizedTag
      then some value else r.valueOf target := by
  cases target with
  | atomic varID =>
    simp only [routeValue, Routing.valueOf, value_routeVariables, h.tagIndex, mem_tagIndex_iff]
    split
    next hkey =>
      obtain ⟨src, hsrc, -⟩ := hkey
      obtain ⟨tv, htv⟩ := Option.isSome_iff_exists.mp (h.taken hsrc)
      simp [htv]
    next => rfl
  | member varID memberName =>
    simp only [routeValue, Routing.valueOf, value_routeMembers, h.udtMemberIndex,
      mem_udtMemberIndex_iff]
    split
    next hkey =>
      obtain ⟨src, hsrc, -⟩ := hkey
      obtain ⟨a, ha⟩ := Option.isSome_iff_exists.mp (h.taken hsrc)
      simp [ha]
    next => rfl

theorem Fits.handleScannerData {config : GatewayConfig F64} {r : Routing F64} (h : Fits config r)
    (subject : String) (dataMsg : PlcDataMessage F64) (protocol deviceID : String) (nowMs : Int) :
    Fits config (handleScannerData r subject dataMsg protocol deviceID nowMs).1 := by
  rw [GatewayRouting.handleScannerData]
  split
  · exact h
  · exact h.routeValue ..

/-- The values of a batch change no index either. -/
theorem Fits.handleScannerBatchData {config : GatewayConfig F64} {r : Routing F64}
    (h : Fits config r) (values : List (BatchValue F64)) (protocol deviceID : String)
    (nowMs : Int) :
    Fits config (handleScannerBatchData r values protocol deviceID nowMs).1 := by
  induction values using List.reverseRecOn with
  | nil => exact h
  | append_singleton values val ih =>
    rw [GatewayRouting.handleScannerBatchData, List.foldl_append]
    exact ih.routeValue ..

end Values

/-! ## Subscriptions -/

/-- Some variable or UDT variable is on the device. -/
def usesDevice (config : GatewayConfig F64) (deviceID : String) : Bool :=
  config.variableConfigs.entries.any (fun e => e.2.deviceID = deviceID) ||
    config.udtVariables.entries.any (fun e => e.2.deviceID = deviceID)

/-- `subscribeToDeviceLocked`, as far as it subscribes. -/
def subscribeToDevice (deviceID : String) (device : GatewayDeviceConfig F64) : List Subscription :=
  [⟨deviceWildcard device.protocol (sanitizeForSubject deviceID), device.protocol, deviceID, false⟩,
    ⟨deviceData device.protocol (sanitizeForSubject deviceID), device.protocol, deviceID, true⟩]

/-- `subscribeToScannersLocked`: the groups are the known devices that some
variable is on, and those of the gateway's own protocol are skipped. -/
def subscribeToScanners (config : GatewayConfig F64) : List Subscription :=
  (config.devices.entries.filter fun e =>
    usesDevice config e.1 && e.2.protocol ≠ gatewayModuleID).flatMap fun e =>
      subscribeToDevice e.1 e.2

/-- The device of a target is one that the gateway uses. -/
theorem usesDevice_of_source {config : GatewayConfig F64} {target : Target} {src : Source}
    (hsrc : source config target = some src) :
    usesDevice config src.deviceID = true ∧
      ∃ device, config.devices.lookup src.deviceID = some device ∧
        device.protocol = src.protocol := by
  cases target with
  | atomic varID =>
    simp only [source, Option.bind_eq_some_iff, Option.map_eq_some_iff] at hsrc
    obtain ⟨varCfg, hcfg, device, hdevice, rfl⟩ := hsrc
    refine ⟨?_, device, hdevice, rfl⟩
    rw [usesDevice, Bool.or_eq_true, List.any_eq_true]
    exact .inl ⟨⟨varID, varCfg⟩, (mem_entries_iff _ _ _).mpr hcfg, by simp⟩
  | member varID memberName =>
    simp only [source, Option.bind_eq_some_iff, Option.map_eq_some_iff] at hsrc
    obtain ⟨udtVar, hvar, device, hdevice, -, -, tag, -, rfl⟩ := hsrc
    refine ⟨?_, device, hdevice, rfl⟩
    rw [usesDevice, Bool.or_eq_true, List.any_eq_true, List.any_eq_true]
    exact .inr ⟨⟨varID, udtVar⟩, (mem_entries_iff _ _ _).mpr hvar, by simp⟩

/-- The subscriptions of a config are those of the devices it uses, but the
gateway's own. -/
theorem mem_subscribeToScanners_iff (config : GatewayConfig F64) (sub : Subscription) :
    sub ∈ subscribeToScanners config ↔
      ∃ deviceID device, config.devices.lookup deviceID = some device ∧
        usesDevice config deviceID = true ∧ device.protocol ≠ gatewayModuleID ∧
        sub ∈ subscribeToDevice deviceID device := by
  simp only [subscribeToScanners, List.mem_flatMap, List.mem_filter, Bool.and_eq_true,
    decide_eq_true_eq]
  constructor
  · rintro ⟨e, ⟨he, huses, hprotocol⟩, hsub⟩
    exact ⟨e.1, e.2, (mem_entries_iff _ _ _).mp he, huses, hprotocol, hsub⟩
  · rintro ⟨deviceID, device, hdevice, huses, hprotocol, hsub⟩
    exact ⟨⟨deviceID, device⟩, ⟨(mem_entries_iff _ _ _).mpr hdevice, huses, hprotocol⟩, hsub⟩

end GatewayRouting
