import Tentacle.GatewayRouting
import Tentacle.Runs

/-!
# The gateway on the bus

The gateway under any sequence of `ApplyConfig` calls and of messages from the
bus. The bus starts one handler for each subscription whose pattern matches; the
order in which they run is open. `ApplyConfig` takes down the subscriptions for
commands and requests; those to the scanners stay in `g.subs` until the module
stops.
-/

namespace GatewaySystem

open GoValues MqttBridge Subjects GatewayVariables GatewayRouting

variable {F64 : Type}

/-- What a message of a scanner decodes to. -/
inductive ScannerMessage (F64 : Type) where
  | value (message : PlcDataMessage F64)
  | batch (moduleID deviceID : String) (timestamp : Int) (values : List (BatchValue F64))

/-- A batch decoded as a single message has no value. -/
def ScannerMessage.dataMsg : ScannerMessage F64 → PlcDataMessage F64
  | .value message => message
  | .batch moduleID deviceID timestamp _ =>
    { moduleID := moduleID
      deviceID := deviceID
      timestamp := timestamp
      variableID := ""
      value := .null
      datatype := "" }

/-- A single message decoded as a batch has no values. -/
def ScannerMessage.values : ScannerMessage F64 → List (BatchValue F64)
  | .value _ => []
  | .batch _ _ _ values => values

/-- A message as the gateway receives it; `none` are bytes it cannot decode. -/
abbrev Publication (F64 : Type) := BusMessage (Option (ScannerMessage F64))

structure GatewayState (F64 : Type) extends Routing F64 where
  subs : List Subscription

/-- The maps while there is no config. -/
def noConfig : GatewayConfig F64 :=
  { devices := ∅
    variableConfigs := ∅
    udtTemplates := ∅
    udtVariables := ∅ }

def GatewayState.start : GatewayState F64 where
  toRouting := routing noConfig
  subs := []

def GatewayState.applyConfig (s : GatewayState F64) (config : Option (GatewayConfig F64)) :
    GatewayState F64 where
  toRouting := routing (config.getD noConfig)
  subs := s.subs ++ subscribeToScanners (config.getD noConfig)

/-- The subscriptions whose handlers the bus starts for a subject. -/
def handlers (subs : List Subscription) (subject : String) : List Subscription :=
  subs.filter fun sub => matchSubject sub.subject subject

section Delivery

variable [GoFloat64 F64]

/-- The handler of a subscription. -/
def handle (msg : Publication F64) (nowMs : Int) (r : Routing F64) (sub : Subscription) :
    Routing F64 :=
  match msg.data with
  | none => r
  | some m =>
    if sub.batch then (handleScannerBatchData r m.values sub.protocol sub.deviceID nowMs).1
    else (handleScannerData r msg.subject m.dataMsg sub.protocol sub.deviceID nowMs).1

def GatewayState.deliver (s : GatewayState F64) (msg : Publication F64)
    (order : List Subscription) (nowMs : Int) : GatewayState F64 :=
  { s with toRouting := order.foldl (handle msg nowMs) s.toRouting }

inductive GatewayAction (F64 : Type) where
  | applyConfig (config : Option (GatewayConfig F64))
  | deliver (msg : Publication F64) (order : List Subscription) (nowMs : Int)

def step (s : GatewayState F64) : GatewayAction F64 → Option (GatewayState F64)
  | .applyConfig config => some (s.applyConfig config)
  | .deliver msg order nowMs =>
    if order.Perm (handlers s.subs msg.subject) then some (s.deliver msg order nowMs) else none

/-- The gateway after some run that leaves it with the config. -/
def Running (config : GatewayConfig F64) (s : GatewayState F64) : Prop :=
  Runs.Reaches step GatewayState.start s ∧ s.config = config

end Delivery

/-! ## What the runs keep -/

/-- The pattern under which the gateway subscribes to a device. -/
def patternOf (batch : Bool) (protocol sanitizedDevice : String) : String :=
  if batch then deviceData protocol sanitizedDevice else deviceWildcard protocol sanitizedDevice

/-- A subscription that `subscribeToDeviceLocked` has made. -/
def OfDevice (sub : Subscription) : Prop :=
  sub.protocol ≠ gatewayModuleID ∧
    sub.subject = patternOf sub.batch sub.protocol (sanitizeForSubject sub.deviceID)

theorem ofDevice_of_mem {config : GatewayConfig F64} {sub : Subscription}
    (h : sub ∈ subscribeToScanners config) : OfDevice sub := by
  obtain ⟨deviceID, device, -, -, hprotocol, hsub⟩ := (mem_subscribeToScanners_iff _ _).mp h
  simp only [subscribeToDevice, List.mem_cons, List.not_mem_nil, or_false] at hsub
  obtain rfl | rfl := hsub
  · exact ⟨hprotocol, rfl⟩
  · exact ⟨hprotocol, rfl⟩

/-- The indices are those of the config, and all its subscriptions are there,
if not only these. -/
structure Inv (config : GatewayConfig F64) (s : GatewayState F64) : Prop where
  fits : Fits config s.toRouting
  subscribed : ∀ sub ∈ subscribeToScanners config, sub ∈ s.subs
  ofDevice : ∀ sub ∈ s.subs, OfDevice sub

theorem inv_start : Inv (GatewayState.start : GatewayState F64).config GatewayState.start :=
  ⟨fits_routing _, by simp [subscribeToScanners, noConfig, GatewayState.start, routing,
    applyConfig], by simp [GatewayState.start]⟩

section Delivery

variable [GoFloat64 F64]

/-- A message, whoever takes it, leaves the indexes of the config. -/
theorem fits_handle {config : GatewayConfig F64} {r : Routing F64} (h : Fits config r)
    (msg : Publication F64) (nowMs : Int) (sub : Subscription) :
    Fits config (handle msg nowMs r sub) := by
  rw [handle]
  split
  · exact h
  · split
    · exact h.handleScannerBatchData ..
    · exact h.handleScannerData ..

/-- A publication leaves the subscriptions and the routing of the config in force. -/
theorem Inv.deliver {config : GatewayConfig F64} {s : GatewayState F64} (h : Inv config s)
    (msg : Publication F64) (order : List Subscription) (nowMs : Int) :
    Inv config (s.deliver msg order nowMs) := by
  refine ⟨?_, h.subscribed, h.ofDevice⟩
  rw [GatewayState.deliver]
  have hfits := h.fits
  generalize s.toRouting = r at hfits
  induction order generalizing r with
  | nil => exact hfits
  | cons sub order ih => exact ih _ (fits_handle hfits msg nowMs sub)

/-- Each step leaves the gateway with the config that it has then. -/
theorem step_inv {s t : GatewayState F64} {act : GatewayAction F64} (hs : Inv s.config s)
    (hstep : step s act = some t) : Inv t.config t := by
  cases act with
  | applyConfig config =>
    cases hstep
    refine ⟨fits_routing _, ?_, ?_⟩
    · intro sub hsub
      exact List.mem_append_right _ hsub
    · intro sub hsub
      obtain hsub | hsub := List.mem_append.mp hsub
      · exact hs.ofDevice sub hsub
      · exact ofDevice_of_mem hsub
  | deliver msg order nowMs =>
    rw [step] at hstep
    split at hstep
    · cases hstep
      have hinv := hs.deliver msg order nowMs
      rwa [← hinv.fits.config_eq] at hinv
    · cases hstep

theorem Running.inv {config : GatewayConfig F64} {s : GatewayState F64} (h : Running config s) :
    Inv config s := by
  obtain ⟨⟨acts, hrun⟩, rfl⟩ := h
  exact Runs.run_preserves (fun _ _ _ => step_inv) inv_start hrun

theorem running_applyConfig (config : GatewayConfig F64) :
    Running config (GatewayState.start.applyConfig (some config)) :=
  ⟨.step (a := .applyConfig (some config)) rfl, rfl⟩

end Delivery

/-! ## Scanners -/

/-- The modules that publish values of devices, by the names of their protocols. -/
inductive ScannerModule where
  | ethernetip | opcua | snmp | modbus | profinetcontroller
  deriving DecidableEq, Repr

namespace ScannerModule

def protocol : ScannerModule → String
  | ethernetip => "ethernetip"
  | opcua => "opcua"
  | snmp => "snmp"
  | modbus => "modbus"
  | profinetcontroller => "profinetcontroller"

/-- What the scanner writes for a tag at the end of a subject. -/
def tagToken : ScannerModule → String → String
  | ethernetip => sanitizeTagForSubject
  | opcua => sanitizeNodeIDForSubject
  | snmp => sanitizeOidForSubject
  | modbus | profinetcontroller => sanitizeForSubject

/-- The subject under which the scanner publishes the values of a tag. -/
def subject (scanner : ScannerModule) (deviceID tag : String) : String :=
  data scanner.protocol (sanitizeForSubject deviceID) (scanner.tagToken tag)

theorem dot_not_mem_protocol (scanner : ScannerModule) : '.' ∉ scanner.protocol.toList := by
  cases scanner <;> decide

/-- The token of a tag is one token of a subject. -/
theorem dot_not_mem_tagToken (scanner : ScannerModule) (tag : String) :
    '.' ∉ (scanner.tagToken tag).toList := by
  cases scanner with
  | ethernetip => exact not_mem_replaceChars (by decide) (by decide) tag
  | opcua => exact not_mem_replaceChars (by decide) (by decide) tag
  | snmp => exact not_mem_replaceChars (by decide) (by decide) _
  | modbus => exact dot_not_mem_sanitize tag
  | profinetcontroller => exact dot_not_mem_sanitize tag

end ScannerModule

/-- A value of one tag on its way to the gateway, in a message of its own or in
a batch. -/
inductive ScannerValue (F64 : Type) where
  | single (message : PlcDataMessage F64)
  | batched (timestamp : Int) (value : Json F64) (datatype : String)

namespace ScannerValue

def value : ScannerValue F64 → Json F64
  | single message => message.value
  | batched _ value _ => value

def isBatch : ScannerValue F64 → Bool
  | single _ => false
  | batched .. => true

end ScannerValue

/-- The tag as the gateway looks it up: from the subject, or from the batch. -/
def tokenOf (batch : Bool) (scanner : ScannerModule) (tag : String) : String :=
  if batch then sanitizeForSubject tag else scanner.tagToken tag

def subjectOf (batch : Bool) (scanner : ScannerModule) (deviceID tag : String) : String :=
  if batch then deviceData scanner.protocol (sanitizeForSubject deviceID)
  else scanner.subject deviceID tag

def ScannerValue.publication (v : ScannerValue F64) (scanner : ScannerModule)
    (deviceID tag : String) : Publication F64 where
  subject := subjectOf v.isBatch scanner deviceID tag
  data :=
    match v with
    | single message => some (.value message)
    | batched timestamp value datatype =>
      some (.batch scanner.protocol deviceID timestamp [⟨tag, value, datatype⟩])

theorem dot_not_mem_tokenOf (batch : Bool) (scanner : ScannerModule) (tag : String) :
    '.' ∉ (tokenOf batch scanner tag).toList := by
  cases batch with
  | false => exact scanner.dot_not_mem_tagToken tag
  | true => exact dot_not_mem_sanitize tag

/-- A value of the tag arrives at what is configured with the source. -/
def Arrives (batch : Bool) (scanner : ScannerModule) (deviceID tag : String)
    (src : Source) : Prop :=
  src.protocol ≠ gatewayModuleID ∧ sanitizeForSubject src.tag = tokenOf batch scanner tag ∧
    matchSubject (patternOf batch src.protocol (sanitizeForSubject src.deviceID))
      (subjectOf batch scanner deviceID tag) = true

instance (batch : Bool) (scanner : ScannerModule) (deviceID tag : String) (src : Source) :
    Decidable (Arrives batch scanner deviceID tag src) :=
  inferInstanceAs (Decidable (_ ∧ _ ∧ _))

/-- Of a scanner's messages, the gateway's patterns match those of the protocol
and the sanitised device they are made of. -/
theorem matchSubject_patternOf_iff {protocol : String} (hplain : Plain protocol) (batch : Bool)
    (scanner : ScannerModule) (deviceID deviceID' tag : String) :
    matchSubject (patternOf batch protocol (sanitizeForSubject deviceID'))
        (subjectOf batch scanner deviceID tag) = true ↔
      protocol = scanner.protocol ∧ sanitizeForSubject deviceID' = sanitizeForSubject deviceID := by
  have hp := scanner.dot_not_mem_protocol
  cases batch with
  | false =>
    exact match_deviceWildcard_data_iff hplain (plain_sanitize _) hp (dot_not_mem_sanitize _) _
  | true => exact match_deviceData_iff hplain (plain_sanitize _) hp (dot_not_mem_sanitize _)

/-- The patterns for batches do not match single messages, nor the other way. -/
theorem matchSubject_patternOf_not {protocol : String} (hplain : Plain protocol) (batch : Bool)
    (scanner : ScannerModule) (deviceID deviceID' tag : String) :
    matchSubject (patternOf (!batch) protocol (sanitizeForSubject deviceID'))
      (subjectOf batch scanner deviceID tag) = false := by
  have hp := scanner.dot_not_mem_protocol
  cases batch with
  | false =>
    exact not_match_deviceData_data hplain (plain_sanitize _) hp (dot_not_mem_sanitize _) _
  | true =>
    exact not_match_deviceWildcard_deviceData hplain (plain_sanitize _) hp (dot_not_mem_sanitize _)

/-- Without wildcards for protocols, what shares a key has the same protocol, and
the sanitised names agree. -/
theorem arrives_iff {src : Source} (hplain : Plain src.protocol) (batch : Bool)
    (scanner : ScannerModule) (deviceID tag : String) :
    Arrives batch scanner deviceID tag src ↔
      src.protocol = scanner.protocol ∧
        sanitizeForSubject src.deviceID = sanitizeForSubject deviceID ∧
        sanitizeForSubject src.tag = tokenOf batch scanner tag := by
  rw [Arrives, matchSubject_patternOf_iff hplain]
  constructor
  · rintro ⟨-, htag, hprotocol, hdevice⟩
    exact ⟨hprotocol, hdevice, htag⟩
  · rintro ⟨hprotocol, hdevice, htag⟩
    refine ⟨?_, htag, hprotocol, hdevice⟩
    rw [hprotocol]
    cases scanner <;> decide

/-- There is always a value that a target does not have yet. -/
theorem exists_other_bool (old : Option (Json F64)) :
    ∃ b : Bool, some (Json.bool b : Json F64) ≠ old := by
  by_cases h : old = some (.bool true)
  · exact ⟨false, by simp [h]⟩
  · exact ⟨true, fun he => h he.symm⟩

section Delivery

variable [GoFloat64 F64]

/-- A handler of the right kind routes the value by the device that it has
captured; one of the other kind does nothing. -/
theorem valueOf_handle {config : GatewayConfig F64} {r : Routing F64} (h : Fits config r)
    (v : ScannerValue F64) (scanner : ScannerModule) (deviceID tag : String) (nowMs : Int)
    (sub : Subscription) (target : Target) :
    (handle (v.publication scanner deviceID tag) nowMs r sub).valueOf target =
      if sub.batch = v.isBatch ∧ ∃ src, source config target = some src ∧
          src.key = routingKey sub.protocol (sanitizeForSubject sub.deviceID)
            (tokenOf v.isBatch scanner tag)
      then some v.value else r.valueOf target := by
  have hdevice := dot_not_mem_sanitize deviceID
  cases v with
  | single message =>
    cases hbatch : sub.batch with
    | false =>
      simp [handle, hbatch, handleScannerData, ScannerValue.publication, subjectOf,
        ScannerModule.subject, fourthPart_data scanner.dot_not_mem_protocol hdevice,
        ScannerMessage.dataMsg, valueOf_routeValue h, ScannerValue.isBatch, tokenOf,
        ScannerValue.value]
    | true =>
      simp [handle, hbatch, handleScannerBatchData, ScannerValue.publication,
        ScannerMessage.values, ScannerValue.isBatch]
  | batched timestamp value datatype =>
    cases hbatch : sub.batch with
    | false =>
      simp [handle, hbatch, handleScannerData, ScannerValue.publication, subjectOf,
        fourthPart_deviceData scanner.dot_not_mem_protocol hdevice, ScannerValue.isBatch]
    | true =>
      simp [handle, hbatch, handleScannerBatchData, ScannerValue.publication,
        ScannerMessage.values, valueOf_routeValue h, ScannerValue.isBatch, tokenOf,
        ScannerValue.value]

/-- A value reaches a variable if one of the subscriptions that take it routes it there. -/
theorem valueOf_handles {config : GatewayConfig F64} {r : Routing F64} (h : Fits config r)
    (v : ScannerValue F64) (scanner : ScannerModule) (deviceID tag : String) (nowMs : Int)
    (order : List Subscription) (target : Target) :
    (order.foldl (handle (v.publication scanner deviceID tag) nowMs) r).valueOf target =
      if ∃ sub ∈ order, sub.batch = v.isBatch ∧ ∃ src, source config target = some src ∧
          src.key = routingKey sub.protocol (sanitizeForSubject sub.deviceID)
            (tokenOf v.isBatch scanner tag)
      then some v.value else r.valueOf target := by
  induction order generalizing r with
  | nil => simp
  | cons sub order ih =>
    rw [List.foldl_cons, ih (fits_handle h _ nowMs sub), valueOf_handle h]
    simp only [List.mem_cons, exists_eq_or_imp]
    split
    next hrest => rw [if_pos (.inr hrest)]
    next hrest => simp only [hrest, or_false]

/-- A value arrives where it should, whatever the order of the handlers and
whatever other subscriptions there are, and nothing else changes. -/
theorem valueOf_deliver {config : GatewayConfig F64} {s : GatewayState F64} (h : Inv config s)
    (v : ScannerValue F64) (scanner : ScannerModule) (deviceID tag : String) (nowMs : Int)
    {order : List Subscription}
    (horder : order.Perm (handlers s.subs (v.publication scanner deviceID tag).subject))
    (target : Target) :
    (s.deliver (v.publication scanner deviceID tag) order nowMs).valueOf target =
      if ∃ src, source config target = some src ∧ Arrives v.isBatch scanner deviceID tag src
      then some v.value else s.valueOf target := by
  rw [GatewayState.deliver, valueOf_handles h.fits]
  refine if_congr ⟨?_, ?_⟩ rfl rfl
  · rintro ⟨sub, hsub, hbatch, src, hsrc, hkey⟩
    obtain ⟨hmem, hmatch⟩ := List.mem_filter.mp (horder.mem_iff.mp hsub)
    obtain ⟨hprotocol, hsubject⟩ := h.ofDevice sub hmem
    obtain ⟨hp, hd, ht⟩ := routingKey_injective (dot_not_mem_sanitize _) (dot_not_mem_sanitize _)
      (dot_not_mem_sanitize _) (dot_not_mem_tokenOf _ scanner tag) hkey
    refine ⟨src, hsrc, hp ▸ hprotocol, ht, ?_⟩
    rwa [hsubject, hbatch, ← hp, ← hd] at hmatch
  · rintro ⟨src, hsrc, hprotocol, ht, hmatch⟩
    obtain ⟨huses, device, hdevice, hp⟩ := usesDevice_of_source hsrc
    -- the subscription that the config makes for the device of the target itself
    refine ⟨⟨patternOf v.isBatch src.protocol (sanitizeForSubject src.deviceID), src.protocol,
      src.deviceID, v.isBatch⟩,
      horder.mem_iff.mpr (List.mem_filter.mpr ⟨h.subscribed _ ?_, hmatch⟩), rfl, src, hsrc, ?_⟩
    · refine (mem_subscribeToScanners_iff _ _).mpr
        ⟨src.deviceID, device, hdevice, huses, hp ▸ hprotocol, ?_⟩
      cases v.isBatch with
      | false => simp [subscribeToDevice, patternOf, hp]
      | true => simp [subscribeToDevice, patternOf, hp]
    · rw [Source.key, ht]

end Delivery

end GatewaySystem
