import Tentacle.SnmpScanner

/-!
# Values from SNMP in the gateway

An OID may be configured with or without a leading dot. The scanner keeps the
spelling that it was given and looks the answers up with the dot, so an OID
without it is never found; and what it finds it publishes without the dot, while
the gateway replaces the dot by an underscore. A value reaches the variables with
its OID exactly when somebody has asked for the OID with the dot and all of them
are configured without it.
-/

namespace SnmpDelivery

open GoValues MqttBridge Subjects GatewayVariables GatewayRouting GatewaySystem SnmpScanner Runs
open SnmpScanner (step)

/-- An OID, written without the leading dot. -/
structure Oid where
  text : String
  numeric : ∀ c ∈ text.toList, c.isDigit = true ∨ c = '.'

/-- The name under which the library answers. -/
def Oid.dotted (oid : Oid) : String := "." ++ oid.text

/-- What is configured with the OID on the device, in either spelling. -/
def HasOid (deviceID : String) (oid : Oid) (src : Source) : Prop :=
  src.protocol = "snmp" ∧ src.deviceID = deviceID ∧
    (src.tag = oid.text ∨ src.tag = oid.dotted)

variable {F64 : Type}

section Answers

variable [GoFloat64 F64] (decodeNumber : Int → F64) (resolveOidName : String → String)

/-- The gateway after a PDU has been handled. -/
def afterPdu (s : GatewayState F64) (now : Int) (conn : DeviceConnection) (pdu : SnmpPdu)
    (order : List Subscription) (nowMs : Int) : GatewayState F64 :=
  match (handlePdu decodeNumber resolveOidName now conn pdu).2 with
  | none => s
  | some pub => s.deliver pub order nowMs

/-- Each value that is answered for the OID and is new to the scanner reaches
what is configured with the OID, and nothing else. -/
def DeliveredExactly (config : GatewayConfig F64) (deviceID : String) (conn : DeviceConnection)
    (oid : Oid) : Prop :=
  ∀ pdu : SnmpPdu, pdu.name = oid.dotted → pdu.type.isError = false →
    (∀ v, conn.vars.lookup pdu.name = some v → v.value ≠ pdu.value) →
    ∀ s, Running config s → ∀ now (order : List Subscription) nowMs,
      order.Perm (handlers s.subs (subjectOf false .snmp conn.deviceID pdu.name)) →
      ∀ target,
        (∀ src, source config target = some src → HasOid deviceID oid src →
          (afterPdu decodeNumber resolveOidName s now conn pdu order nowMs).valueOf target =
            some (pdu.value.toJson decodeNumber)) ∧
        ((∀ src, source config target = some src → ¬ HasOid deviceID oid src) →
          (afterPdu decodeNumber resolveOidName s now conn pdu order nowMs).valueOf target =
            s.valueOf target)

end Answers

/-! ## Spellings -/

theorem sanitizeOid_dotted (oid : Oid) :
    sanitizeOidForSubject oid.dotted = replaceChars ['.'] oid.text := by
  have hchars : oid.dotted.toList = '.' :: oid.text.toList := by simp [Oid.dotted]
  have htrim : trimDot oid.dotted = oid.text := by
    rw [trimDot, hchars]
    exact String.ofList_toList
  rw [sanitizeOidForSubject, htrim]

/-- Without the dot, both sides write the OID the same way. -/
theorem sanitize_text (oid : Oid) :
    sanitizeForSubject oid.text = sanitizeOidForSubject oid.dotted := by
  rw [sanitizeOid_dotted, sanitizeForSubject, replaceChars_eq_iff]
  intro c hc
  right
  obtain hdigit | rfl := oid.numeric c hc
  · have hne : ∀ d, d.isDigit = false → c ≠ d := by
      rintro d hd rfl
      rw [hd] at hdigit
      cases hdigit
    simp [hne ' ' rfl, hne '.' rfl, hne ':' rfl, hne '*' rfl, hne '>' rfl, hne ';' rfl, hne '=' rfl]
  · decide

/-- With the dot, the gateway's name is longer by one. -/
theorem sanitize_dotted_ne (oid : Oid) :
    sanitizeForSubject oid.dotted ≠ sanitizeOidForSubject oid.dotted := by
  intro h
  rw [sanitizeOid_dotted] at h
  have hlength := congrArg (fun s => s.toList.length) h
  simp [sanitizeForSubject, replaceChars, Oid.dotted] at hlength

/-- Of the sources with an object identifier those arrive that write it as the answer does. -/
theorem arrives_of_hasOid {deviceID : String} {oid : Oid} {src : Source}
    (h : HasOid deviceID oid src) :
    Arrives false .snmp deviceID oid.dotted src ↔ src.tag = oid.text := by
  obtain ⟨hprotocol, hdevice, htag⟩ := h
  have hplain : Plain src.protocol := by
    rw [hprotocol]
    exact ⟨by decide, by decide, by decide⟩
  rw [arrives_iff hplain]
  constructor
  · rintro ⟨-, -, htoken⟩
    obtain htag | htag := htag
    · exact htag
    · rw [htag] at htoken
      exact absurd htoken (sanitize_dotted_ne oid)
  · intro htag
    refine ⟨hprotocol, by rw [hdevice], ?_⟩
    rw [htag]
    exact sanitize_text oid

/-- A value that neither the scanner nor the target has. -/
theorem exists_new_value (decodeNumber : Int → F64) (cached : Option PduValue)
    (old : Option (Json F64)) :
    ∃ value : PduValue, some value ≠ cached ∧ some (value.toJson decodeNumber) ≠ old := by
  by_contra hnone
  have hall : ∀ text : String, cached = some (.string text) ∨ old = some (.string text) := by
    intro text
    by_contra hnot
    rw [not_or] at hnot
    exact hnone ⟨.string text, fun h => hnot.1 h.symm, fun h => hnot.2 h.symm⟩
  obtain ha | ha := hall "a" <;> obtain hb | hb := hall "b" <;> obtain hc | hc := hall "c" <;>
    simp_all

section Answers

variable (decodeNumber : Int → F64) (resolveOidName : String → String)

/-- A new value is published if the OID is known with the dot, and dropped
otherwise. -/
theorem handlePdu_new {now : Int} {conn : DeviceConnection} {pdu : SnmpPdu}
    (hok : pdu.type.isError = false)
    (hnew : ∀ v, conn.vars.lookup pdu.name = some v → v.value ≠ pdu.value) :
    (handlePdu decodeNumber resolveOidName now conn pdu).2 =
      if (conn.vars.lookup pdu.name).isSome then
        some ((ScannerValue.single (dataMessage decodeNumber resolveOidName conn pdu now)).publication
          .snmp conn.deviceID pdu.name)
      else none := by
  rw [handlePdu]
  cases hv : conn.vars.lookup pdu.name with
  | none => rfl
  | some v =>
    simp only [hok, Bool.false_eq_true, if_false, Option.isSome_some, if_true, if_pos (hnew v hv)]
    rfl

variable [GoFloat64 F64]

/-- What a target shows after a new value has been handled. -/
theorem valueOf_afterPdu {config : GatewayConfig F64} {s : GatewayState F64}
    (hs : Running config s) {now : Int} {conn : DeviceConnection} {pdu : SnmpPdu}
    (hok : pdu.type.isError = false)
    (hnew : ∀ v, conn.vars.lookup pdu.name = some v → v.value ≠ pdu.value)
    {order : List Subscription}
    (horder : order.Perm (handlers s.subs (subjectOf false .snmp conn.deviceID pdu.name)))
    (nowMs : Int) (target : Target) :
    (afterPdu decodeNumber resolveOidName s now conn pdu order nowMs).valueOf target =
      if (conn.vars.lookup pdu.name).isSome ∧ ∃ src, source config target = some src ∧
          Arrives false .snmp conn.deviceID pdu.name src
      then some (pdu.value.toJson decodeNumber) else s.valueOf target := by
  rw [afterPdu, handlePdu_new decodeNumber resolveOidName hok hnew]
  cases hv : (conn.vars.lookup pdu.name).isSome with
  | false => simp
  | true =>
    simp only [if_true, true_and]
    exact valueOf_deliver hs.inv (.single (dataMessage decodeNumber resolveOidName conn pdu now))
      .snmp conn.deviceID pdu.name nowMs horder target

/-- When the values of the OID are delivered: whatever is configured with the OID
is configured without the dot, while the scanner has been asked for it with the
dot, and what else the scanner's subject leads to is nothing. -/
def Deliverable (config : GatewayConfig F64) (deviceID : String) (conn : DeviceConnection)
    (oid : Oid) : Prop :=
  (∀ target src, source config target = some src → HasOid deviceID oid src →
    (conn.vars.lookup oid.dotted).isSome ∧ src.tag = oid.text) ∧
  ((conn.vars.lookup oid.dotted).isSome → ∀ target src, source config target = some src →
    Arrives false .snmp deviceID oid.dotted src → HasOid deviceID oid src)

variable {decodeNumber resolveOidName}

/-- An answer that is written as its source is delivered to it. -/
theorem Deliverable.deliveredExactly {config : GatewayConfig F64} {conn : DeviceConnection}
    {oid : Oid} (h : Deliverable config conn.deviceID conn oid) :
    DeliveredExactly decodeNumber resolveOidName config conn.deviceID conn oid := by
  rintro ⟨name, type, value⟩ rfl hok hnew s hs now order nowMs horder target
  rw [valueOf_afterPdu decodeNumber resolveOidName hs hok hnew horder]
  constructor
  · intro src hsrc hoid
    obtain ⟨hknown, htag⟩ := h.1 target src hsrc hoid
    rw [if_pos ⟨hknown, src, hsrc, (arrives_of_hasOid hoid).mpr htag⟩]
  · intro hnone
    rw [if_neg]
    rintro ⟨hknown, src, hsrc, harrives⟩
    exact hnone src hsrc (h.2 hknown target src hsrc harrives)

/-- An answer that is delivered to its source is written as it is. -/
theorem DeliveredExactly.deliverable {config : GatewayConfig F64} {conn : DeviceConnection}
    {oid : Oid} (h : DeliveredExactly decodeNumber resolveOidName config conn.deviceID conn oid) :
    Deliverable config conn.deviceID conn oid := by
  -- right after the config is applied, a value that is new to the scanner and to the target
  have hvalue : ∀ target, ∃ s, Running config s ∧ ∃ pdu : SnmpPdu, pdu.name = oid.dotted ∧
      pdu.type.isError = false ∧
      (∀ v, conn.vars.lookup pdu.name = some v → v.value ≠ pdu.value) ∧
      some (pdu.value.toJson decodeNumber) ≠ s.valueOf target := by
    intro target
    refine ⟨_, running_applyConfig config, ?_⟩
    obtain ⟨value, hcached, hold⟩ := exists_new_value decodeNumber
      ((conn.vars.lookup oid.dotted).map (·.value))
      ((GatewayState.start.applyConfig (some config)).valueOf target)
    refine ⟨⟨oid.dotted, .octetString, value⟩, rfl, rfl, ?_, hold⟩
    rintro v hv rfl
    exact hcached (by rw [hv]; rfl)
  refine ⟨?_, ?_⟩
  · intro target src hsrc hoid
    obtain ⟨s, hs, ⟨name, type, value⟩, rfl, hok, hnew, hold⟩ := hvalue target
    have hreached := (h _ rfl hok hnew s hs 0 _ 0 (.refl _) target).1 src hsrc hoid
    rw [valueOf_afterPdu decodeNumber resolveOidName hs hok hnew (.refl _)] at hreached
    split at hreached
    next harrives =>
      obtain ⟨hknown, src', hsrc', harrives⟩ := harrives
      rw [hsrc, Option.some.injEq] at hsrc'
      subst hsrc'
      exact ⟨hknown, (arrives_of_hasOid hoid).mp harrives⟩
    next => exact absurd hreached.symm hold
  · intro hknown target src hsrc harrives
    by_contra hnot
    obtain ⟨s, hs, ⟨name, type, value⟩, rfl, hok, hnew, hold⟩ := hvalue target
    have hunchanged := (h _ rfl hok hnew s hs 0 _ 0 (.refl _) target).2 (by
      intro src' hsrc'
      rw [hsrc, Option.some.injEq] at hsrc'
      exact hsrc' ▸ hnot)
    rw [valueOf_afterPdu decodeNumber resolveOidName hs hok hnew (.refl _),
      if_pos ⟨hknown, src, hsrc, harrives⟩] at hunchanged
    exact hold hunchanged

/-- In every state of the scanner, the answers for an OID of a device reach what
is configured with it exactly when they are deliverable. -/
theorem delivered_exactly_iff {config : GatewayConfig F64} {sc : Scanner}
    (hsc : Reaches (step decodeNumber resolveOidName) Scanner.start sc) {deviceID : String}
    {conn : DeviceConnection} (hconn : sc.connections.lookup deviceID = some conn) (oid : Oid) :
    DeliveredExactly decodeNumber resolveOidName config deviceID conn oid ↔
      Deliverable config deviceID conn oid := by
  obtain rfl := keyed_of_reaches decodeNumber resolveOidName hsc deviceID conn hconn
  exact ⟨DeliveredExactly.deliverable, Deliverable.deliveredExactly⟩

end Answers

/-- A variable for the uptime of a switch, under the given spelling of its OID. -/
def uptimeConfig (tag : String) : GatewayConfig ℚ where
  devices := AList.singleton "sw1" { protocol := "snmp" }
  variableConfigs := AList.singleton "uptime"
    { id := "uptime", deviceID := "sw1", tag := tag, datatype := "number" }
  udtTemplates := ∅
  udtVariables := ∅

def sysUpTime : Oid := ⟨"1.3.6.1.2.1.1.3.0", by simp⟩

/-- A request for OIDs of the switch. -/
def uptimeRequest (oids : List String) : SubscribeRequest :=
  { deviceID := "sw1", host := "10.0.0.9", oids := oids, subscriberID := "gateway-gateway" }

/-- The connection that the request makes. -/
def uptimeConnection (oids : List String) : DeviceConnection :=
  oids.foldl (subscribeOid (uptimeRequest oids)) (newConnection (uptimeRequest oids))

/-- The variable without the dot is reached while the OID is also asked for with
the dot. -/
theorem uptime_delivered :
    DeliveredExactly (fun n => (n : ℚ)) id (uptimeConfig "1.3.6.1.2.1.1.3.0") "sw1"
      (uptimeConnection ["1.3.6.1.2.1.1.3.0", ".1.3.6.1.2.1.1.3.0"]) sysUpTime := by
  have hreaches : Reaches (step (fun n => (n : ℚ)) id) Scanner.start
      (handleSubscribe Scanner.start
        (uptimeRequest ["1.3.6.1.2.1.1.3.0", ".1.3.6.1.2.1.1.3.0"]) (.ok ())).1 :=
    .step (a := .subscribe _ _) rfl
  apply (delivered_exactly_iff hreaches rfl sysUpTime).mpr
  have honly : ∀ target src, source (uptimeConfig "1.3.6.1.2.1.1.3.0") target = some src →
      src = ⟨"snmp", "sw1", "1.3.6.1.2.1.1.3.0"⟩ := by
    intro target src hsrc
    cases target with
    | atomic varID =>
      simp only [source, Option.bind_eq_some_iff, Option.map_eq_some_iff] at hsrc
      obtain ⟨varCfg, hcfg, device, hdevice, rfl⟩ := hsrc
      obtain ⟨-, rfl⟩ := eq_of_lookup_singleton hcfg
      cases hdevice
      rfl
    | member varID memberName => cases hsrc
  refine ⟨?_, ?_⟩
  · intro target src hsrc _
    rw [honly target src hsrc]
    exact ⟨by decide, rfl⟩
  · intro _ target src hsrc _
    rw [honly target src hsrc]
    exact ⟨rfl, rfl, .inl rfl⟩

/-- With the dot, as the library spells it, the variable is not reached. -/
theorem dotted_uptime_not_delivered :
    ∃ sc, Reaches (step (fun n => (n : ℚ)) id) Scanner.start sc ∧
      sc.connections.lookup "sw1" = some (uptimeConnection [".1.3.6.1.2.1.1.3.0"]) ∧
      ¬ DeliveredExactly (fun n => (n : ℚ)) id (uptimeConfig ".1.3.6.1.2.1.1.3.0") "sw1"
        (uptimeConnection [".1.3.6.1.2.1.1.3.0"]) sysUpTime := by
  refine ⟨(handleSubscribe Scanner.start (uptimeRequest [".1.3.6.1.2.1.1.3.0"]) (.ok ())).1,
    .step (a := .subscribe _ _) rfl, rfl, ?_⟩
  intro h
  have hsource : source (uptimeConfig ".1.3.6.1.2.1.1.3.0") (.atomic "uptime") =
      some ⟨"snmp", "sw1", ".1.3.6.1.2.1.1.3.0"⟩ := rfl
  have hdeliverable : Deliverable (uptimeConfig ".1.3.6.1.2.1.1.3.0") "sw1"
      (uptimeConnection [".1.3.6.1.2.1.1.3.0"]) sysUpTime := DeliveredExactly.deliverable h
  exact absurd (hdeliverable.1 _ _ hsource ⟨rfl, rfl, .inr rfl⟩).2 (by decide)

end SnmpDelivery
