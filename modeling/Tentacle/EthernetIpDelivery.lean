import Tentacle.EthernetIpScanner

/-!
# Values from EtherNet/IP in the gateway

The scanner and the gateway replace different characters in a tag. They agree on
the dots and colons of members and program-scoped names; the brackets of array
elements are replaced by the scanner only, and some other characters by the
gateway only. A value arrives exactly when the tag has none of these.
-/

namespace EthernetIpDelivery

open GoValues MqttBridge Subjects GatewayVariables GatewayRouting GatewaySystem
open EthernetIpScanner hiding step
open Runs

variable {F64 : Type}

/-- The characters that only one side replaces. -/
def unevenChars : List Char := ['[', ']', ' ', '*', '>', ';', '=']

/-- Both ends write a tag alike exactly if it has none of the characters that one of them keeps. -/
theorem sanitize_eq_iff (tag : String) :
    sanitizeForSubject tag = sanitizeTagForSubject tag ↔ ∀ c ∈ tag.toList, c ∉ unevenChars := by
  rw [sanitizeForSubject, sanitizeTagForSubject, replaceChars_eq_iff]
  refine forall₂_congr fun c _ => ?_
  constructor
  · intro h hc
    simp only [unevenChars, List.mem_cons, List.not_mem_nil, or_false] at hc
    obtain rfl | rfl | rfl | rfl | rfl | rfl | rfl := hc <;> revert h <;> decide
  · intro h
    simp only [unevenChars, List.mem_cons, List.not_mem_nil, or_false, not_or] at h
    obtain ⟨h1, h2, h3, h4, h5, h6, h7⟩ := h
    right
    simp [h1, h2, h3, h4, h5, h6, h7]

/-- The value arrives at what is configured with its own device and tag if both
sides write the tag the same way. -/
theorem arrives_own_iff (deviceID tag : String) :
    Arrives false .ethernetip deviceID tag ⟨"ethernetip", deviceID, tag⟩ ↔
      ∀ c ∈ tag.toList, c ∉ unevenChars := by
  have hplain : Plain "ethernetip" := ⟨by decide, by decide, by decide⟩
  rw [arrives_iff (show Plain (Source.mk "ethernetip" deviceID tag).protocol from hplain),
    ← sanitize_eq_iff]
  constructor
  · exact fun h => h.2.2
  · exact fun h => ⟨rfl, rfl, h⟩

/-- A published value is a message of the scanner for the device and the tag. -/
theorem publication_eq {finite : F64 → Bool} {conn : DeviceConnection F64}
    {v : Option (CachedVar F64)} {r : TagResult F64} {now : Int} {subject : String}
    {message : PlcDataMessage F64}
    (h : publication finite conn v r now = ⟨subject, some (.value message)⟩) :
    message.value = r.value ∧ (⟨subject, some (.value message)⟩ : Publication F64) =
      (ScannerValue.single message).publication .ethernetip conn.deviceID r.name := by
  simp only [publication, BusMessage.mk.injEq] at h
  obtain ⟨hsubject, hdata⟩ := h
  split at hdata
  · cases hdata
    refine ⟨rfl, ?_⟩
    rw [← hsubject]
    rfl
  · cases hdata

section Delivery

variable [GoFloat64 F64]

/-- Every value that the scanner publishes for the tag of the device is the value
of all that is configured with them, as soon as the gateway has handled it. -/
def Delivered (finite : F64 → Bool) (config : GatewayConfig F64) (deviceID tag : String) : Prop :=
  ∀ sc, Reaches (EthernetIpScanner.step finite) Scanner.start sc →
    ∀ conn, sc.connections.lookup deviceID = some conn → (conn.vars.lookup tag).isSome →
    ∀ (r : TagResult F64) (now : Int) (subject : String) (message : PlcDataMessage F64),
      r.name = tag →
      (publishResult finite now conn r).2 = some ⟨subject, some (.value message)⟩ →
    ∀ s, Running config s → ∀ order : List Subscription, order.Perm (handlers s.subs subject) →
    ∀ nowMs target, source config target = some ⟨"ethernetip", deviceID, tag⟩ →
      (s.deliver ⟨subject, some (.value message)⟩ order nowMs).valueOf target = some r.value

/-- What the scanner publishes for a result. -/
theorem publishResult_snd {finite : F64 → Bool} {now : Int} {conn : DeviceConnection F64}
    {r : TagResult F64} {pub : Publication F64}
    (h : (publishResult finite now conn r).2 = some pub) :
    ∃ v, pub = publication finite conn v r now := by
  rw [publishResult] at h
  split at h
  · exact ⟨none, (Option.some.inj h).symm⟩
  · dsimp only at h
    split at h
    · exact ⟨_, (Option.some.inj h).symm⟩
    · cases h

/-- A tag that no poll has read yet is published. -/
theorem publishResult_new (finite : F64 → Bool) (now : Int) {conn : DeviceConnection F64}
    {r : TagResult F64} {v : CachedVar F64} (hv : conn.vars.lookup r.name = some v)
    (hnew : v.rbeState = {}) :
    ∃ v', (publishResult finite now conn r).2 = some (publication finite conn v' r now) := by
  have hpublish : Rbe.shouldPublish (readVar r now v).rbeState r.value now (readVar r now v).deadband
      (readVar r now v).disableRBE = true := by
    rw [show (readVar r now v).rbeState = {} from hnew]
    simp [Rbe.shouldPublish]
  rw [publishResult, hv]
  dsimp only
  rw [if_pos hpublish]
  exact ⟨_, rfl⟩

/-- A tag without the characters that only one side replaces is delivered. -/
theorem delivered_of_even (finite : F64 → Bool) (config : GatewayConfig F64)
    {deviceID tag : String} (heven : ∀ c ∈ tag.toList, c ∉ unevenChars) :
    Delivered finite config deviceID tag := by
  intro sc hsc conn hconn _ r now subject message hname hpub s hs order horder nowMs target hsrc
  obtain ⟨v, hv⟩ := publishResult_snd hpub
  obtain ⟨hvalue, heq⟩ := publication_eq hv.symm
  rw [(keyed_of_reaches finite hsc _ _ hconn).1, hname] at heq
  have hsubject : subject =
      ((ScannerValue.single message).publication .ethernetip deviceID tag).subject := by rw [← heq]
  rw [hsubject] at horder
  rw [heq, valueOf_deliver hs.inv _ _ _ _ _ horder,
    if_pos ⟨_, hsrc, (arrives_own_iff deviceID tag).mpr heven⟩]
  exact congrArg some hvalue

/-- A tag that is delivered to a target has none of the characters that one end keeps. -/
theorem Delivered.even {finite : F64 → Bool} {config : GatewayConfig F64} {deviceID tag : String}
    (h : Delivered finite config deviceID tag) (hne : deviceID ≠ "") {target : Target}
    (hsrc : source config target = some ⟨"ethernetip", deviceID, tag⟩) :
    ∀ c ∈ tag.toList, c ∉ unevenChars := by
  rw [← arrives_own_iff deviceID tag]
  by_contra hnot
  -- the first reading of the tag, with a value that the target does not show yet
  obtain ⟨sc, hsc, conn, v, hconn, hv, hnew⟩ := exists_connection finite hne tag
  have hrunning := running_applyConfig config
  generalize GatewayState.start.applyConfig (some config) = s at hrunning
  obtain ⟨b, hb⟩ := exists_other_bool (s.valueOf target)
  let r : TagResult F64 := ⟨tag, .bool b, "BOOL"⟩
  obtain ⟨v', hpub⟩ := publishResult_new finite 1 (r := r) hv hnew
  have hdeliver := h sc hsc conn hconn (by simp [hv]) r 1 _ _ rfl hpub s hrunning _ (.refl _) 0
    target hsrc
  have hvalue := valueOf_deliver hrunning.inv (.single (dataMessage conn v' r 1)) .ethernetip
    conn.deviceID tag 0 (.refl _) target
  rw [if_neg ?_] at hvalue
  · exact hb (hdeliver.symm.trans hvalue)
  · rintro ⟨src, hsrc', harrives⟩
    rw [hsrc, Option.some.injEq] at hsrc'
    subst hsrc'
    rw [(keyed_of_reaches finite hsc _ _ hconn).1] at harrives
    exact hnot harrives

/-- The values of a tag are delivered exactly when the tag has no character that
only one side replaces, or nobody waits for them. -/
theorem delivered_iff (finite : F64 → Bool) (config : GatewayConfig F64) (deviceID tag : String) :
    Delivered finite config deviceID tag ↔
      deviceID = "" ∨
        (∀ target, source config target ≠ some ⟨"ethernetip", deviceID, tag⟩) ∨
        ∀ c ∈ tag.toList, c ∉ unevenChars := by
  constructor
  · intro h
    by_cases hempty : deviceID = ""
    · exact .inl hempty
    · by_cases hwaits : ∃ target, source config target = some ⟨"ethernetip", deviceID, tag⟩
      · obtain ⟨target, hsrc⟩ := hwaits
        exact .inr (.inr (h.even hempty hsrc))
      · exact .inr (.inl (not_exists.mp hwaits))
  · rintro (rfl | hnone | heven)
    · intro sc hsc conn hconn
      exact absurd rfl (keyed_of_reaches finite hsc _ _ hconn).2
    · intro _ _ _ _ _ _ _ _ _ _ _ _ _ _ _ _ target hsrc
      exact absurd hsrc (hnone target)
    · exact delivered_of_even finite config heven

end Delivery

/-- A variable for an element of an array. -/
def recipeConfig : GatewayConfig ℚ where
  devices := AList.singleton "plc1" { protocol := "ethernetip" }
  variableConfigs := AList.singleton "setpoint"
    { id := "setpoint", deviceID := "plc1", tag := "Recipe[3]", datatype := "number" }
  udtTemplates := ∅
  udtVariables := ∅

/-- The values of `Recipe[3]` do not arrive. -/
theorem array_element_not_delivered :
    ¬ Delivered (fun _ => true) recipeConfig "plc1" "Recipe[3]" := by
  intro h
  have hsource : source recipeConfig (.atomic "setpoint") =
      some ⟨"ethernetip", "plc1", "Recipe[3]"⟩ := rfl
  exact h.even (by decide) hsource '[' (by decide) (by decide)

end EthernetIpDelivery
