import Tentacle.GatewaySystem

/-!
# Whose values a variable shows

The key by which a value finds its variables is made of sanitised names, and so
is the subject it arrives under. Names that differ only in characters that are
replaced share a key: a value for one of them is written to the variables of all.
The condition below is exactly that this does not happen.
-/

namespace GatewayIsolation

open GoValues MqttBridge Subjects GatewayVariables GatewayRouting GatewaySystem

variable {F64 : Type}

/-- A value that the scanner has for the tag of the device changes nothing that
is not configured with this device and this tag. -/
def Isolated [GoFloat64 F64] (config : GatewayConfig F64) (batch : Bool) (scanner : ScannerModule)
    (deviceID tag : String) : Prop :=
  ∀ s, Running config s → ∀ v : ScannerValue F64, v.isBatch = batch → ∀ order : List Subscription,
    order.Perm (handlers s.subs (v.publication scanner deviceID tag).subject) → ∀ nowMs target,
      (s.deliver (v.publication scanner deviceID tag) order nowMs).valueOf target ≠
        s.valueOf target →
      ∃ src, source config target = some src ∧ src.deviceID = deviceID ∧ src.tag = tag

/-- No other device or tag of the config is taken for these. -/
def NoAlias (config : GatewayConfig F64) (batch : Bool) (scanner : ScannerModule)
    (deviceID tag : String) : Prop :=
  ∀ target src, source config target = some src → Arrives batch scanner deviceID tag src →
    src.deviceID = deviceID ∧ src.tag = tag

/-- A value other than the given one, in a message or in a batch. -/
theorem exists_other_value (batch : Bool) (old : Option (Json F64)) :
    ∃ v : ScannerValue F64, v.isBatch = batch ∧ some v.value ≠ old := by
  obtain ⟨b, hb⟩ := exists_other_bool old
  cases batch with
  | false =>
    let message : PlcDataMessage F64 :=
      { moduleID := "", deviceID := "", variableID := "", value := .bool b, datatype := "" }
    exact ⟨.single message, rfl, hb⟩
  | true => exact ⟨.batched 0 (.bool b) "", rfl, hb⟩

section Values

variable [GoFloat64 F64]

/-- Where a value reaches its own variables only, no other variable is indexed with them. -/
theorem Isolated.noAlias {config : GatewayConfig F64} {batch : Bool} {scanner : ScannerModule}
    {deviceID tag : String} (h : Isolated config batch scanner deviceID tag) :
    NoAlias config batch scanner deviceID tag := by
  intro target src hsrc harrives
  -- right after the config is applied, a value that the target does not have yet
  have hrunning := running_applyConfig config
  generalize GatewayState.start.applyConfig (some config) = s at hrunning
  obtain ⟨v, hbatch, hnew⟩ := exists_other_value batch (s.valueOf target)
  have hvalue := valueOf_deliver hrunning.inv v scanner deviceID tag 0 (.refl _) target
  rw [if_pos ⟨src, hsrc, hbatch ▸ harrives⟩] at hvalue
  obtain ⟨src', hsrc', hdevice, htag⟩ :=
    h s hrunning v hbatch _ (.refl _) 0 target (by rw [hvalue]; exact hnew)
  rw [hsrc, Option.some.injEq] at hsrc'
  subst hsrc'
  exact ⟨hdevice, htag⟩

/-- Where no other variable is indexed with them, a value reaches its own variables only. -/
theorem NoAlias.isolated {config : GatewayConfig F64} {batch : Bool} {scanner : ScannerModule}
    {deviceID tag : String} (h : NoAlias config batch scanner deviceID tag) :
    Isolated config batch scanner deviceID tag := by
  intro s hrunning v hbatch order horder nowMs target hchange
  rw [valueOf_deliver hrunning.inv v scanner deviceID tag nowMs horder] at hchange
  split at hchange
  next harrives =>
    obtain ⟨src, hsrc, harrives⟩ := harrives
    exact ⟨src, hsrc, h target src hsrc (hbatch ▸ harrives)⟩
  next => exact absurd rfl hchange

/-- A value stays within its device and tag exactly when the config has no other
device or tag that is taken for them. -/
theorem isolated_iff (config : GatewayConfig F64) (batch : Bool) (scanner : ScannerModule)
    (deviceID tag : String) :
    Isolated config batch scanner deviceID tag ↔ NoAlias config batch scanner deviceID tag :=
  ⟨Isolated.noAlias, NoAlias.isolated⟩

end Values

/-- Two variables of one device whose tags differ in a character that is replaced. -/
def pumpConfig : GatewayConfig ℚ where
  devices := AList.singleton "plc1" { protocol := "modbus" }
  variableConfigs :=
    (AList.singleton "a"
      { id := "a", deviceID := "plc1", tag := "pump.speed", datatype := "number" }).insert "b"
      { id := "b", deviceID := "plc1", tag := "pump_speed", datatype := "number" }
  udtTemplates := ∅
  udtVariables := ∅

/-- The value of `pump.speed` is shown for `pump_speed` too. -/
theorem pump_not_isolated : ¬ Isolated pumpConfig false .modbus "plc1" "pump.speed" := by
  intro h
  have hsource : source pumpConfig (.atomic "b") = some ⟨"modbus", "plc1", "pump_speed"⟩ := rfl
  obtain ⟨-, htag⟩ := h.noAlias _ _ hsource (by decide)
  exact absurd htag (by decide)

end GatewayIsolation
