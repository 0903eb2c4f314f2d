import Tentacle.EthernetIpScanner

/-!
# Which device a command is written to

The gateway sends a command for a variable to the scanner under the variable's
tag, without the device. The scanner writes it to the first connection that has
a variable of that name. It is the right one, in every order of the connections,
exactly when no other device has the tag.
-/

namespace EthernetIpWrites

open GoValues Subjects GatewayVariables EthernetIpScanner Runs
open EthernetIpScanner (step commandTag handleCommand)

variable {F64 D : Type}

/-- A bidirectional variable of an EtherNet/IP device. -/
structure CommandVariable (config : GatewayConfig F64) (varCfg : GatewayVariableConfig F64) :
    Prop where
  configured : ∃ varID, config.variableConfigs.lookup varID = some varCfg
  bidirectional : varCfg.bidirectional = true
  device : ∃ device, config.devices.lookup varCfg.deviceID = some device ∧
    device.protocol = "ethernetip"

/-- Commands that the gateway sends out for the variable are written to its
device only. -/
def WritesIsolated (config : GatewayConfig F64) (varCfg : GatewayVariableConfig F64)
    (s : Scanner F64) : Prop :=
  ∀ subject ∈ scannerSubject (applyConfig config) varCfg.deviceID varCfg.tag,
    ∀ order : List String, order.Perm s.connections.keys → ∀ data : Bytes,
      ∀ attempt ∈ receive s order ⟨subject, data⟩, attempt.deviceID = varCfg.deviceID

/-- No other device has a variable of that name. -/
def OnlyDevice (s : Scanner F64) (deviceID tag : String) : Prop :=
  ∀ deviceID' conn, s.connections.lookup deviceID' = some conn →
    (conn.vars.lookup tag).isSome → deviceID' = deviceID

/-- A command carries its tag, unless the tag is empty. -/
theorem commandTag_command (tag : String) :
    EthernetIpScanner.commandTag (command "ethernetip" tag) = if tag = "" then none else some tag := by
  have hchars : (command "ethernetip" tag).toList = "ethernetip.command.".toList ++ tag.toList := by
    simp [command]
  have hlength : (command "ethernetip" tag).length = "ethernetip.command.".length + tag.length := by
    rw [← String.length_toList, hchars, List.length_append, String.length_toList,
      String.length_toList]
  rw [EthernetIpScanner.commandTag, hlength, hchars]
  by_cases htag : tag = ""
  · subst htag
    simp
  · have hpos : 0 < tag.length := by
      rw [Nat.pos_iff_ne_zero]
      intro hzero
      exact htag (String.length_eq_zero_iff.mp hzero)
    rw [if_neg (by omega), if_neg htag, ← String.length_toList, List.drop_left,
      String.ofList_toList]

/-- A command under a tag goes to a connection with that tag, or nowhere. -/
theorem receive_command (s : Scanner F64) (order : List String) (tag : String) (data : D) :
    receive s order ⟨command "ethernetip" tag, data⟩ =
      if tag = "" then none
      else (firstMatch s.connections order fun conn => (conn.vars.lookup tag).isSome).map fun conn =>
        { deviceID := conn.deviceID
          gateway := conn.gateway
          port := conn.port
          slot := conn.slot
          tag := tag
          cipType := ((conn.vars.lookup tag).map (·.cipType)).getD ""
          data := data } := by
  rw [receive, if_pos (match_command (by decide) (by decide) tag), EthernetIpScanner.handleCommand,
    commandTag_command]
  split <;> rfl

theorem CommandVariable.scannerSubject_eq {config : GatewayConfig F64}
    {varCfg : GatewayVariableConfig F64} (h : CommandVariable config varCfg) :
    scannerSubject (applyConfig config) varCfg.deviceID varCfg.tag =
      some (command "ethernetip" varCfg.tag) := by
  obtain ⟨device, hdevice, hprotocol⟩ := h.device
  simp [scannerSubject, applyConfig, hdevice, hprotocol]

/-- With no other device of the same tag a command reaches its own device or none. -/
theorem writesIsolated_of_onlyDevice {config : GatewayConfig F64}
    {varCfg : GatewayVariableConfig F64} (h : CommandVariable config varCfg) {s : Scanner F64}
    (hkeyed : Keyed s) (honly : varCfg.tag = "" ∨ OnlyDevice s varCfg.deviceID varCfg.tag) :
    WritesIsolated config varCfg s := by
  intro subject hsubject order _ data attempt hattempt
  rw [h.scannerSubject_eq, Option.mem_some_iff] at hsubject
  subst hsubject
  rw [Option.mem_def, receive_command] at hattempt
  split at hattempt
  · cases hattempt
  next htag =>
    obtain ⟨conn, hfirst, rfl⟩ := Option.map_eq_some_iff.mp hattempt
    obtain ⟨hhas, deviceID', hconn⟩ := firstMatch_eq_some hfirst
    obtain hempty | honly := honly
    · exact absurd hempty htag
    · rw [← honly deviceID' conn hconn hhas]
      exact (hkeyed deviceID' conn hconn).1

/-- Where another device has the tag, some order of the connections writes to it. -/
theorem WritesIsolated.onlyDevice {config : GatewayConfig F64}
    {varCfg : GatewayVariableConfig F64} (h : CommandVariable config varCfg) {s : Scanner F64}
    (hkeyed : Keyed s) (hwrites : WritesIsolated config varCfg s) (htag : varCfg.tag ≠ "") :
    OnlyDevice s varCfg.deviceID varCfg.tag := by
  intro deviceID' conn hconn hhas
  obtain ⟨order, horder, hfirst⟩ := @exists_order_firstMatch _ s.connections
    (fun conn => (conn.vars.lookup varCfg.tag).isSome) deviceID' conn hconn hhas
  have hwrite := hwrites _ h.scannerSubject_eq order horder []
  rw [receive_command, if_neg htag, hfirst] at hwrite
  rw [← hwrite _ rfl]
  exact (hkeyed deviceID' conn hconn).1.symm

/-- In every state of the scanner, commands for the variable are written to its
device only, exactly when no other connected device has its tag. -/
theorem writes_isolated_iff [GoFloat64 F64] (finite : F64 → Bool) {config : GatewayConfig F64}
    {varCfg : GatewayVariableConfig F64} (h : CommandVariable config varCfg) {s : Scanner F64}
    (hs : Reaches (step finite) Scanner.start s) :
    WritesIsolated config varCfg s ↔
      varCfg.tag = "" ∨ OnlyDevice s varCfg.deviceID varCfg.tag := by
  have hkeyed := keyed_of_reaches finite hs
  constructor
  · intro hwrites
    by_cases htag : varCfg.tag = ""
    · exact .inl htag
    · exact .inr (hwrites.onlyDevice h hkeyed htag)
  · exact writesIsolated_of_onlyDevice h hkeyed

/-- A request for one tag of a device. -/
def speedRequest (deviceID host : String) : SubscribeRequest ℚ :=
  { deviceID := deviceID, host := host, tags := ["Speed"], subscriberID := "gateway" }

def speedVariable : GatewayVariableConfig ℚ :=
  { id := "speed", deviceID := "plc2", tag := "Speed", datatype := "number", bidirectional := true }

def speedConfig : GatewayConfig ℚ where
  devices := AList.singleton "plc2" { protocol := "ethernetip" }
  variableConfigs := AList.singleton "speed" speedVariable
  udtTemplates := ∅
  udtVariables := ∅

/-- With its device alone connected, commands for the variable go there. -/
theorem single_device_isolated :
    WritesIsolated speedConfig speedVariable
      (handleSubscribe Scanner.start (speedRequest "plc2" "10.0.0.2")).1 := by
  refine (writes_isolated_iff (fun _ => true) ⟨⟨"speed", rfl⟩, rfl, _, rfl, rfl⟩
    (.step (a := .subscribe (speedRequest "plc2" "10.0.0.2")) rfl)).mpr (.inr ?_)
  intro deviceID' conn hconn _
  exact (eq_of_lookup_singleton hconn).1

/-- Two controllers with a tag of the same name. -/
theorem two_devices_not_isolated :
    ∃ s, Reaches (step fun _ => true) Scanner.start s ∧
      CommandVariable speedConfig speedVariable ∧ ¬ WritesIsolated speedConfig speedVariable s := by
  refine ⟨(handleSubscribe (handleSubscribe Scanner.start (speedRequest "plc2" "10.0.0.2")).1
      (speedRequest "plc1" "10.0.0.1")).1,
    ⟨[.subscribe (speedRequest "plc2" "10.0.0.2"), .subscribe (speedRequest "plc1" "10.0.0.1")],
      rfl⟩, ⟨⟨"speed", rfl⟩, rfl, _, rfl, rfl⟩, ?_⟩
  intro hwrites
  have hwrite := hwrites "ethernetip.command.Speed" rfl ["plc1", "plc2"] (by decide) []
    ⟨"plc1", "10.0.0.1", 0, 0, "Speed", "", []⟩ (by decide)
  exact absurd hwrite (by decide)

end EthernetIpWrites
