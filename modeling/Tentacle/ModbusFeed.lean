import Tentacle.GatewayRouting
import Tentacle.ModbusServer
import Tentacle.UdtAssembly

/-!
# The data feed of the Modbus server

A virtual device subscribes to the data of its source module under a subject that it
builds itself. The PLC and the gateway publish under `topics.Data`, with their module
ID in front.
-/

namespace ModbusServer

open GoValues IeeeFloat MqttBridge Subjects GatewayVariables
open ModbusCodec (Platform wrapping)
open ModbusScanner (ModbusTagConfig)

/-- `plc.data.%s.*` with the sanitized source module. -/
def dataSubject (sourceModuleID : String) : String :=
  "plc.data." ++ sanitizeForSubject sourceModuleID ++ ".*"

/-- The handler of the data subscription. -/
def handleData [Platform] (s : RegisterStore) (msg : PlcDataMessage Double) : RegisterStore :=
  match msg.value with
  | .null => s
  | value => if msg.variableID ≠ "" then updateFromVariable s msg.variableID value else s

/-- A message reaches the store if the bus delivers it to the subscription. -/
def deliver [Platform] (sourceModuleID : String) (s : RegisterStore)
    (m : BusMessage (PlcDataMessage Double)) : RegisterStore :=
  if matchSubject (dataSubject sourceModuleID) m.subject then handleData s m.data else s

/-! ## The publishers -/

structure PlcVariable where
  id : String
  value : Json Double
  datatype : String

/-- What the publisher of the PLC sends for a changed variable. -/
def plcMessage (plcID : String) (v : PlcVariable) (now : Int) :
    BusMessage (PlcDataMessage Double) where
  subject := data plcID plcID (sanitizeForSubject v.id)
  data :=
    { moduleID := plcID
      deviceID := plcID
      variableID := v.id
      value := v.value
      timestamp := now
      datatype := v.datatype }

/-- What `routeValue` of a gateway with the given module ID sends. -/
def gatewayMessage (gatewayID : String) (tv : TrackedVariable Double) (value : Json Double)
    (datatype : String) (nowMs : Int) : BusMessage (PlcDataMessage Double) where
  subject := data gatewayID (sanitizeForSubject tv.config.deviceID)
    (sanitizeForSubject tv.config.tag)
  data := { (GatewayRouting.outMessage tv value datatype nowMs).data with moduleID := gatewayID }

/-- What the UDT assembler of a gateway with the given module ID sends. -/
def udtMessage (gatewayID : String) (a : UdtAssembly.Assembler Double)
    (assembled : GoMap String (Json Double)) (nowMs : Int) :
    BusMessage (PlcDataMessage Double) where
  subject := data gatewayID (sanitizeForSubject a.config.deviceID)
    (sanitizeForSubject a.config.id)
  data := { (UdtAssembly.message a assembled nowMs).data with moduleID := gatewayID }

/-- A value that a module publishes with `topics.Data`. -/
inductive Published where
  | plc (v : PlcVariable) (now : Int)
  | gateway (tv : TrackedVariable Double) (value : Json Double) (datatype : String) (nowMs : Int)
  | udt (a : UdtAssembly.Assembler Double) (assembled : GoMap String (Json Double)) (nowMs : Int)

def Published.message (moduleID : String) : Published → BusMessage (PlcDataMessage Double)
  | plc v now => plcMessage moduleID v now
  | gateway tv value datatype nowMs => gatewayMessage moduleID tv value datatype nowMs
  | udt a assembled nowMs => udtMessage moduleID a assembled nowMs

/-- The device that the subject names; the PLC puts its own module ID there. -/
def Published.device (moduleID : String) : Published → String
  | plc _ _ => moduleID
  | gateway tv _ _ _ => sanitizeForSubject tv.config.deviceID
  | udt a _ _ => sanitizeForSubject a.config.deviceID

def Published.variableID : Published → String
  | plc v _ => v.id
  | gateway tv _ _ _ => tv.config.id
  | udt a _ _ => a.config.id

def Published.value : Published → Json Double
  | plc v _ => v.value
  | gateway _ value _ _ => value
  | udt _ assembled _ => .object (assembled.entries.map fun e => (e.1, e.2))

/-! ## Subjects -/

theorem tokens_append (s t : String) : tokens (s ++ "." ++ t) = tokens s ++ tokens t := by
  have hchars : (s ++ "." ++ t).toList = s.toList ++ '.' :: t.toList := by simp
  rw [tokens, hchars, List.splitOn_append_cons_self]
  rfl

/-- The tokens of a data subject are those of its parts. -/
theorem tokens_data_eq (moduleID deviceID variableID : String) :
    tokens (data moduleID deviceID variableID) =
      tokens moduleID ++ "data".toList :: (tokens deviceID ++ tokens variableID) := by
  have hdata : data moduleID deviceID variableID =
      moduleID ++ "." ++ ("data" ++ "." ++ (deviceID ++ "." ++ variableID)) := by
    simp only [data, String.append_assoc]
    rfl
  have hword : tokens "data" = ["data".toList] := by decide
  rw [hdata, tokens_append, tokens_append, tokens_append, hword]
  rfl

/-- The subject that the server subscribes to has four tokens, the last of them open. -/
theorem tokens_dataSubject (sourceModuleID : String) :
    tokens (dataSubject sourceModuleID) =
      ["plc".toList, "data".toList, (sanitizeForSubject sourceModuleID).toList, ['*']] := by
  have hsubject :
      dataSubject sourceModuleID = data "plc" (sanitizeForSubject sourceModuleID) "*" := by
    simp only [dataSubject, data, String.append_assoc]
    rfl
  have hstar : tokens "*" = [['*']] := by decide
  rw [hsubject, tokens_data (by decide) (dot_not_mem_sanitize _), hstar]

/-- A token that is no wildcard matches itself. -/
theorem matchTokens_literal {p : List Char} (hstar : p ≠ ['*']) (hgreater : p ≠ ['>'])
    (ps ts : List (List Char)) :
    matchTokens (p :: ps) ts = true ↔ ∃ rest, ts = p :: rest ∧ matchTokens ps rest = true := by
  cases ts with
  | nil => simp [matchTokens, hgreater]
  | cons t ts =>
    rw [matchTokens_cons hstar hgreater, Bool.and_eq_true, decide_eq_true_iff]
    constructor
    · rintro ⟨rfl, h⟩
      exact ⟨ts, rfl, h⟩
    · rintro ⟨rest, heq, h⟩
      cases heq
      exact ⟨rfl, h⟩

theorem matchTokens_star (ts : List (List Char)) :
    matchTokens [['*']] ts = true ↔ ∃ last, ts = [last] := by
  cases ts with
  | nil => simp [matchTokens]
  | cons t ts => simp [matchTokens]

/-- The subscription asks for four tokens, of which it fixes three. -/
theorem match_dataSubject_iff (sourceModuleID subject : String) :
    matchSubject (dataSubject sourceModuleID) subject = true ↔
      ∃ last, tokens subject =
        ["plc".toList, "data".toList, (sanitizeForSubject sourceModuleID).toList, last] := by
  have hplain := plain_sanitize sourceModuleID
  rw [matchSubject, tokens_dataSubject, matchTokens_literal (by decide) (by decide)]
  simp only [matchTokens_literal (by decide : "data".toList ≠ ['*'])
    (by decide : "data".toList ≠ ['>']), matchTokens_literal hplain.star hplain.greater,
    matchTokens_star]
  constructor
  · rintro ⟨_, htokens, _, rfl, _, rfl, last, rfl⟩
    exact ⟨last, htokens⟩
  · rintro ⟨last, htokens⟩
    exact ⟨_, htokens, _, rfl, _, rfl, last, rfl⟩

theorem toList_of_tokens {s : String} {t : List Char} (h : tokens s = [t]) : s.toList = t := by
  have hjoin : ['.'].intercalate (tokens s) = s.toList := List.intercalate_splitOn '.'
  rw [h] at hjoin
  simpa using hjoin.symm

theorem tokens_sanitize (s : String) :
    tokens (sanitizeForSubject s) = [(sanitizeForSubject s).toList] :=
  List.splitOn_eq_singleton (dot_not_mem_sanitize s)

theorem sanitize_plc : sanitizeForSubject "plc" = "plc" := by decide

/-- A string that sanitizes to one without an underscore is unchanged. -/
theorem sanitize_eq_self {s : String} (h : '_' ∉ (sanitizeForSubject s).toList) :
    sanitizeForSubject s = s := by
  apply String.toList_injective
  rw [sanitizeForSubject, replaceChars, String.toList_ofList] at h ⊢
  refine (List.map_congr_left ?_).trans (List.map_id _)
  intro c hc
  rw [id, ite_eq_right_iff]
  intro hspecial
  exact (h (List.mem_map.mpr ⟨c, hc, if_pos hspecial⟩)).elim

/-- No other string becomes `plc`. -/
theorem sanitize_eq_plc_iff (s : String) : sanitizeForSubject s = "plc" ↔ s = "plc" := by
  constructor
  · intro h
    rw [← h, sanitize_eq_self (by rw [h]; decide)]
  · rintro rfl
    exact sanitize_plc

theorem Published.subject_eq (moduleID : String) (p : Published) :
    ∃ v, (p.message moduleID).subject = data moduleID (p.device moduleID) (sanitizeForSubject v) := by
  cases p with
  | plc v now => exact ⟨v.id, rfl⟩
  | gateway tv value datatype nowMs => exact ⟨tv.config.tag, rfl⟩
  | udt a assembled nowMs => exact ⟨a.config.id, rfl⟩

/-- Only a module with the ID `plc` is heard, and of it only the device `plc`. -/
theorem match_published_iff (sourceModuleID : String) (p : Published) :
    matchSubject (dataSubject sourceModuleID) (p.message sourceModuleID).subject = true ↔
      sourceModuleID = "plc" ∧ p.device sourceModuleID = "plc" := by
  obtain ⟨v, hsubject⟩ := p.subject_eq sourceModuleID
  rw [match_dataSubject_iff, hsubject, tokens_data_eq, tokens_sanitize]
  constructor
  · rintro ⟨last, htokens⟩
    have hlength := congrArg List.length htokens
    have hdevice : 0 < (tokens (p.device sourceModuleID)).length :=
      List.length_pos_iff.mpr (List.splitOn_ne_nil _ _)
    obtain ⟨first, rest, hfirst⟩ := List.exists_cons_of_ne_nil
      (List.splitOn_ne_nil '.' sourceModuleID.toList)
    rw [tokens, hfirst] at htokens hlength
    simp only [List.cons_append, List.length_cons, List.length_append, List.length_nil] at hlength
    obtain rfl : rest = [] := List.length_eq_zero_iff.mp (by omega)
    simp only [List.cons_append, List.nil_append, List.cons.injEq] at htokens
    obtain ⟨rfl, -, htail⟩ := htokens
    change _ = [(sanitizeForSubject sourceModuleID).toList] ++ [last] at htail
    obtain ⟨htoken, -⟩ := List.append_inj' htail rfl
    have hsource : sourceModuleID = "plc" := String.toList_injective (toList_of_tokens hfirst)
    refine ⟨hsource, String.toList_injective ?_⟩
    rw [toList_of_tokens htoken, hsource, sanitize_plc]
  · rintro ⟨rfl, hdevice⟩
    have hplc : tokens "plc" = ["plc".toList] := by decide
    rw [hdevice, hplc, sanitize_plc]
    exact ⟨_, rfl⟩

/-! ## The feed -/

/-- The values that the subscription can match: those of the PLC, and those that a
gateway publishes for the device `plc`. -/
def Published.OfDevicePlc : Published → Prop
  | plc _ _ => True
  | gateway tv _ _ _ => tv.config.deviceID = "plc"
  | udt a _ _ => a.config.deviceID = "plc"

theorem Published.device_plc_iff (p : Published) : p.device "plc" = "plc" ↔ p.OfDevicePlc := by
  cases p with
  | plc v now => exact iff_of_true rfl trivial
  | gateway tv value datatype nowMs => exact sanitize_eq_plc_iff _
  | udt a assembled nowMs => exact sanitize_eq_plc_iff _

theorem Published.message_data (moduleID : String) (p : Published) :
    (p.message moduleID).data.variableID = p.variableID ∧
      (p.message moduleID).data.value = p.value := by
  cases p <;> exact ⟨rfl, rfl⟩

/-- Whatever a device with the variable among its tags holds, the value reaches it and
is written to the register of the variable. -/
def Fed [Platform] (sourceModuleID : String) (p : Published) : Prop :=
  ∀ (values : RegisterStore) (tags : List ModbusTagConfig), (∃ tag ∈ tags, tag.id = p.variableID) →
    matchSubject (dataSubject sourceModuleID) (p.message sourceModuleID).subject = true ∧
    deliver sourceModuleID (deviceStore values tags) (p.message sourceModuleID) =
      updateFromVariable (deviceStore values tags) p.variableID p.value

/-- A coil for the variable. -/
def coilTag (variableID : String) : ModbusTagConfig where
  id := variableID
  address := 0
  functionCode := "coil"
  datatype := "boolean"

/-- A value of the variable is in its coil from then on. -/
theorem update_coilTag [Platform] (values : RegisterStore) (variableID : String)
    (value : Json Double) :
    (updateFromVariable (deviceStore values [coilTag variableID]) variableID value).coils 0 =
      toBool value := by
  have hlookup : (deviceStore values [coilTag variableID]).tagsByVariable.lookup variableID =
      some (coilTag variableID) := AList.lookup_insert _
  unfold updateFromVariable
  rw [hlookup]
  simp [coilTag]

theorem handleData_eq [Platform] (s : RegisterStore) (msg : PlcDataMessage Double) :
    (msg.value = .null ∨ msg.variableID = "") ∧ handleData s msg = s ∨
    (msg.value ≠ .null ∧ msg.variableID ≠ "") ∧
      handleData s msg = updateFromVariable s msg.variableID msg.value := by
  unfold handleData
  cases msg.value <;> by_cases hid : msg.variableID = "" <;> simp [hid]

/-- A value is fed to the server exactly if the source module is called `plc`, and the value is one
of the PLC or of the device `plc`, with a variable, and is not null. -/
theorem fed_iff [Platform] (sourceModuleID : String) (p : Published) :
    Fed sourceModuleID p ↔
      sourceModuleID = "plc" ∧ p.OfDevicePlc ∧ p.variableID ≠ "" ∧ p.value ≠ .null := by
  obtain ⟨hid, hvalue⟩ := p.message_data sourceModuleID
  constructor
  · intro h
    have hmapped : ∃ tag ∈ [coilTag p.variableID], tag.id = p.variableID :=
      ⟨_, List.mem_singleton_self _, rfl⟩
    have hmatch := (h {} [coilTag p.variableID] hmapped).1
    obtain ⟨rfl, hdevice⟩ := (match_published_iff _ _).mp hmatch
    refine ⟨rfl, p.device_plc_iff.mp hdevice, ?_⟩
    -- A coil with the other value shows that the store is written.
    have hwritten := (h { coils := fun _ => !toBool p.value } [coilTag p.variableID] hmapped).2
    rw [deliver, if_pos hmatch] at hwritten
    obtain ⟨-, hsame⟩ | ⟨⟨hnull, hempty⟩, -⟩ :=
      handleData_eq (deviceStore { coils := fun _ => !toBool p.value } [coilTag p.variableID])
        (p.message "plc").data
    · rw [hsame] at hwritten
      have hcoil := congrArg (fun s => s.coils 0) hwritten
      simp only [update_coilTag] at hcoil
      simp [deviceStore, registerTag] at hcoil
    · rw [hid] at hempty
      rw [hvalue] at hnull
      exact ⟨hempty, hnull⟩
  · rintro ⟨rfl, hdevice, hempty, hnull⟩ values tags -
    have hmatch := (match_published_iff "plc" p).mpr ⟨rfl, p.device_plc_iff.mpr hdevice⟩
    refine ⟨hmatch, ?_⟩
    rw [deliver, if_pos hmatch]
    obtain ⟨hnot, -⟩ | ⟨-, hwritten⟩ :=
      handleData_eq (deviceStore values tags) (p.message "plc").data
    · rw [hvalue, hid] at hnot
      exact (hnot.elim hnull hempty).elim
    · rw [hwritten, hid, hvalue]

/-- The values of a module with another ID never reach the device. -/
theorem not_fed_other_module :
    letI := wrapping
    ¬∀ (sourceModuleID : String) (p : Published), p.variableID ≠ "" → p.value ≠ .null →
      Fed sourceModuleID p := by
  let _ := wrapping
  intro h
  have hfed := h "gateway" (.gateway
    { config :=
        { id := "temperature"
          deviceID := "d"
          tag := "t"
          datatype := "boolean" }
      deadband := none
      disableRBE := false
      value := .null } (.bool true) "boolean" 0) (by simp [Published.variableID])
    (by simp [Published.value])
  have hmatch := (hfed {} [coilTag "temperature"] ⟨_, List.mem_singleton_self _, rfl⟩).1
  exact absurd ((match_published_iff _ _).mp hmatch).1 (by decide)

end ModbusServer
