import Mathlib.Data.List.Basic
import Tentacle.OpcUaScanner

/-!
# The endpoint of an OPC UA connection

A server lists its endpoints, each with a policy and a mode, and the client takes one. A request
names the policy and the mode by short names; the endpoints have the URI of the policy and the
number of the mode. The library has the URIs, so they are parameters here.
-/

namespace OpcUaEndpoints

open OpcUaScanner

/-- The number that stands for a mode on the wire; a server may send any. -/
abbrev MessageSecurityMode := UInt32

def modeInvalid : MessageSecurityMode := 0
def modeNone : MessageSecurityMode := 1
def modeSign : MessageSecurityMode := 2
def modeSignAndEncrypt : MessageSecurityMode := 3

/-- The URIs of the policies that the table of `selectEndpoint` has. -/
structure SecurityPolicyURIs where
  noSecurity : String
  basic128Rsa15 : String
  basic256 : String
  basic256Sha256 : String
  named : noSecurity ≠ "" ∧ basic128Rsa15 ≠ "" ∧ basic256 ≠ "" ∧ basic256Sha256 ≠ ""

structure EndpointDescription where
  endpointURL : String
  securityPolicyURI : String
  securityMode : MessageSecurityMode
  deriving DecidableEq, Repr

/-- `unicode.ToLower`, as far as the result is ASCII: two letters outside of ASCII have a lower case
in it. The others stay outside and are left as they are. -/
def lowerChar (c : Char) : Char :=
  if c = Char.ofNat 0x130 then 'i' else if c = Char.ofNat 0x212A then 'k' else c.toLower

/-- `strings.ToLower`, for a comparison with ASCII. -/
def toLower (s : String) : String := String.ofList (s.toList.map lowerChar)

section Select

variable (uris : SecurityPolicyURIs)

/-- The names of the table that stand for a policy. -/
def knownPolicies : List String := ["none", "basic128rsa15", "basic256", "basic256sha256"]

/-- A name that the table does not have is read as the empty name is: any policy. -/
def policyURI (policyLower : String) : String :=
  if policyLower = "none" then uris.noSecurity
  else if policyLower = "basic128rsa15" then uris.basic128Rsa15
  else if policyLower = "basic256" then uris.basic256
  else if policyLower = "basic256sha256" then uris.basic256Sha256
  else ""

/-- A name that is no mode leaves the mode open. -/
def targetMode (mode : String) : MessageSecurityMode :=
  if toLower mode = "sign" then modeSign
  else if toLower mode = "signandencrypt" then modeSignAndEncrypt
  else if toLower mode = "none" ∨ toLower mode = "" then modeNone
  else modeInvalid

/-- The body of the loop over the endpoints when the policy is left open. -/
def better (best : Option EndpointDescription) (ep : EndpointDescription) :
    Option EndpointDescription :=
  match best with
  | none => some ep
  | some b => if b.securityMode < ep.securityMode then some ep else some b

def selectEndpoint (endpoints : List EndpointDescription) (policy mode : String) :
    Option EndpointDescription :=
  let targetURI := policyURI uris (toLower policy)
  if targetURI = "" then endpoints.foldl better none
  else
    match endpoints.find? fun ep => ep.securityPolicyURI = targetURI ∧
        (targetMode mode = 0 ∨ ep.securityMode = targetMode mode) with
    | some ep => some ep
    -- the fallback: the policy with any mode
    | none => endpoints.find? fun ep => ep.securityPolicyURI = targetURI

/-! ## The connection -/

/-- What the library answers when a device is connected. -/
structure Library where
  getEndpoints : Except String (List EndpointDescription)
  newClient : EndpointDescription → Except String Unit := fun _ => .ok ()
  connect : EndpointDescription → Except String Unit := fun _ => .ok ()

/-- The part of `connectDevice` that connects, and the endpoint that it connects to. -/
def dial (lib : Library) (req : SubscribeRequest) : Except String EndpointDescription :=
  match lib.getEndpoints with
  | .error e => .error ("get endpoints: " ++ e)
  | .ok endpoints =>
    match selectEndpoint uris endpoints req.securityPolicy req.securityMode with
    | none => .error ("no matching endpoint for policy=" ++ req.securityPolicy ++ " mode=" ++
        req.securityMode)
    | some ep =>
      match lib.newClient ep with
      | .error e => .error ("create client: " ++ e)
      | .ok () =>
        match lib.connect ep with
        | .error e => .error ("connect: " ++ e)
        | .ok () => .ok ep

end Select

/-! ## Policies of the table -/

variable {uris : SecurityPolicyURIs} {endpoints : List EndpointDescription}
  {policy mode : String} {ep : EndpointDescription}

theorem policyURI_ne_empty (h : toLower policy ∈ knownPolicies) :
    policyURI uris (toLower policy) ≠ "" := by
  obtain ⟨hnone, h128, h256, hsha⟩ := uris.named
  simp only [knownPolicies, List.mem_cons, List.not_mem_nil, or_false] at h
  rcases h with h | h | h | h <;> rw [h, policyURI] <;> simp [*]

/-- The two stages for a policy of the table. -/
theorem selectEndpoint_known (h : toLower policy ∈ knownPolicies) :
    selectEndpoint uris endpoints policy mode =
      (endpoints.find? fun ep => ep.securityPolicyURI = policyURI uris (toLower policy) ∧
        (targetMode mode = 0 ∨ ep.securityMode = targetMode mode)).or
      (endpoints.find? fun ep => ep.securityPolicyURI = policyURI uris (toLower policy)) := by
  rw [selectEndpoint, if_neg (policyURI_ne_empty h)]
  split
  · next ep hep => rw [hep, Option.some_or]
  · next hnone => rw [hnone, Option.none_or]

/-- For a known policy nothing is selected exactly if no endpoint has it. -/
theorem selectEndpoint_eq_none_iff (h : toLower policy ∈ knownPolicies) :
    selectEndpoint uris endpoints policy mode = none ↔
      ∀ ep ∈ endpoints, ep.securityPolicyURI ≠ policyURI uris (toLower policy) := by
  rw [selectEndpoint_known h, Option.or_eq_none_iff, List.find?_eq_none, List.find?_eq_none]
  simp only [decide_eq_true_eq]
  constructor
  · rintro ⟨-, hpolicy⟩
    exact hpolicy
  · intro hpolicy
    exact ⟨fun ep hep hboth => hpolicy ep hep hboth.1, hpolicy⟩

/-- For a known policy the endpoint that is selected has it. -/
theorem selectEndpoint_policy (h : toLower policy ∈ knownPolicies)
    (hep : selectEndpoint uris endpoints policy mode = some ep) :
    ep ∈ endpoints ∧ ep.securityPolicyURI = policyURI uris (toLower policy) := by
  rw [selectEndpoint_known h, Option.or_eq_some_iff] at hep
  obtain hfirst | ⟨-, hfallback⟩ := hep
  · have hboth := List.find?_some hfirst
    simp only [decide_eq_true_eq] at hboth
    exact ⟨List.mem_of_find?_eq_some hfirst, hboth.1⟩
  · have hpolicy := List.find?_some hfallback
    simp only [decide_eq_true_eq] at hpolicy
    exact ⟨List.mem_of_find?_eq_some hfallback, hpolicy⟩

/-- The fallback is for servers that do not have the mode. -/
theorem selectEndpoint_mode (h : toLower policy ∈ knownPolicies)
    (hep : selectEndpoint uris endpoints policy mode = some ep)
    (hoffered : ∃ other ∈ endpoints, other.securityPolicyURI = policyURI uris (toLower policy) ∧
      other.securityMode = targetMode mode) :
    targetMode mode = 0 ∨ ep.securityMode = targetMode mode := by
  rw [selectEndpoint_known h, Option.or_eq_some_iff] at hep
  obtain hfirst | ⟨hnone, -⟩ := hep
  · have hboth := List.find?_some hfirst
    simp only [decide_eq_true_eq] at hboth
    exact hboth.2
  · obtain ⟨other, hmem, hpolicy, hmode⟩ := hoffered
    have hnot := List.find?_eq_none.mp hnone other hmem
    exact absurd (decide_eq_true ⟨hpolicy, .inr hmode⟩) hnot

/-- With a policy of the table, there is no endpoint exactly when no endpoint has the policy, and
else one of that policy, with a mode that is not weaker than the requested one if the server offers
the requested mode with the policy. -/
theorem selectEndpoint_secure (uris : SecurityPolicyURIs) (endpoints : List EndpointDescription)
    (policy mode : String) (h : toLower policy ∈ knownPolicies) :
    (selectEndpoint uris endpoints policy mode = none ↔
      ∀ ep ∈ endpoints, ep.securityPolicyURI ≠ policyURI uris (toLower policy)) ∧
    ∀ ep, selectEndpoint uris endpoints policy mode = some ep →
      ep ∈ endpoints ∧ ep.securityPolicyURI = policyURI uris (toLower policy) ∧
        ((∃ other ∈ endpoints, other.securityPolicyURI = policyURI uris (toLower policy) ∧
          other.securityMode = targetMode mode) → targetMode mode ≤ ep.securityMode) := by
  refine ⟨selectEndpoint_eq_none_iff h, ?_⟩
  intro ep hep
  obtain ⟨hmem, hpolicy⟩ := selectEndpoint_policy h hep
  refine ⟨hmem, hpolicy, ?_⟩
  intro hoffered
  obtain hopen | hmode := selectEndpoint_mode h hep hoffered
  · rw [hopen]
    exact UInt32.zero_le
  · rw [hmode]
    exact UInt32.le_refl _

/-- Short names in the place of the URIs. -/
def shortURIs : SecurityPolicyURIs where
  noSecurity := "#None"
  basic128Rsa15 := "#Basic128Rsa15"
  basic256 := "#Basic256"
  basic256Sha256 := "#Basic256Sha256"
  named := by decide

def signOnly : EndpointDescription := ⟨"opc.tcp://plc:4840", "#Basic256Sha256", modeSign⟩

def encrypted : EndpointDescription :=
  ⟨"opc.tcp://plc:4840", "#Basic256Sha256", modeSignAndEncrypt⟩

theorem selectEndpoint_secure_encrypted :
    selectEndpoint shortURIs [signOnly, encrypted] "Basic256Sha256" "SignAndEncrypt" =
        some encrypted ∧
      (encrypted ∈ [signOnly, encrypted] ∧
        encrypted.securityPolicyURI = policyURI shortURIs (toLower "Basic256Sha256") ∧
          ((∃ other ∈ [signOnly, encrypted],
            other.securityPolicyURI = policyURI shortURIs (toLower "Basic256Sha256") ∧
              other.securityMode = targetMode "SignAndEncrypt") →
                targetMode "SignAndEncrypt" ≤ encrypted.securityMode)) := by
  have hep : selectEndpoint shortURIs [signOnly, encrypted] "Basic256Sha256" "SignAndEncrypt" =
      some encrypted := by decide
  exact ⟨hep, (selectEndpoint_secure shortURIs [signOnly, encrypted] "Basic256Sha256"
    "SignAndEncrypt" (by decide)).2 encrypted hep⟩

/-- A server that only signs is taken when encryption is requested. -/
theorem signOnly_selected :
    ¬∀ (uris : SecurityPolicyURIs) (endpoints : List EndpointDescription) (policy mode : String),
      policy ≠ "" → ∀ ep, selectEndpoint uris endpoints policy mode = some ep →
        ep.securityPolicyURI = policyURI uris (toLower policy) ∧
          targetMode mode ≤ ep.securityMode := by
  intro h
  have hweak := h shortURIs [signOnly] "Basic256Sha256" "SignAndEncrypt" (by decide) signOnly
    (by decide)
  exact absurd hweak.2 (by decide)

/-! ## Connected devices -/

/-- A connection that comes about is one to the endpoint that was selected. -/
theorem dial_eq_ok {lib : Library} {req : SubscribeRequest} (h : dial uris lib req = .ok ep) :
    ∃ endpoints, lib.getEndpoints = .ok endpoints ∧
      selectEndpoint uris endpoints req.securityPolicy req.securityMode = some ep := by
  rw [dial] at h
  cases hendpoints : lib.getEndpoints with
  | error e =>
    rw [hendpoints] at h
    cases h
  | ok endpoints =>
    rw [hendpoints] at h
    dsimp only at h
    refine ⟨endpoints, rfl, ?_⟩
    split at h
    · cases h
    · next ep' hselect =>
      split at h
      · cases h
      · split at h
        · cases h
        · cases h
          exact hselect

/-- A device that comes to be connected with a policy of the table is connected to an endpoint of
that policy. -/
theorem connectDevice_policy (s : Scanner) {req : SubscribeRequest} {lib : Library}
    (hnew : s.connections.lookup req.deviceID = none)
    (hknown : toLower req.securityPolicy ∈ knownPolicies)
    (h : (connectDevice s req ((dial uris lib req).map fun _ => ())).2 = .ok ()) :
    ∃ ep, dial uris lib req = .ok ep ∧
      ep.securityPolicyURI = policyURI uris (toLower req.securityPolicy) := by
  cases hdial : dial uris lib req with
  | error e =>
    rw [hdial] at h
    simp only [connectDevice, hnew, Option.isSome_none] at h
    cases h
  | ok ep =>
    obtain ⟨endpoints, -, hselect⟩ := dial_eq_ok hdial
    exact ⟨ep, rfl, (selectEndpoint_policy hknown hselect).2⟩

end OpcUaEndpoints
