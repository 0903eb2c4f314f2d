import Tentacle.NftSyntax

/-!
# NAT rules as an nft script

Every enabled rule becomes a line of the prerouting chain. The words of the line do not come
in the order of the nft grammar: the protocol stands before the addresses although the port
that belongs to it follows them, and the comment stands before the translation.
-/

namespace NatRules

open NftSyntax

structure NatRule where
  enabled : Bool
  /-- `tcp`, `udp`, `icmp` or `all`. -/
  protocol : Text
  /-- `any`, or the address of a host or of a network. -/
  connectingDevices : Text
  incomingInterface : Text
  outgoingInterface : Text
  natAddr : Text
  originalPort : Text
  translatedPort : Text
  deviceAddr : Text
  deviceName : Text
  doubleNat : Bool
  doubleNatAddr : Text
  comment : Text
  deriving DecidableEq, Repr

/-- `strings.ToLower`, on ASCII letters. -/
def toLower (s : Text) : Text := s.map Char.toLower

/-- `strings.Join(_, " ")`. -/
def joinSpace (parts : List Text) : Text := [' '].intercalate parts

def quoted (s : Text) : Text := '"' :: (s ++ ['"'])

/-! ## The lines -/

def interfacePart (r : NatRule) : List Text :=
  if r.incomingInterface ≠ [] then ["iifname ".toList ++ quoted r.incomingInterface] else []

def hasProtocol (r : NatRule) : Prop := toLower r.protocol ≠ [] ∧ toLower r.protocol ≠ "all".toList

/-- Only a protocol with ports has them in its rule. -/
def hasPorts (r : NatRule) : Prop := hasProtocol r ∧ toLower r.protocol ≠ "icmp".toList

instance (r : NatRule) : Decidable (hasProtocol r) := inferInstanceAs (Decidable (_ ∧ _))

instance (r : NatRule) : Decidable (hasPorts r) := inferInstanceAs (Decidable (_ ∧ _))

def protocolPart (r : NatRule) : List Text := if hasProtocol r then [toLower r.protocol] else []

def hasSource (r : NatRule) : Prop :=
  r.connectingDevices ≠ [] ∧ r.connectingDevices ≠ "any".toList

instance (r : NatRule) : Decidable (hasSource r) := inferInstanceAs (Decidable (_ ∧ _))

def sourcePart (r : NatRule) : List Text :=
  if hasSource r then ["ip saddr ".toList ++ r.connectingDevices] else []

def destinationPart (r : NatRule) : List Text :=
  if r.natAddr ≠ [] then ["ip daddr ".toList ++ r.natAddr] else []

def portPart (r : NatRule) : List Text :=
  if r.originalPort ≠ [] ∧ hasPorts r then ["dport ".toList ++ r.originalPort] else []

def commentPart (r : NatRule) : List Text :=
  if r.comment ≠ [] then ["comment ".toList ++ quoted r.comment]
  else if r.deviceName ≠ [] then ["comment ".toList ++ quoted r.deviceName]
  else []

def dnatTarget (r : NatRule) : Text :=
  if r.translatedPort ≠ [] ∧ hasPorts r then r.deviceAddr ++ ':' :: r.translatedPort
  else r.deviceAddr

def preroutingParts (r : NatRule) : List Text :=
  interfacePart r ++ protocolPart r ++ sourcePart r ++ destinationPart r ++ portPart r ++
    commentPart r ++ ["dnat to ".toList ++ dnatTarget r]

def preroutingLine (r : NatRule) : Text := joinSpace (preroutingParts r)

def postroutingLine (r : NatRule) : Text :=
  let oifname :=
    if r.outgoingInterface ≠ [] then ["oifname ".toList ++ quoted r.outgoingInterface] else []
  let snatAddr := if r.doubleNatAddr = [] then r.natAddr else r.doubleNatAddr
  joinSpace (oifname ++ ["ip daddr ".toList ++ r.deviceAddr] ++ ["snat to ".toList ++ snatAddr])

/-! ## The script -/

def tableName : Text := "tentacle_nat".toList

/-- The line in a chain; an empty one is left out. -/
def writeRule (line : Text) : Text :=
  if line ≠ [] then "    ".toList ++ line ++ ['\n'] else []

def preroutingRules (rules : List NatRule) : Text :=
  (rules.filter (·.enabled)).flatMap fun r => writeRule (preroutingLine r)

def preroutingChain (rules : List NatRule) : Text :=
  "  chain prerouting \x7b\n".toList ++
    "    type nat hook prerouting priority dstnat; policy accept;\n".toList ++
    preroutingRules rules ++ "  \x7d\n".toList

def postroutingChain (rules : List NatRule) : Text :=
  "  chain postrouting \x7b\n".toList ++
    "    type nat hook postrouting priority srcnat; policy accept;\n".toList ++
    ((rules.filter fun r => r.enabled && r.doubleNat).flatMap fun r =>
      writeRule (postroutingLine r)) ++
    "  \x7d\n".toList

def generateRules (rules : List NatRule) : Text :=
  "#!/usr/sbin/nft -f\n\n".toList ++
    "# Auto-generated by tentacle nftables module\n".toList ++
    "# Rules: ".toList ++ Nat.toDigits 10 rules.length ++ "\n\n".toList ++
    "table ip ".toList ++ tableName ++ "\n".toList ++
    "delete table ip ".toList ++ tableName ++ "\n\n".toList ++
    "table ip ".toList ++ tableName ++ " \x7b\n".toList ++
    preroutingChain rules ++ "\n".toList ++ postroutingChain rules ++ "\x7d\n".toList

/-! ## What the chain is to be -/

/-- The interface, the addresses and the ports are well formed where they are given, and the
protocol is one of the three. -/
structure WellFormed (r : NatRule) : Prop where
  protocol : toLower r.protocol ∈ ["tcp".toList, "udp".toList, "all".toList]
  interface : ∀ c ∈ r.incomingInterface, isStringChar c = true
  source : hasSource r → IsAddress r.connectingDevices
  destination : r.natAddr ≠ [] → IsAddress r.natAddr
  originalPort : r.originalPort ≠ [] → IsPort r.originalPort
  translatedPort : r.translatedPort ≠ [] → IsPort r.translatedPort
  device : IsAddress r.deviceAddr

instance (r : NatRule) : Decidable (WellFormed r) :=
  decidable_of_iff (toLower r.protocol ∈ ["tcp".toList, "udp".toList, "all".toList] ∧
      r.incomingInterface.all isStringChar = true ∧
      (hasSource r → IsAddress r.connectingDevices) ∧ (r.natAddr ≠ [] → IsAddress r.natAddr) ∧
      (r.originalPort ≠ [] → IsPort r.originalPort) ∧
      (r.translatedPort ≠ [] → IsPort r.translatedPort) ∧ IsAddress r.deviceAddr)
    ⟨fun h => ⟨h.1, List.all_eq_true.mp h.2.1, h.2.2.1, h.2.2.2.1, h.2.2.2.2.1, h.2.2.2.2.2.1,
        h.2.2.2.2.2.2⟩,
      fun h => ⟨h.protocol, List.all_eq_true.mpr h.interface, h.source, h.destination,
        h.originalPort, h.translatedPort, h.device⟩⟩

/-- What the rule of a chain is to mean. -/
def expected (r : NatRule) : Meaning where
  iifname := if r.incomingInterface ≠ [] then [r.incomingInterface] else []
  saddr := if hasSource r then [r.connectingDevices] else []
  daddr := if r.natAddr ≠ [] then [r.natAddr] else []
  protocol := (protoOf (toLower r.protocol)).toList
  dport := if r.originalPort ≠ [] ∧ hasPorts r then [r.originalPort] else []
  kind := .dnat
  target :=
    ⟨r.deviceAddr, if r.translatedPort ≠ [] ∧ hasPorts r then some r.translatedPort else none⟩

def words (ws : List String) : List Tok := ws.map fun w => .word w.toList

def preroutingHeader : List Tok := words ["chain", "prerouting", "\x7b"]

def preroutingSpec : List Tok :=
  words ["type", "nat", "hook", "prerouting", "priority", "dstnat;", "policy", "accept;"]

/-- The text of the chain is that of one rule for each enabled rule, in order, each with its
meaning. -/
def TranslatesTo (rules : List NatRule) : Prop :=
  ∃ parsed, parseChain preroutingHeader preroutingSpec (preroutingChain rules) = some parsed ∧
    parsed.map Rule.meaning = (rules.filter (·.enabled)).map expected

/-- The parts of the rule that stand in its line stand there in an order of the grammar. -/
structure Ordered (r : NatRule) : Prop where
  comment : r.comment = [] ∧ r.deviceName = []
  protocol : hasProtocol r → r.originalPort ≠ [] ∧ ¬hasSource r ∧ r.natAddr = []

/-! ## The tokens of a line -/

def interfaceTokens (r : NatRule) : List (List Tok) :=
  if r.incomingInterface ≠ [] then [[.word "iifname".toList, .str r.incomingInterface]] else []

def protocolTokens (r : NatRule) : List (List Tok) :=
  if hasProtocol r then [[.word (toLower r.protocol)]] else []

def sourceTokens (r : NatRule) : List (List Tok) :=
  if hasSource r then [words ["ip", "saddr"] ++ [.word r.connectingDevices]] else []

def destinationTokens (r : NatRule) : List (List Tok) :=
  if r.natAddr ≠ [] then [words ["ip", "daddr"] ++ [.word r.natAddr]] else []

def portTokens (r : NatRule) : List (List Tok) :=
  if r.originalPort ≠ [] ∧ hasPorts r then [words ["dport"] ++ [.word r.originalPort]] else []

/-- The parts of a line before its comment, and their tokens. -/
def frontParts (r : NatRule) : List Text :=
  interfacePart r ++ protocolPart r ++ sourcePart r ++ destinationPart r ++ portPart r

def frontTokens (r : NatRule) : List (List Tok) :=
  interfaceTokens r ++ protocolTokens r ++ sourceTokens r ++ destinationTokens r ++ portTokens r

theorem preroutingParts_eq (r : NatRule) : preroutingParts r =
    frontParts r ++ (commentPart r ++ ["dnat to ".toList ++ dnatTarget r]) :=
  List.append_assoc _ _ _

theorem isWordChar_of_isDigit {c : Char} (h : isDigit c = true) : isWordChar c = true := by
  simp only [isDigit, Bool.and_eq_true, decide_eq_true_eq] at h
  simp only [isWordChar, isStringChar, Bool.and_eq_true, bne_iff_ne]
  refine ⟨?_, ?_, ?_⟩ <;> rintro rfl <;> exact absurd h (by decide)

theorem isWord_of_isAddress {w : Text} (h : IsAddress w) : IsWord w := by
  refine ⟨h.1, fun c hc => ?_⟩
  obtain hdigit | rfl | rfl := h.2 c hc
  · exact isWordChar_of_isDigit hdigit
  · rfl
  · rfl

theorem isWord_of_isPort {w : Text} (h : IsPort w) : IsWord w := by
  refine ⟨h.1, fun c hc => ?_⟩
  obtain hdigit | rfl := h.2 c hc
  · exact isWordChar_of_isDigit hdigit
  · rfl

section

variable {r : NatRule} (h : WellFormed r)
include h

theorem isWord_protocol : IsWord (toLower r.protocol) := by
  have hprotocol := h.protocol
  simp only [List.mem_cons, List.not_mem_nil, or_false] at hprotocol
  obtain hp | hp | hp := hprotocol <;> rw [hp] <;> decide

theorem lexesTo_interface : List.Forall₂ LexesTo (interfacePart r) (interfaceTokens r) := by
  rw [interfacePart, interfaceTokens]
  split
  · exact .cons (.cons (w := "iifname".toList) (by decide) (lexesTo_quoted h.interface)) .nil
  · exact .nil

theorem lexesTo_protocol : List.Forall₂ LexesTo (protocolPart r) (protocolTokens r) := by
  rw [protocolPart, protocolTokens]
  split
  · exact .cons (lexesTo_word (isWord_protocol h)) .nil
  · exact .nil

/-- The match on the source is read as its tokens. -/
theorem lexesTo_source : List.Forall₂ LexesTo (sourcePart r) (sourceTokens r) := by
  rw [sourcePart, sourceTokens]
  split
  next hsource =>
    have haddress := lexesTo_word (isWord_of_isAddress (h.source hsource))
    exact .cons (.cons (w := "ip".toList) (by decide)
      (.cons (w := "saddr".toList) (by decide) haddress)) .nil
  next => exact .nil

theorem lexesTo_destination : List.Forall₂ LexesTo (destinationPart r) (destinationTokens r) := by
  rw [destinationPart, destinationTokens]
  split
  next hdestination =>
    have haddress := lexesTo_word (isWord_of_isAddress (h.destination hdestination))
    exact .cons (.cons (w := "ip".toList) (by decide)
      (.cons (w := "daddr".toList) (by decide) haddress)) .nil
  next => exact .nil

theorem lexesTo_port : List.Forall₂ LexesTo (portPart r) (portTokens r) := by
  rw [portPart, portTokens]
  split
  next hport =>
    have hword := lexesTo_word (isWord_of_isPort (h.originalPort hport.1))
    exact .cons (.cons (w := "dport".toList) (by decide) hword) .nil
  next => exact .nil

theorem lexesTo_front : List.Forall₂ LexesTo (frontParts r) (frontTokens r) :=
  List.rel_append (List.rel_append (List.rel_append (List.rel_append (lexesTo_interface h)
    (lexesTo_protocol h)) (lexesTo_source h)) (lexesTo_destination h)) (lexesTo_port h)

theorem isWord_dnatTarget : IsWord (dnatTarget r) := by
  have hdevice := isWord_of_isAddress h.device
  rw [dnatTarget]
  split
  next hport =>
    have hport := isWord_of_isPort (h.translatedPort hport.1)
    refine ⟨by simp, fun c hc => ?_⟩
    obtain hc | hc := List.mem_append.mp hc
    · exact hdevice.2 c hc
    · obtain rfl | hc := List.mem_cons.mp hc
      · rfl
      · exact hport.2 c hc
  next => exact hdevice

theorem lexesTo_dnat : LexesTo ("dnat to ".toList ++ dnatTarget r)
    (words ["dnat", "to"] ++ [.word (dnatTarget r)]) :=
  .cons (w := "dnat".toList) (by decide)
    (.cons (w := "to".toList) (by decide) (lexesTo_word (isWord_dnatTarget h)))

end

/-! ## The rule of a line -/

/-- The rule with further matches before its own. -/
def prepend (tests : List Match) (r : Rule) : Rule := { r with tests := tests ++ r.tests }

theorem prepend_nil : prepend [] = id := rfl

theorem map_prepend (tests tests' : List Match) (o : Option Rule) :
    (o.map (prepend tests')).map (prepend tests) = o.map (prepend (tests ++ tests')) := by
  rw [Option.map_map]
  congr 1
  funext r
  simp [prepend]

section

variable {r : NatRule} (h : WellFormed r) (rest : List Tok)

/-- The interface of a rule is parsed in front of the rest. -/
theorem parseRule_interface : parseRule ((interfaceTokens r).flatten ++ rest) =
    (parseRule rest).map (prepend ((expected r).iifname.map .iifname)) := by
  rw [interfaceTokens, expected]
  split
  · simp only [List.flatten_cons, List.flatten_nil, List.append_nil, List.cons_append,
      List.nil_append]
    rw [parseRule, if_pos rfl]
    rfl
  · simp [prepend_nil]

include h

theorem parseRule_source : parseRule ((sourceTokens r).flatten ++ rest) =
    (parseRule rest).map (prepend ((expected r).saddr.map .saddr)) := by
  rw [sourceTokens, expected]
  split
  next hsource =>
    simp only [words, List.map_cons, List.map_nil, List.flatten_cons, List.flatten_nil,
      List.append_nil, List.cons_append, List.nil_append]
    rw [parseRule, if_pos ⟨rfl, rfl, h.source hsource⟩]
    rfl
  next => simp [prepend_nil]

theorem parseRule_destination : parseRule ((destinationTokens r).flatten ++ rest) =
    (parseRule rest).map (prepend ((expected r).daddr.map .daddr)) := by
  rw [destinationTokens, expected]
  split
  next hdestination =>
    simp only [words, List.map_cons, List.map_nil, List.flatten_cons, List.flatten_nil,
      List.append_nil, List.cons_append, List.nil_append]
    have hdaddr : "daddr".toList ≠ "saddr".toList := by decide
    rw [parseRule, if_neg fun hand => hdaddr hand.2.1,
      if_pos ⟨rfl, rfl, h.destination hdestination⟩]
    rfl
  next => simp [prepend_nil]

/-- A rule has ports under a known protocol, or neither a protocol nor ports, or an unknown
protocol. -/
theorem not_hasPorts_or : hasPorts r ∧ (∃ proto, protoOf (toLower r.protocol) = some proto) ∨
    ¬hasProtocol r ∧ ¬hasPorts r ∧ protoOf (toLower r.protocol) = none := by
  have hprotocol := h.protocol
  simp only [List.mem_cons, List.not_mem_nil, or_false] at hprotocol
  rw [hasPorts, hasProtocol]
  obtain hp | hp | hp := hprotocol
  · rw [hp]
    exact .inl ⟨by decide, .tcp, by decide⟩
  · rw [hp]
    exact .inl ⟨by decide, .udp, by decide⟩
  · rw [hp]
    exact .inr ⟨by decide, by decide, by decide⟩

end

theorem ne_ip_of_protoOf {w : Text} {proto : Proto} (h : protoOf w = some proto) :
    w ≠ "ip".toList := by
  rintro rfl
  have hnone : protoOf "ip".toList = none := by decide
  rw [hnone] at h
  cases h

/-- A protocol has to be followed by the port. -/
theorem parseRule_dport {w port : Text} {proto : Proto} (hw : protoOf w = some proto)
    (hport : IsPort port) (rest : List Tok) :
    parseRule (.word w :: .word "dport".toList :: .word port :: rest) =
      (parseRule rest).map (prepend [.dport proto port]) := by
  have hip := ne_ip_of_protoOf hw
  rw [parseRule, if_neg fun h => hip h.1, if_neg fun h => hip h.1, if_neg fun h => hip h.1,
    if_pos ⟨rfl, hport⟩, hw]
  rfl

/-- A protocol with neither a port nor a target behind it is refused. -/
theorem parseRule_protocol_none {w x : Text} {proto : Proto} (hw : protoOf w = some proto)
    (hdport : x ≠ "dport".toList) (hto : x ≠ "to".toList) (rest : List Tok) :
    parseRule (.word w :: .word x :: rest) = none := by
  have hip := ne_ip_of_protoOf hw
  cases rest with
  | nil => rfl
  | cons k rest =>
    cases k with
    | word y =>
      rw [parseRule, if_neg fun h => hip h.1, if_neg fun h => hip h.1, if_neg fun h => hip h.1,
        if_neg fun h => hdport h.1, if_neg hto]
    | str _ => rfl
    | newline => rfl

/-- A comment in front of the statement is refused. -/
theorem parseRule_comment (rest : List Tok) :
    parseRule (.word "comment".toList :: rest) = none := by
  have hip : "comment".toList ≠ "ip".toList := by decide
  have hproto : protoOf "comment".toList = none := by decide
  have hkind : kindOf "comment".toList = none := by decide
  cases rest with
  | nil => rfl
  | cons k rest =>
    cases k with
    | str s =>
      rw [parseRule, if_neg]
      decide
    | newline => rfl
    | word x =>
      cases rest with
      | nil => rfl
      | cons k rest =>
        cases k with
        | str _ => rfl
        | newline => rfl
        | word y =>
          rw [parseRule, if_neg fun h => hip h.1, if_neg fun h => hip h.1,
            if_neg fun h => hip h.1, hproto, hkind]
          split_ifs <;> rfl

section

variable {r : NatRule} (h : WellFormed r)

/-- The rule of a line whose parts are in order. -/
def ruleOf (r : NatRule) : Rule where
  tests :=
    (expected r).iifname.map .iifname ++
      (protoOf (toLower r.protocol)).toList.map (.dport · r.originalPort) ++
      (expected r).saddr.map .saddr ++ (expected r).daddr.map .daddr
  kind := .dnat
  target := (expected r).target
  comment := none

include h

/-- What stands before the comment, where the port follows the protocol. -/
theorem parseRule_front (hordered : hasProtocol r → r.originalPort ≠ [] ∧ ¬hasSource r ∧
    r.natAddr = []) (rest : List Tok) :
    parseRule ((frontTokens r).flatten ++ rest) =
      (parseRule rest).map (prepend (ruleOf r).tests) := by
  simp only [frontTokens, List.flatten_append, List.append_assoc]
  rw [parseRule_interface, ruleOf]
  obtain ⟨hports, proto, hproto⟩ | ⟨hprotocol, hports, hproto⟩ := not_hasPorts_or h
  · obtain ⟨hport, hsource, hnat⟩ := hordered hports.1
    have hfront : (protocolTokens r).flatten ++ ((sourceTokens r).flatten ++
        ((destinationTokens r).flatten ++ ((portTokens r).flatten ++ rest))) =
        .word (toLower r.protocol) :: .word "dport".toList :: .word r.originalPort :: rest := by
      simp [protocolTokens, sourceTokens, destinationTokens, portTokens, hports.1, hports, hport,
        hsource, hnat, words]
    rw [hfront, parseRule_dport hproto (h.originalPort hport), map_prepend, hproto]
    simp [expected, hsource, hnat]
  · have hfront : (protocolTokens r).flatten = [] ∧ (portTokens r).flatten = [] := by
      simp [protocolTokens, portTokens, hprotocol, hports]
    rw [hfront.1, hfront.2, List.nil_append, List.nil_append, parseRule_source h,
      parseRule_destination h, map_prepend, map_prepend, hproto]
    simp

/-- The target is read back with its address and its port. -/
theorem targetOf_dnatTarget : targetOf (dnatTarget r) = some (expected r).target := by
  have hcolon : ∀ c ∈ r.deviceAddr, decide (c ≠ ':') = true := by
    intro c hc
    obtain hdigit | rfl | rfl := h.device.2 c hc
    · rw [decide_eq_true_eq]
      rintro rfl
      exact absurd hdigit (by decide)
    · rfl
    · rfl
  rw [dnatTarget, expected]
  split
  next hport =>
    have hfirst : ∀ c ∈ (':' :: r.translatedPort).head?, decide (c ≠ ':') = false := by
      rintro c ⟨⟩
      rfl
    obtain ⟨htake, hdrop⟩ := takeWhile_append hcolon hfirst
    rw [targetOf, htake, hdrop, if_pos h.device]
    dsimp only
    rw [if_pos (h.translatedPort hport.1)]
  next =>
    obtain ⟨htake, hdrop⟩ := takeWhile_append (t := []) hcolon (by simp)
    rw [List.append_nil] at htake hdrop
    rw [targetOf, htake, hdrop, if_pos h.device]

/-- The statement is parsed as the translation to the target. -/
theorem parseRule_dnat :
    parseRule (words ["dnat", "to"] ++ [.word (dnatTarget r)]) =
      some ⟨[], .dnat, (expected r).target, none⟩ := by
  have hdnat : "dnat".toList ≠ "ip".toList := by decide
  have hto : "to".toList ≠ "dport".toList := by decide
  have hkind : kindOf "dnat".toList = some .dnat := by decide
  simp only [words, List.map_cons, List.map_nil, List.cons_append, List.nil_append]
  rw [parseRule, if_neg fun h => hdnat h.1, if_neg fun h => hdnat h.1, if_neg fun h => hdnat h.1,
    if_neg fun h => hto h.1, if_pos rfl, hkind, targetOf_dnatTarget h]
  rfl

/-- A rule whose parts are in order means what is expected of it. -/
theorem meaning_ruleOf (hordered : Ordered r) : (ruleOf r).meaning = expected r := by
  rw [Rule.meaning, ruleOf]
  simp only [List.foldr_append]
  obtain ⟨hports, proto, hproto⟩ | ⟨hprotocol, hports, hproto⟩ := not_hasPorts_or h
  · obtain ⟨hport, hsource, hnat⟩ := hordered.protocol hports.1
    by_cases hinterface : r.incomingInterface = [] <;>
      simp [expected, hproto, hport, hports, hsource, hnat, hinterface, Meaning.add]
  · by_cases hinterface : r.incomingInterface = [] <;> by_cases hsource : hasSource r <;>
      by_cases hnat : r.natAddr = [] <;>
      simp [expected, hproto, hports, hsource, hnat, hinterface, Meaning.add]

end

/-! ## Lines -/

theorem joinSpace_append (ps : List Text) (q : Text) (qs : List Text) :
    joinSpace (ps ++ q :: qs) = ps.flatMap (· ++ [' ']) ++ joinSpace (q :: qs) := by
  induction ps with
  | nil => rfl
  | cons p ps ih =>
    rw [List.cons_append, List.flatMap_cons, List.append_assoc, ← ih, joinSpace, joinSpace,
      List.intercalate_cons_of_ne_nil (by simp)]

theorem lex_indented (t : Text) : lex ("    ".toList ++ t) = lex t := by
  change lex (' ' :: ' ' :: ' ' :: ' ' :: t) = lex t
  simp

theorem preroutingLine_ne_nil (r : NatRule) : preroutingLine r ≠ [] := by
  rw [preroutingLine, preroutingParts, joinSpace_append]
  simp [joinSpace]

theorem newline_not_mem_front (r : NatRule) : Tok.newline ∉ (frontTokens r).flatten := by
  simp only [frontTokens, List.flatten_append, interfaceTokens, protocolTokens, sourceTokens,
    destinationTokens, portTokens]
  split_ifs <;> simp [words]

/-- The line of a rule in order is read as the rule. -/
theorem parseTail_ordered {r : NatRule} (h : WellFormed r) (hordered : Ordered r) (t : Text) :
    parseTail (writeRule (preroutingLine r) ++ t) = (parseTail t).map (ruleOf r :: ·) := by
  obtain ⟨dnat, hdnat⟩ : ∃ dnat, dnat = words ["dnat", "to"] ++ [.word (dnatTarget r)] := ⟨_, rfl⟩
  have hcomment : commentPart r = [] := by
    rw [commentPart, if_neg (by simp [hordered.comment]), if_neg (by simp [hordered.comment])]
  have hlex : LexesTo ("    ".toList ++ preroutingLine r) ((frontTokens r).flatten ++ dnat) := by
    intro t ht
    rw [preroutingLine, preroutingParts_eq, hcomment, List.nil_append, joinSpace_append,
      List.append_assoc, List.append_assoc, lex_indented, lex_parts (lexesTo_front h), joinSpace,
      List.intercalate_singleton, lexesTo_dnat h t ht, Option.map_map, hdnat]
    congr 1
    funext toks
    simp
  have hline : Tok.newline ∉ (frontTokens r).flatten ++ dnat := by
    rw [List.mem_append, not_or]
    exact ⟨newline_not_mem_front r, by simp [hdnat, words]⟩
  have hrule := parseRule_front h hordered.protocol dnat
  rw [hdnat, parseRule_dnat h, ← hdnat] at hrule
  rw [writeRule, if_pos (preroutingLine_ne_nil r), List.append_assoc, List.singleton_append]
  refine (parseTail_rule hlex hline hrule t).trans ?_
  simp [prepend, ruleOf]

/-- Parts of a line that no rule begins with, and a word behind them. -/
theorem parseTail_parts {r : NatRule} {ps : List Text} {kss : List (List Tok)} {x y : Text}
    {qs : List Text} (hparts : preroutingParts r = ps ++ (x ++ ' ' :: y) :: qs)
    (hlex : List.Forall₂ LexesTo ps kss) (hline : Tok.newline ∉ kss.flatten) (hx : IsWord x)
    (hbrace : x ≠ ['\x7d'])
    (hrule : ∀ rest, parseRule (kss.flatten ++ .word x :: rest) = none) (t : Text) :
    parseTail (writeRule (preroutingLine r) ++ t) = none := by
  obtain ⟨rest, hrest⟩ : ∃ rest, writeRule (preroutingLine r) ++ t =
      "    ".toList ++ (ps ++ [x]).flatMap (· ++ [' ']) ++ rest := by
    rw [writeRule, if_pos (preroutingLine_ne_nil r), preroutingLine, hparts, joinSpace_append,
      joinSpace]
    cases qs with
    | nil => exact ⟨y ++ '\n' :: t, by simp⟩
    | cons q qs => exact ⟨y ++ ' ' :: ([' '].intercalate (q :: qs) ++ '\n' :: t), by simp⟩
  rw [hrest]
  have hmem : Tok.word x ∈ kss.flatten ++ [.word x] := List.mem_append_right _ List.mem_cons_self
  refine parseTail_eq_none ?_ ?_ hmem ?_ ?_ _
  · intro t
    have hword := List.rel_append hlex (.cons (lexesTo_word hx) .nil)
    rw [List.append_assoc, lex_indented, lex_parts hword]
    simp
  · simpa using hline
  · simpa using hbrace
  · simpa using hrule

/-- A rule has a comment exactly if it has a text or a device for one. -/
theorem commentPart_eq (r : NatRule) : commentPart r = [] ∧ r.comment = [] ∧ r.deviceName = [] ∨
    ∃ y, commentPart r = ["comment".toList ++ ' ' :: y] := by
  rw [commentPart]
  by_cases hcomment : r.comment = []
  · by_cases hname : r.deviceName = []
    · exact .inl ⟨by simp [hcomment, hname], hcomment, hname⟩
    · exact .inr ⟨quoted r.deviceName, by rw [if_neg (by simp [hcomment]), if_pos hname]; rfl⟩
  · exact .inr ⟨quoted r.comment, by rw [if_pos hcomment]; rfl⟩

/-- What follows the protocol where no port does. -/
theorem exists_next {r : NatRule} (h : ¬(r.originalPort ≠ [] ∧ ¬hasSource r ∧ r.natAddr = [])) :
    ∃ x y qs, sourcePart r ++ destinationPart r ++ portPart r ++ commentPart r ++
        ["dnat to ".toList ++ dnatTarget r] = (x ++ ' ' :: y) :: qs ∧
      x ∈ ["ip".toList, "comment".toList, "dnat".toList] := by
  by_cases hsource : hasSource r
  · have hsourcePart : sourcePart r = ["ip saddr ".toList ++ r.connectingDevices] := if_pos hsource
    rw [hsourcePart]
    exact ⟨"ip".toList, "saddr ".toList ++ r.connectingDevices, _, rfl, by simp⟩
  · have hsourcePart : sourcePart r = [] := if_neg hsource
    by_cases hnat : r.natAddr = []
    · have hport : portPart r = [] := if_neg fun hport => h ⟨hport.1, hsource, hnat⟩
      have hdestination : destinationPart r = [] := if_neg (not_not.mpr hnat)
      rw [hsourcePart, hport, hdestination]
      obtain ⟨hcomment, -⟩ | ⟨y, hcomment⟩ := commentPart_eq r
      · rw [hcomment]
        exact ⟨"dnat".toList, "to ".toList ++ dnatTarget r, [], rfl, by simp⟩
      · rw [hcomment]
        exact ⟨"comment".toList, y, _, rfl, by simp⟩
    · have hdestination : destinationPart r = ["ip daddr ".toList ++ r.natAddr] := if_pos hnat
      rw [hsourcePart, hdestination]
      exact ⟨"ip".toList, "daddr ".toList ++ r.natAddr, _, rfl, by simp⟩

/-- The line of a rule out of order is no rule. -/
theorem parseTail_not_ordered {r : NatRule} (h : WellFormed r) (hordered : ¬Ordered r) (t : Text) :
    parseTail (writeRule (preroutingLine r) ++ t) = none := by
  by_cases hfront : hasProtocol r → r.originalPort ≠ [] ∧ ¬hasSource r ∧ r.natAddr = []
  · obtain ⟨-, hcomment⟩ | ⟨y, hcomment⟩ := commentPart_eq r
    · exact absurd ⟨hcomment, hfront⟩ hordered
    · have hparts : preroutingParts r = frontParts r ++ ("comment".toList ++ ' ' :: y) ::
          ["dnat to ".toList ++ dnatTarget r] := by
        rw [preroutingParts_eq, hcomment]
        rfl
      refine parseTail_parts hparts (lexesTo_front h) (newline_not_mem_front r) (by decide)
        (by decide) ?_ t
      intro rest
      rw [parseRule_front h hfront, parseRule_comment]
      rfl
  · obtain ⟨hprotocol, hbad⟩ := Classical.not_imp.mp hfront
    obtain ⟨x, y, qs, hnext, hx⟩ := exists_next hbad
    obtain ⟨-, proto, hproto⟩ | ⟨hnot, -⟩ := not_hasPorts_or h
    swap
    · exact absurd hprotocol hnot
    have hparts : preroutingParts r =
        interfacePart r ++ protocolPart r ++ (x ++ ' ' :: y) :: qs := by
      rw [preroutingParts, ← hnext]
      simp only [List.append_assoc]
    have htokens : protocolTokens r = [[.word (toLower r.protocol)]] := if_pos hprotocol
    have hwords : ∀ x ∈ ["ip".toList, "comment".toList, "dnat".toList],
        IsWord x ∧ x ≠ ['\x7d'] ∧ x ≠ "dport".toList ∧ x ≠ "to".toList := by decide
    obtain ⟨hword, hbrace, hdport, hto⟩ := hwords x hx
    refine parseTail_parts hparts (List.rel_append (lexesTo_interface h) (lexesTo_protocol h)) ?_
      hword hbrace ?_ t
    · rw [htokens, interfaceTokens]
      split_ifs <;> simp
    · intro rest
      rw [List.flatten_append, List.append_assoc, parseRule_interface, htokens]
      simp only [List.flatten_cons, List.flatten_nil, List.append_nil, List.cons_append,
        List.nil_append]
      rw [parseRule_protocol_none hproto hdport hto]
      rfl

/-! ## The chain -/

theorem parseTail_close : parseTail "  \x7d\n".toList = some [] := by
  have hlex : lex "  \x7d\n".toList = some [.word ['\x7d'], .newline] := by
    change lex (' ' :: ' ' :: (['\x7d'] ++ '\n' :: [])) = _
    rw [lex_space, lex_space, (lexesTo_word (w := ['\x7d']) (by decide)).newline, lex_nil]
    rfl
  rw [parseTail, hlex]
  rfl

/-- The chain is read rule by rule, up to the first that is out of order. -/
theorem parseTail_preroutingRules {rules : List NatRule} (h : ∀ r ∈ rules, WellFormed r) :
    ((∀ r ∈ rules, r.enabled = true → Ordered r) →
      parseTail (preroutingRules rules ++ "  \x7d\n".toList) =
        some ((rules.filter (·.enabled)).map ruleOf)) ∧
    (parseTail (preroutingRules rules ++ "  \x7d\n".toList) ≠ none →
      ∀ r ∈ rules, r.enabled = true → Ordered r) := by
  induction rules with
  | nil => exact ⟨fun _ => parseTail_close, fun _ r hr => absurd hr (by simp)⟩
  | cons r rules ih =>
    rw [List.forall_mem_cons] at h
    obtain ⟨hall, hsome⟩ := ih h.2
    rw [preroutingRules] at hall hsome ⊢
    by_cases henabled : r.enabled = true
    · rw [List.filter_cons_of_pos henabled, List.flatMap_cons, List.append_assoc]
      by_cases hordered : Ordered r
      · rw [parseTail_ordered h.1 hordered]
        constructor
        · intro hrest
          rw [hall fun r' hr' => hrest r' (List.mem_cons_of_mem r hr')]
          rfl
        · intro hne
          rw [List.forall_mem_cons]
          exact ⟨fun _ => hordered, hsome fun hnone => hne (by rw [hnone]; rfl)⟩
      · rw [parseTail_not_ordered h.1 hordered]
        exact ⟨fun hrest => absurd (hrest r List.mem_cons_self henabled) hordered,
          fun hne => absurd rfl hne⟩
    · rw [List.filter_cons_of_neg henabled, List.forall_mem_cons]
      exact ⟨fun hrest => hall hrest.2, fun hne => ⟨fun he => absurd he henabled, hsome hne⟩⟩

/-- Words with spaces between them are read as these words. -/
theorem lexesTo_words {ws : List String} (hne : ws ≠ []) (h : ∀ w ∈ ws, IsWord w.toList) :
    LexesTo (joinSpace (ws.map String.toList)) (words ws) := by
  induction ws with
  | nil => exact absurd rfl hne
  | cons w ws ih =>
    rw [List.forall_mem_cons] at h
    cases ws with
    | nil =>
      rw [List.map_singleton, joinSpace, List.intercalate_singleton]
      exact lexesTo_word h.1
    | cons w' ws =>
      rw [List.map_cons, joinSpace, List.intercalate_cons_of_ne_nil (by simp), List.append_assoc]
      exact .cons h.1 (ih (by simp) h.2)

/-- The chain is parsed as its rules, once the header is taken off. -/
theorem parseChain_preroutingChain (rules : List NatRule) :
    parseChain preroutingHeader preroutingSpec (preroutingChain rules) =
      parseTail (preroutingRules rules ++ "  \x7d\n".toList) := by
  have hheader : LexesTo (joinSpace (["chain", "prerouting", "\x7b"].map String.toList))
      preroutingHeader := lexesTo_words (by decide) (by decide)
  have hspec : LexesTo (joinSpace (["type", "nat", "hook", "prerouting", "priority", "dstnat;",
      "policy", "accept;"].map String.toList)) preroutingSpec :=
    lexesTo_words (by decide) (by decide)
  have hchain : preroutingChain rules = ' ' :: ' ' ::
      joinSpace (["chain", "prerouting", "\x7b"].map String.toList) ++ '\n' ::
      (' ' :: ' ' :: ' ' :: ' ' :: joinSpace (["type", "nat", "hook", "prerouting", "priority",
        "dstnat;", "policy", "accept;"].map String.toList) ++ '\n' ::
        (preroutingRules rules ++ "  \x7d\n".toList)) := rfl
  rw [hchain]
  exact parseChain_eq hheader.indent.indent hspec.indent.indent.indent.indent (by decide)
    (by decide) _

/-- The chain translates the rules exactly when no enabled rule has a comment or the name of
a device, and each enabled rule for `tcp` or `udp` has a port and neither a source nor a NAT
address. -/
theorem translatesTo_iff {rules : List NatRule} (h : ∀ r ∈ rules, WellFormed r) :
    TranslatesTo rules ↔ ∀ r ∈ rules, r.enabled = true → Ordered r := by
  obtain ⟨hall, hsome⟩ := parseTail_preroutingRules h
  constructor
  · rintro ⟨parsed, hparsed, -⟩
    rw [parseChain_preroutingChain] at hparsed
    exact hsome (by rw [hparsed]; exact Option.some_ne_none _)
  · intro hordered
    refine ⟨_, (parseChain_preroutingChain rules).trans (hall hordered), ?_⟩
    rw [List.map_map, List.map_inj_left]
    intro r hr
    obtain ⟨hr, henabled⟩ := List.mem_filter.mp hr
    exact meaning_ruleOf (h r hr) (hordered r hr henabled)

/-- A rule for the web server of a device. -/
def webRule : NatRule where
  enabled := true
  protocol := "tcp".toList
  connectingDevices := "any".toList
  incomingInterface := "eth0".toList
  outgoingInterface := []
  natAddr := []
  originalPort := "8080".toList
  translatedPort := "80".toList
  deviceAddr := "192.168.1.10".toList
  deviceName := []
  doubleNat := false
  doubleNatAddr := []
  comment := []

theorem translatesTo_iff_webRule : WellFormed webRule ∧ TranslatesTo [webRule] := by
  have hwell : WellFormed webRule := by decide
  refine ⟨hwell, (translatesTo_iff (by simpa using hwell)).mpr ?_⟩
  rw [List.forall_mem_singleton]
  exact fun _ => ⟨⟨rfl, rfl⟩, fun _ => by decide⟩

/-- A rule of the same kind with an address of its own and the name of the device. -/
def namedRule : NatRule :=
  { webRule with natAddr := "10.0.0.5".toList, deviceName := "press".toList }

/-- Its line begins with `iifname "eth0" tcp ip daddr`. -/
theorem not_translatesTo_namedRule : WellFormed namedRule ∧ ¬TranslatesTo [namedRule] := by
  have hwell : WellFormed namedRule := by decide
  have hordered : ¬Ordered namedRule := fun h => absurd h.comment.2 (by decide)
  refine ⟨hwell, ?_⟩
  rintro ⟨parsed, hparsed, -⟩
  have hrules : preroutingRules [namedRule] = writeRule (preroutingLine namedRule) :=
    List.flatMap_singleton _ _
  rw [parseChain_preroutingChain, hrules, parseTail_not_ordered hwell hordered] at hparsed
  cases hparsed

end NatRules
