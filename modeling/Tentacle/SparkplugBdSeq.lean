import Tentacle.Histories
import Tentacle.NodeSystem

/-!
# The bdSeq of the wills

Every CONNECT that the broker accepts carries a will with a bdSeq. The will is
fixed when the client is created, the file holds the bdSeq of the last client
created, and the node's own number moves on only when a born node disconnects
or a new process reads the file.
-/

namespace SparkplugBdSeq

open GoValues SparkplugPayload SparkplugNode NodeSystem
open Histories (Each each_snoc)

variable {F32 F64 : Type}

/-- The number in the metric named `bdSeq`. -/
def bdSeqOf (p : Payload F32 F64) : Option Nat :=
  match (p.metrics.find? (fun m => m.name = "bdSeq")).bind (·.value) with
  | some (.int _ n) => some n.toNat
  | _ => none

/-- A CONNECT carries the number after the one of the CONNECT before. -/
def Advances (before : List (Payload F32 F64)) (will : Payload F32 F64) : Prop :=
  ∀ last ∈ before.getLast?, ∃ p, bdSeqOf last = some p ∧ bdSeqOf will = some ((p + 1) % 256)

def Counted (connects : List (Payload F32 F64)) : Prop := Each Advances connects

theorem isSpace_of_isDigit {c : Char} (h : c.isDigit = true) : isSpace c = false := by
  obtain ⟨hlo, hhi⟩ := toNat_of_isDigit h
  rw [isSpace, Bool.or_eq_false_iff]
  constructor
  · apply decide_eq_false
    intro hmem
    simp only [List.mem_cons, List.not_mem_nil, or_false] at hmem
    omega
  · rw [Bool.and_eq_false_iff]
    exact .inl (decide_eq_false (by omega))

theorem dropWhile_isSpace {cs : List Char} (h : ∀ c ∈ cs, c.isDigit = true) :
    cs.dropWhile isSpace = cs := by
  cases cs with
  | nil => rfl
  | cons c cs => rw [List.dropWhile_cons, isSpace_of_isDigit (h c List.mem_cons_self)]; rfl

theorem trimSpace_toDigits (n : Nat) : trimSpace (Nat.toDigits 10 n) = Nat.toDigits 10 n := by
  have hdigits : ∀ c ∈ Nat.toDigits 10 n, c.isDigit = true :=
    fun c hc => Nat.isDigit_of_mem_toDigits (by decide) (by decide) hc
  have hreverse : ∀ c ∈ (Nat.toDigits 10 n).reverse, c.isDigit = true :=
    fun c hc => hdigits c (List.mem_reverse.mp hc)
  rw [trimSpace, dropWhile_isSpace hdigits, dropWhile_isSpace hreverse, List.reverse_reverse]

/-- The digits of a number of 64 bits are parsed to it. -/
theorem parseUint_toDigits {n : Nat} (h : n < 2 ^ 64) :
    parseUint (Nat.toDigits 10 n) = some n := by
  have hdigits : (Nat.toDigits 10 n).all Char.isDigit = true := by
    rw [List.all_eq_true]
    exact fun c hc => Nat.isDigit_of_mem_toDigits (by decide) (by decide) hc
  have hvalue : (Nat.toDigits 10 n).foldl (fun v c => 10 * v + (c.toNat - '0'.toNat)) 0 = n :=
    Nat.ofDigitChars_eq_foldl.symm.trans Nat.ofDigitChars_ten_toDigits
  rw [parseUint, if_pos ⟨Nat.toDigits_ne_nil, hdigits⟩, hvalue]
  exact if_pos h

/-- The numbers the node writes are read back. -/
theorem savedBdSeq_toString (n : Nat) (h : n < 256) : savedBdSeq (some (toString n)) = some n := by
  have hdigits : (toString n).toList = Nat.toDigits 10 n := Nat.toList_repr
  rw [savedBdSeq, Option.bind_some, hdigits, trimSpace_toDigits]
  exact parseUint_toDigits (by omega)

/-- A method that leaves the session and its number alone. -/
structure SameSession (n n' : Node F32 F64) : Prop where
  config : n'.config = n.config
  client : n'.client = n.client
  bdSeq : n'.bdSeq = n.bdSeq

theorem setStateLocked_sameSession (n : Node F32 F64) (s : NodeState) :
    SameSession n (setStateLocked n s) := ⟨by simp, by simp, by simp⟩

theorem processHostState_sameSession (hostID : String) (online : Bool) (timestamp : Int)
    (n : Node F32 F64) : SameSession n (processHostState hostID online timestamp n).1 := by
  unfold processHostState
  split
  · exact ⟨rfl, rfl, rfl⟩
  · split <;> exact ⟨rfl, rfl, rfl⟩

section Methods

variable [GoFloats F32 F64] (marshal : PbPayload F32 F64 → Option String) (broker : Broker)

theorem deviceBirths_sameSession (now : Nat) (order : List String) (n : Node F32 F64) :
    SameSession n (deviceBirths marshal broker now order n).1 := by
  obtain ⟨seq, h⟩ := @deviceBirths_fst F32 F64 _ marshal broker now order n
  exact ⟨by rw [h], by rw [h], by rw [h]⟩

/-- A birth opens no session and changes no number. -/
theorem birth_sameSession (now : Nat) (order : List String) (n : Node F32 F64) :
    SameSession n (birth marshal broker now order n).1 := by
  rcases birth_cases marshal broker now order n with ⟨-, h⟩ | ⟨-, -, h⟩ | ⟨-, -, h⟩
  · rw [h]
    exact ⟨rfl, rfl, rfl⟩
  · rw [h]
    exact ⟨rfl, rfl, rfl⟩
  · have hs := deviceBirths_sameSession marshal broker now order (bornNode n)
    rw [h]
    exact ⟨hs.config.trans (bornNode_config n), hs.client.trans (bornNode_client n),
      hs.bdSeq.trans (bornNode_bdSeq n)⟩

theorem publishDeviceBirth_sameSession (now : Nat) (deviceID : String) (n : Node F32 F64) :
    SameSession n (publishDeviceBirth marshal broker now deviceID n).1 := by
  rcases publishDeviceBirth_cases marshal broker now deviceID n with h | ⟨metrics, -, -, h⟩ <;>
    rw [h] <;> exact ⟨rfl, rfl, rfl⟩

theorem publishDeviceData_sameSession (now : Nat) (deviceID : String)
    (metrics : List (Metric F32 F64)) (n : Node F32 F64) :
    SameSession n (publishDeviceData marshal broker now deviceID metrics n).1 := by
  rcases publishDeviceData_cases marshal broker now deviceID metrics n with ⟨-, h⟩ | ⟨-, h⟩ <;>
    rw [h] <;> exact ⟨rfl, rfl, rfl⟩

theorem publishDeviceDataPayload_sameSession (deviceID : String) (payload : Payload F32 F64)
    (n : Node F32 F64) :
    SameSession n (publishDeviceDataPayload marshal broker deviceID payload n).1 := by
  rcases publishDeviceDataPayload_cases marshal broker deviceID payload n with ⟨-, h⟩ | ⟨-, h⟩ <;>
    rw [h] <;> exact ⟨rfl, rfl, rfl⟩

end Methods

/-- Where the numbers are: before the first CONNECT the node has a new one, and
after it the file, the open client and the node agree on the last one, except
that a node without a client may be one ahead. -/
structure Tracks (cfg : Config) (s : System F32 F64) : Prop where
  config : s.node.config = cfg
  small : s.node.bdSeq < 256
  first : s.connects = [] → s.node.client = none ∧ savedBdSeq s.file ≠ some s.node.bdSeq
  later : ∀ will ∈ s.connects.getLast?, ∃ p < 256, bdSeqOf will = some p ∧
    savedBdSeq s.file = some p ∧ (s.node.bdSeq = p ∨ s.node.bdSeq = (p + 1) % 256) ∧
    ∀ c ∈ s.node.client, bdSeqOf c.will = some p ∧ s.node.bdSeq = p

/-- A new process has a number that is not the one in the file. -/
theorem newSparkplugNode_fresh (cfg : Config) (file : Option String) (h : cfg.bdSeqFile ≠ "") :
    savedBdSeq file ≠ some (newSparkplugNode cfg file : Node F32 F64).bdSeq := by
  cases hv : savedBdSeq file with
  | none => simp
  | some v =>
    simp only [newSparkplugNode, h, ne_eq, not_false_eq_true, if_true, hv, Option.some.injEq]
    omega

/-- The number that a node starts with is one byte. -/
theorem newSparkplugNode_small (cfg : Config) (file : Option String) :
    (newSparkplugNode cfg file : Node F32 F64).bdSeq < 256 := by
  simp only [newSparkplugNode]
  split
  · split
    · decide
    · exact Nat.mod_lt _ (by decide)
  · decide

theorem initial_tracks (cfg : Config) (file : Option String) (h : cfg.bdSeqFile ≠ "") :
    Tracks cfg (initial cfg file : System F32 F64) :=
  ⟨rfl, newSparkplugNode_small cfg file, fun _ => ⟨rfl, newSparkplugNode_fresh cfg file h⟩,
    by simp [initial]⟩

/-- A CONNECT with the node's number goes on from the last one exactly when it is
not the last one again. -/
theorem advances_iff {cfg : Config} {s : System F32 F64} (h : Tracks cfg s)
    {will : Payload F32 F64} (hwill : bdSeqOf will = some s.node.bdSeq) :
    Advances s.connects will ↔ savedBdSeq s.file ≠ some s.node.bdSeq := by
  cases hlast : s.connects.getLast? with
  | none => simp [Advances, hlast, (h.first (List.getLast?_eq_none_iff.mp hlast)).2]
  | some last =>
    obtain ⟨p, hp, hw, hf, hb, -⟩ := h.later last hlast
    simp only [Advances, hlast, Option.mem_def, Option.some.injEq, forall_eq', hw, hwill, hf,
      exists_eq_left', ne_eq]
    omega

section Steps

variable [GoFloats F32 F64] {marshal : PbPayload F32 F64 → Option String}

/-- A `Connect` that gets through to the broker and is accepted. -/
def Connects (marshal : PbPayload F32 F64 → Option String) (n : Node F32 F64) (now : Nat)
    (dial : Option String) : Prop :=
  n.state = .disconnected ∧ encodeError marshal (ndeathPayload now n.bdSeq) = none ∧ dial = none

/-- What a step can do to the session: nothing, or one of five things. -/
inductive SessionStep (marshal : PbPayload F32 F64 → Option String) (s t : System F32 F64) :
    NodeAction F32 F64 → Prop where
  | quiet {a : NodeAction F32 F64} : SameSession s.node t.node → t.file = s.file →
      t.connects = s.connects → a ≠ .autoReconnect →
      (∀ now dial, a = .connect now dial → ¬ Connects marshal s.node now dial) →
      SessionStep marshal s t a
  | connect {now : Nat} {dial : Option String} : Connects marshal s.node now dial →
      t.node.config = s.node.config → t.node.bdSeq = s.node.bdSeq →
      t.node.client = some ⟨ndeathPayload now s.node.bdSeq, true⟩ →
      t.file = writeBdSeq t.node s.file →
      t.connects = s.connects ++ [ndeathPayload now s.node.bdSeq] →
      SessionStep marshal s t (.connect now dial)
  | lose {c : Client F32 F64} : s.node.client = some c →
      t = { s with node := setConnected s.node c false } → SessionStep marshal s t .loseConnection
  | reconnect {c : Client F32 F64} : s.node.client = some c →
      t = { s with node := setConnected s.node c true, connects := s.connects ++ [c.will] } →
      SessionStep marshal s t .autoReconnect
  | disconnect {broker : Broker} {now : Nat} : s.node.client ≠ none →
      t.node.config = s.node.config → t.node.client = none →
      t.node.bdSeq = (if s.node.state = .born then (s.node.bdSeq + 1) % 256 else s.node.bdSeq) →
      t.file = s.file → t.connects = s.connects → SessionStep marshal s t (.disconnect broker now)
  | restart : t = { s with node := newSparkplugNode s.node.config s.file } →
      SessionStep marshal s t .restart

/-- A connect that gets through opens a session with the number of the node. -/
theorem connect_session {s t : System F32 F64} {now : Nat} {dial : Option String}
    (ht : step marshal s (.connect now dial) = some t) :
    SessionStep marshal s t (.connect now dial) := by
  simp only [step, SparkplugNode.connect] at ht
  by_cases hs : s.node.state = .disconnected
  · cases he : encodeError marshal (ndeathPayload now s.node.bdSeq) with
    | some e =>
      simp only [hs, he, ne_eq, not_true, if_false] at ht
      cases ht
      refine .quiet ⟨rfl, rfl, rfl⟩ rfl rfl (by simp) ?_
      rintro now' dial' hact ⟨-, hn, -⟩
      cases hact
      rw [he] at hn
      cases hn
    | none =>
      cases hd : dial with
      | some e =>
        simp only [hs, he, hd, ne_eq, not_true, if_false] at ht
        cases ht
        refine .quiet ⟨rfl, rfl, rfl⟩ rfl rfl (by simp) ?_
        rintro now' dial' hact ⟨-, -, hn⟩
        cases hact
        cases hn
      | none =>
        simp only [hs, he, hd, ne_eq, not_true, if_false] at ht
        cases ht
        exact .connect ⟨hs, he, rfl⟩ (by simp) (by simp) (by simp) rfl (by simp)
  · simp only [hs, ne_eq, not_false_eq_true, if_true] at ht
    cases ht
    refine .quiet ⟨rfl, rfl, rfl⟩ rfl rfl (by simp) ?_
    rintro now' dial' - ⟨hn, -⟩
    exact hs hn

/-- A disconnect ends the session, and in a born node it counts on. -/
theorem disconnect_session {s t : System F32 F64} {broker : Broker} {now : Nat}
    (ht : step marshal s (.disconnect broker now) = some t) :
    SessionStep marshal s t (.disconnect broker now) := by
  rcases disconnect_cases marshal broker now s.node with ⟨-, heq⟩ | ⟨hc, hb, heq⟩ | ⟨hc, hb, heq⟩
  · simp only [step, heq] at ht
    cases ht
    exact .quiet ⟨rfl, rfl, rfl⟩ rfl rfl nofun nofun
  · simp only [step, heq] at ht
    cases ht
    exact .disconnect hc (by simp) (by simp) (by simp [hb]) rfl rfl
  · simp only [step, heq] at ht
    cases ht
    exact .disconnect hc (by simp) (by simp) (by simp [hb]) rfl rfl

/-- Each section does to the session what its own name says. -/
theorem step_session {s t : System F32 F64} {a : NodeAction F32 F64}
    (ht : step marshal s a = some t) : SessionStep marshal s t a := by
  cases a with
  | connect now dial => exact connect_session ht
  | disconnect broker now => exact disconnect_session ht
  | loseConnection =>
    simp only [step] at ht
    split at ht
    · rename_i c hc
      split at ht
      · cases ht
        exact .lose hc rfl
      · cases ht
    · cases ht
  | autoReconnect =>
    simp only [step] at ht
    split at ht
    · rename_i c hc
      split at ht
      · cases ht
      · cases ht
        exact .reconnect hc rfl
    · cases ht
  | restart =>
    cases ht
    exact .restart rfl
  | connectionLost =>
    cases ht
    exact .quiet (setStateLocked_sameSession _ _) rfl rfl nofun nofun
  | onConnect =>
    cases ht
    have hs := setStateLocked_sameSession s.node .dead
    exact .quiet ⟨hs.config, hs.client, hs.bdSeq⟩ rfl rfl nofun nofun
  | processHostState hostID online timestamp =>
    cases ht
    exact .quiet (processHostState_sameSession _ _ _ _) rfl rfl nofun nofun
  | markDead =>
    cases ht
    exact .quiet (setStateLocked_sameSession _ _) rfl rfl nofun nofun
  | birth broker now order =>
    simp only [step] at ht
    split at ht
    · cases ht
      exact .quiet (birth_sameSession _ _ _ _ _) rfl rfl nofun nofun
    · cases ht
  | setNodeMetrics metrics =>
    cases ht
    exact .quiet ⟨rfl, rfl, rfl⟩ rfl rfl nofun nofun
  | setDeviceMetrics deviceID metrics =>
    cases ht
    exact .quiet ⟨rfl, rfl, rfl⟩ rfl rfl nofun nofun
  | publishDeviceBirth broker now deviceID =>
    cases ht
    exact .quiet (publishDeviceBirth_sameSession _ _ _ _ _) rfl rfl nofun nofun
  | publishDeviceData broker now deviceID metrics =>
    cases ht
    exact .quiet (publishDeviceData_sameSession _ _ _ _ _ _) rfl rfl nofun nofun
  | publishDeviceDataPayload broker deviceID timestamp metrics =>
    cases ht
    exact .quiet (publishDeviceDataPayload_sameSession _ _ _ _ _) rfl rfl nofun nofun

/-- Each section leaves the file with the number of the node. -/
theorem step_tracks {cfg : Config} (hcfg : cfg.bdSeqFile ≠ "") {s t : System F32 F64}
    {a : NodeAction F32 F64} (h : Tracks cfg s) (ht : step marshal s a = some t) :
    Tracks cfg t := by
  cases step_session ht with
  | quiet hn hfile hconnects =>
    refine ⟨hn.config.trans h.config, hn.bdSeq ▸ h.small, ?_, ?_⟩
    · rw [hfile, hconnects, hn.client, hn.bdSeq]
      exact h.first
    · rw [hfile, hconnects, hn.client, hn.bdSeq]
      exact h.later
  | connect _ hconfig hbdSeq hclient hfile hconnects =>
    refine ⟨hconfig.trans h.config, hbdSeq ▸ h.small, by simp [hconnects], ?_⟩
    intro will hwill
    rw [hconnects, List.getLast?_concat, Option.mem_def, Option.some.injEq] at hwill
    have hsaved : savedBdSeq t.file = some s.node.bdSeq := by
      rw [hfile, writeBdSeq, if_pos (by rw [hconfig, h.config]; exact hcfg), hbdSeq]
      exact savedBdSeq_toString _ h.small
    refine ⟨s.node.bdSeq, h.small, by rw [← hwill]; rfl, hsaved, .inl hbdSeq, ?_⟩
    intro c hc
    rw [hclient, Option.mem_def, Option.some.injEq] at hc
    rw [← hc]
    exact ⟨rfl, hbdSeq⟩
  | lose hc heq =>
    subst heq
    refine ⟨h.config, h.small, ?_, ?_⟩
    · intro hnil
      exact absurd ((h.first hnil).1.symm.trans hc) nofun
    · intro will hwill
      obtain ⟨p, hp, hw, hf, hb, hclient⟩ := h.later will hwill
      have hopen := hclient _ hc
      refine ⟨p, hp, hw, hf, hb, ?_⟩
      rintro c' ⟨⟩
      exact hopen
  | reconnect hc heq =>
    subst heq
    refine ⟨h.config, h.small, by simp, ?_⟩
    rintro will hwill
    rw [List.getLast?_concat, Option.mem_def, Option.some.injEq] at hwill
    cases hlast : s.connects.getLast? with
    | none =>
      rw [List.getLast?_eq_none_iff] at hlast
      exact absurd ((h.first hlast).1.symm.trans hc) nofun
    | some last =>
      obtain ⟨p, hp, -, hf, hb, hclient⟩ := h.later last hlast
      have hopen := hclient _ hc
      refine ⟨p, hp, hwill ▸ hopen.1, hf, hb, ?_⟩
      rintro c' ⟨⟩
      exact hopen
  | disconnect hopen hconfig hclient hbdSeq hfile hconnects =>
    obtain ⟨c, hc⟩ := Option.ne_none_iff_exists'.mp hopen
    have hlater : ∀ will ∈ s.connects.getLast?, ∃ p < 256, bdSeqOf will = some p ∧
        savedBdSeq s.file = some p ∧ (t.node.bdSeq = p ∨ t.node.bdSeq = (p + 1) % 256) := by
      intro will hwill
      obtain ⟨p, hp, hw, hf, -, hclosed⟩ := h.later will hwill
      refine ⟨p, hp, hw, hf, ?_⟩
      rw [hbdSeq, (hclosed c hc).2]
      split <;> simp
    refine ⟨hconfig.trans h.config, ?_, ?_, ?_⟩
    · have hsmall := h.small
      rw [hbdSeq]
      split <;> omega
    · intro hnil
      exact absurd (h.first (hconnects ▸ hnil)).1 hopen
    · rw [hconnects, hfile, hclient]
      intro will hwill
      obtain ⟨p, hp, hw, hf, hb⟩ := hlater will hwill
      exact ⟨p, hp, hw, hf, hb, nofun⟩
  | restart heq =>
    subst heq
    refine ⟨h.config, newSparkplugNode_small _ _, fun _ => ⟨rfl, ?_⟩, ?_⟩
    · exact newSparkplugNode_fresh _ _ (by rw [h.config]; exact hcfg)
    · intro will hwill
      obtain ⟨p, hp, hw, hf, -, -⟩ := h.later will hwill
      have hnext :
          (newSparkplugNode s.node.config s.file : Node F32 F64).bdSeq = (p + 1) % 256 := by
        simp [newSparkplugNode, h.config, hcfg, hf]
      exact ⟨p, hp, hw, hf, .inr hnext, nofun⟩

/-- The client never reconnects by itself, and a `Connect` that succeeds is made
with another number than the one in the file: the process is new, or it has
disconnected while the node was born. -/
def Fresh (marshal : PbPayload F32 F64 → Option String) (s : System F32 F64) :
    NodeAction F32 F64 → Prop
  | .connect now dial =>
    Connects marshal s.node now dial → savedBdSeq s.file ≠ some s.node.bdSeq
  | .autoReconnect => False
  | _ => True

instance Fresh.decidable (marshal : PbPayload F32 F64 → Option String) (s : System F32 F64) :
    (a : NodeAction F32 F64) → Decidable (Fresh marshal s a)
  | .connect _ _ => by unfold Fresh Connects; infer_instance
  | .autoReconnect => isFalse not_false
  | .loseConnection | .connectionLost | .onConnect | .processHostState _ _ _ | .markDead
  | .birth _ _ _ | .setNodeMetrics _ | .setDeviceMetrics _ _ | .publishDeviceBirth _ _ _
  | .publishDeviceData _ _ _ _ | .publishDeviceDataPayload _ _ _ _ | .disconnect _ _
  | .restart => isTrue trivial

/-- A section keeps the count right exactly if it is fresh. -/
theorem step_counted_iff {cfg : Config} {s t : System F32 F64} {a : NodeAction F32 F64}
    (h : Tracks cfg s) (ht : step marshal s a = some t) :
    Counted t.connects ↔ Counted s.connects ∧ Fresh marshal s a := by
  cases step_session ht with
  | quiet hn hfile hconnects hne hfail =>
    have hfresh : Fresh marshal s a := by
      cases a with
      | connect now dial => exact fun hc => absurd hc (hfail now dial rfl)
      | autoReconnect => exact absurd rfl hne
      | _ => trivial
    rw [hconnects]
    exact (and_iff_left hfresh).symm
  | connect hc _ _ _ _ hconnects =>
    rw [hconnects, Counted, each_snoc, advances_iff h rfl]
    simp [Fresh, hc, Counted]
  | lose hc heq => simp [heq, Fresh]
  | @reconnect c hc heq =>
    have hne : s.connects ≠ [] := fun hnil => absurd ((h.first hnil).1.symm.trans hc) nofun
    obtain ⟨p, -, -, hf, -, hopen⟩ := h.later _ (List.getLast?_eq_some_getLast hne)
    obtain ⟨hw, hb⟩ := hopen _ hc
    have hagain : ¬ Advances s.connects c.will := by
      rw [advances_iff h (by rw [hw, hb]), hf, hb]
      simp
    rw [heq, Counted, each_snoc]
    simp [Fresh, hagain]
  | disconnect _ _ _ _ _ hconnects => simp [hconnects, Fresh]
  | restart heq => simp [heq, Fresh]

/-- The wills of a run carry consecutive numbers exactly when the client never
reconnects by itself and every successful `Connect` is made with a new number. -/
theorem counted_iff_fresh (marshal : PbPayload F32 F64 → Option String) (cfg : Config)
    (hcfg : cfg.bdSeqFile ≠ "") (file : Option String) (as : List (NodeAction F32 F64))
    (t : System F32 F64) (hrun : Runs.run (step marshal) (initial cfg file) as = some t) :
    Counted t.connects ↔ Runs.Meets (step marshal) (Fresh marshal) (initial cfg file) as := by
  have h := Runs.run_iff_meets (P := fun s => Counted s.connects)
    (fun _ _ _ hs ht => step_tracks hcfg hs ht) (fun _ _ _ hs ht => step_counted_iff hs ht)
    (initial_tracks cfg file hcfg) hrun
  simpa [initial, Counted] using h

/-! ## Births and deaths -/

/-- The will of the open client has the node's number. -/
def WillTracks (s : System F32 F64) : Prop :=
  ∀ c ∈ s.node.client, bdSeqOf c.will = some s.node.bdSeq

/-- Each section leaves the will of the session with the number of the node. -/
theorem step_willTracks {s t : System F32 F64} {a : NodeAction F32 F64} (h : WillTracks s)
    (ht : step marshal s a = some t) : WillTracks t := by
  cases step_session ht with
  | quiet hn =>
    unfold WillTracks
    rw [hn.client, hn.bdSeq]
    exact h
  | connect _ _ hbdSeq hclient =>
    intro c hc
    rw [hclient, Option.mem_def, Option.some.injEq] at hc
    rw [← hc, hbdSeq]
    rfl
  | lose hc heq =>
    have hopen := h _ hc
    subst heq
    rintro c' ⟨⟩
    exact hopen
  | reconnect hc heq =>
    have hopen := h _ hc
    subst heq
    rintro c' ⟨⟩
    exact hopen
  | disconnect _ _ hclient =>
    intro c hc
    rw [hclient] at hc
    cases hc
  | restart heq =>
    subst heq
    exact nofun

/-- A certificate that a birth sends has the number of the node. -/
theorem birth_certificate {broker : Broker} {now : Nat} {order : List String} {n : Node F32 F64}
    {m : Message F32 F64} (h : m ∈ (birth marshal broker now order n).2)
    (htype : m.type = .nbirth ∨ m.type = .ndeath) :
    n.client ≠ none ∧ bdSeqOf m.payload = some n.bdSeq := by
  rcases birth_cases marshal broker now order n with ⟨-, heq⟩ | ⟨-, -, heq⟩ | ⟨hmay, -, heq⟩
  · simp [heq] at h
  · simp [heq] at h
  · rw [heq] at h
    rcases List.mem_cons.mp h with rfl | h
    · refine ⟨?_, rfl⟩
      simp only [mayBirth, Bool.and_eq_true] at hmay
      exact Option.isSome_iff_ne_none.mp hmay.1.2
    · obtain ⟨d, -, hd, -⟩ := deviceBirths_mem h
      simp [hd] at htype

theorem disconnect_certificate {broker : Broker} {now : Nat} {n : Node F32 F64}
    {m : Message F32 F64} (h : m ∈ (disconnect marshal broker now n).2) :
    n.client ≠ none ∧ bdSeqOf m.payload = some n.bdSeq := by
  rcases disconnect_cases marshal broker now n with ⟨-, heq⟩ | ⟨hc, -, heq⟩ | ⟨-, -, heq⟩
  · simp [heq] at h
  · rw [heq] at h
    rw [mem_published h]
    exact ⟨hc, rfl⟩
  · simp [heq] at h

/-- What an action hands to the client. -/
def sentBy (marshal : PbPayload F32 F64 → Option String) (n : Node F32 F64) :
    NodeAction F32 F64 → List (Message F32 F64)
  | .birth broker now order => (birth marshal broker now order n).2
  | .publishDeviceBirth broker now deviceID =>
    (publishDeviceBirth marshal broker now deviceID n).2
  | .publishDeviceData broker now deviceID metrics =>
    (publishDeviceData marshal broker now deviceID metrics n).2.toOption.toList
  | .publishDeviceDataPayload broker deviceID timestamp metrics =>
    let payload := { timestamp := timestamp, seq := 0, metrics := metrics }
    (publishDeviceDataPayload marshal broker deviceID payload n).2.toOption.toList
  | .disconnect broker now => (disconnect marshal broker now n).2
  | _ => []

/-- A section adds to the wire what it sends. -/
theorem step_wire {s t : System F32 F64} {a : NodeAction F32 F64}
    (ht : step marshal s a = some t) : t.wire = s.wire ++ sentBy marshal s.node a := by
  cases a with
  | connect now dial =>
    simp only [step] at ht
    split at ht <;> cases ht <;> exact (List.append_nil _).symm
  | loseConnection | autoReconnect =>
    simp only [step] at ht
    split at ht
    · split at ht
      all_goals
        cases ht
        try exact (List.append_nil _).symm
    · cases ht
  | birth broker now order =>
    simp only [step] at ht
    split at ht
    · cases ht
      rfl
    · cases ht
  | publishDeviceBirth | publishDeviceData | publishDeviceDataPayload | disconnect =>
    cases ht
    rfl
  | connectionLost | onConnect | processHostState | markDead | setNodeMetrics | setDeviceMetrics
  | restart =>
    cases ht
    exact (List.append_nil _).symm

/-- What an action sends as NBIRTH or NDEATH has the node's number, and goes through a client. -/
theorem sentBy_certificate {n : Node F32 F64} {a : NodeAction F32 F64} {m : Message F32 F64}
    (hm : m ∈ sentBy marshal n a) (htype : m.type = .nbirth ∨ m.type = .ndeath) :
    n.client ≠ none ∧ bdSeqOf m.payload = some n.bdSeq := by
  cases a with
  | birth broker now order => exact birth_certificate hm htype
  | disconnect broker now => exact disconnect_certificate hm
  | publishDeviceBirth broker now deviceID =>
    rcases publishDeviceBirth_cases marshal broker now deviceID n with h | ⟨metrics, -, -, h⟩
    · simp [sentBy, h] at hm
    · simp only [sentBy, h] at hm
      simp [(publishDeviceBirthLocked_mem hm).1] at htype
  | publishDeviceData broker now deviceID metrics =>
    rcases publishDeviceData_cases marshal broker now deviceID metrics n with ⟨-, h⟩ | ⟨-, h⟩
    · simp [sentBy, h, Except.toOption] at hm
    · simp only [sentBy, h] at hm
      simp [mem_published hm] at htype
  | publishDeviceDataPayload broker deviceID timestamp metrics =>
    rcases publishDeviceDataPayload_cases marshal broker deviceID
      { timestamp := timestamp, seq := 0, metrics := metrics } n with ⟨-, h⟩ | ⟨-, h⟩
    · simp [sentBy, h, Except.toOption] at hm
    · simp only [sentBy, h] at hm
      simp [mem_published hm] at htype
  | _ => cases hm

/-- In every run, an NBIRTH or NDEATH has the number in the will of the client it goes through. -/
theorem run_certificate_bdSeq (marshal : PbPayload F32 F64 → Option String) (cfg : Config)
    (file : Option String) (as : List (NodeAction F32 F64)) (s t : System F32 F64)
    (hrun : Runs.run (step marshal) (initial cfg file) as = some s) (a : NodeAction F32 F64)
    (ht : step marshal s a = some t) (sent : List (Message F32 F64))
    (hsent : t.wire = s.wire ++ sent) (m : Message F32 F64) (hm : m ∈ sent)
    (htype : m.type = .nbirth ∨ m.type = .ndeath) :
    ∃ c k, s.node.client = some c ∧ bdSeqOf c.will = some k ∧ bdSeqOf m.payload = some k := by
  have hinit : WillTracks (initial cfg file : System F32 F64) := nofun
  have htracks := Runs.run_preserves (fun _ _ _ h hstep => step_willTracks h hstep) hinit hrun
  rw [List.append_cancel_left (hsent.symm.trans (step_wire ht))] at hm
  obtain ⟨hclient, hnumber⟩ := sentBy_certificate hm htype
  obtain ⟨c, hc⟩ := Option.ne_none_iff_exists'.mp hclient
  exact ⟨c, s.node.bdSeq, hc, htracks c hc, hnumber⟩

end Steps

def plantConfig : Config := ⟨"plant", "edge1", "", "/var/lib/bdseq"⟩

/-- The first birth of a process. -/
theorem run_certificate_bdSeq_first :
    ∃ (s t : System ℚ ℚ) (m : Message ℚ ℚ),
      Runs.run (step marshals) (initial plantConfig none) [.connect 1 none, .onConnect] = some s ∧
      step marshals s (.birth accepting 2 []) = some t ∧ t.wire = s.wire ++ [m] ∧
      m.type = .nbirth ∧
      ∃ c k, s.node.client = some c ∧ bdSeqOf c.will = some k ∧ bdSeqOf m.payload = some k :=
  ⟨_, _, _, rfl, rfl, rfl, rfl, run_certificate_bdSeq marshals plantConfig none
    [.connect 1 none, .onConnect] _ _ rfl (.birth accepting 2 []) rfl _ rfl _
    (List.mem_singleton_self _) (.inl rfl)⟩

/-- A session ends while the node is born, one ends with its process. -/
def freshSchedule : List (NodeAction ℚ ℚ) :=
  [.connect 1 none, .onConnect, .birth accepting 2 [], .disconnect accepting 3, .connect 4 none,
    .restart, .connect 5 none]

theorem fresh_schedule_counted :
    ∃ t, Runs.run (step marshals) (initial plantConfig none) freshSchedule = some t ∧
      t.connects.map bdSeqOf = [some 0, some 1, some 2] ∧ Counted t.connects := by
  have hok : Runs.Meets (step marshals) (Fresh marshals) (initial plantConfig none)
      freshSchedule := by decide +kernel
  have hmap : (Runs.run (step marshals) (initial plantConfig none) freshSchedule).map
      (·.connects.map bdSeqOf) = some [some 0, some 1, some 2] := by decide +kernel
  obtain ⟨t, hrun, hwills⟩ := Option.map_eq_some_iff.mp hmap
  exact ⟨t, hrun, hwills,
    (counted_iff_fresh marshals plantConfig (by decide) none _ t hrun).mpr hok⟩

/-- The connection drops and the client opens a new one. -/
def reconnectSchedule : List (NodeAction ℚ ℚ) :=
  [.connect 1 none, .onConnect, .birth accepting 2 [], .loseConnection, .connectionLost,
    .autoReconnect, .onConnect]

/-- The automatic reconnect sends the will of the first CONNECT again. -/
theorem reconnect_not_counted :
    ¬ ∀ (marshal : PbPayload ℚ ℚ → Option String) (cfg : Config) (file : Option String)
      (as : List (NodeAction ℚ ℚ)) (t : System ℚ ℚ), cfg.bdSeqFile ≠ "" →
      Runs.run (step marshal) (initial cfg file) as = some t → Counted t.connects := by
  intro h
  have hmap : (Runs.run (step marshals) (initial plantConfig none) reconnectSchedule).map
      (·.connects.map bdSeqOf) = some [some 0, some 0] := by decide
  obtain ⟨t, hrun, hwills⟩ := Option.map_eq_some_iff.mp hmap
  obtain ⟨first, rest, hfirst, hzero, hrest⟩ := List.map_eq_cons_iff.mp hwills
  obtain ⟨second, rest', hsecond, hzero', hnil⟩ := List.map_eq_cons_iff.mp hrest
  rw [List.map_eq_nil_iff] at hnil
  subst hnil
  have hadvances := h marshals plantConfig none reconnectSchedule t (by decide) hrun
    [first] second [] (by rw [hfirst, hsecond]; rfl)
  simp [Advances, hzero, hzero'] at hadvances

end SparkplugBdSeq
