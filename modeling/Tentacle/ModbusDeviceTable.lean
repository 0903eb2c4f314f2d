import Mathlib.Logic.Function.Basic
import Tentacle.ModbusRequestLimits
import Tentacle.ModbusScanner

/-!
# The device table of the Modbus scanner

What the requests say is kept in a ledger: the subscribers of each device with their tags,
and the settings of the latest subscription that was accepted. The scanner follows it
request by request. A device keeps the settings of the subscription that created it, and
of two tags with one ID it reads the one that comes last, so the table agrees with the
ledger as long as the subscriptions to a device agree with each other.
-/

namespace ModbusDeviceTable

open GoValues ModbusBlockPlan ModbusCodec ModbusReadBlocks ModbusRequestLimits ModbusScanner

/-! ## The ledger -/

/-- The tags of a subscriber by their IDs. -/
abbrev TagTable := String → Option ModbusTagConfig

structure Settings where
  host : String
  port : Int
  unitID : Int
  byteOrder : String
  deriving DecidableEq, Repr

/-- What a request asks for, with the defaults. -/
def settingsOf (req : SubscribeRequest) : Settings where
  host := req.host
  port := if req.port = 0 then 502 else req.port
  unitID := if req.unitID = 0 then 1 else req.unitID
  byteOrder := req.byteOrder

def Accepted (req : SubscribeRequest) : Prop := ¬(req.deviceID = "" ∨ req.host = "")

instance (req : SubscribeRequest) : Decidable (Accepted req) := inferInstanceAs (Decidable (¬_))

/-- Of two tags with one ID the later counts. -/
def tagTable (req : SubscribeRequest) : TagTable := fun id =>
  (req.tags.reverse.find? (·.id = id)).map (tagConfig req)

structure Ledger where
  settings : String → Option Settings := fun _ => none
  subscribers : String → String → Option TagTable := fun _ _ => none

def Ledger.put (l : Ledger) (deviceID subscriberID : String) (tags : Option TagTable) : Ledger :=
  { l with
    subscribers := Function.update l.subscribers deviceID
      (Function.update (l.subscribers deviceID) subscriberID tags) }

open Classical in
/-- What a request to take tags away leaves to a subscriber; a subscriber without tags is
none. -/
noncomputable def remaining (tagIDs : List String) (tags : TagTable) : Option TagTable :=
  if ∃ id, id ∉ tagIDs ∧ tags id ≠ none ∧ tagIDs ≠ [] then
    some fun id => if id ∈ tagIDs then none else tags id
  else none

noncomputable def Ledger.record (l : Ledger) : ScannerAction → Ledger
  | .subscribe req _ =>
    if Accepted req then
      { l.put req.deviceID req.subscriberID (some (tagTable req)) with
        settings := Function.update l.settings req.deviceID (some (settingsOf req)) }
    else l
  | .unsubscribe req _ =>
    l.put req.deviceID req.subscriberID
      ((l.subscribers req.deviceID req.subscriberID).bind (remaining req.tagIDs))
  | .setConnected _ _ => l

structure System where
  scanner : Scanner := Scanner.start
  ledger : Ledger := {}

noncomputable def handle (w : System) (a : ScannerAction) : Option System :=
  (step w.scanner a).map fun s => ⟨s, w.ledger.record a⟩

/-! ## Agreement -/

/-- A block reads the tag: with its function code, at its address, as its datatype. -/
def ReadAs (blocks : List ReadBlock) (c : ModbusTagConfig) : Prop :=
  ∃ block ∈ blocks, ∃ t ∈ block.tags, t.tag.id = c.id ∧ t.tag.datatype = c.datatype ∧
    block.functionCode = fcNameToCode c.functionCode ∧
    (addressField (readRequest block) : Int) + t.offset = c.address ∧
    t.offset + regSize c ≤ block.count

/-- The table is what the requests say. -/
structure TableAgrees (w : System) : Prop where
  present : ∀ d, (w.scanner.devices.lookup d).isSome ↔
    ∃ sub tags, w.ledger.subscribers d sub = some tags
  settings : ∀ d dev, w.scanner.devices.lookup d = some dev →
    w.ledger.settings d = some ⟨dev.host, dev.port, dev.unitID.toNat, dev.byteOrder⟩
  reads : ∀ d dev, w.scanner.devices.lookup d = some dev → ∀ groups, Groups dev.allTags groups →
    ∀ sub tags id c, w.ledger.subscribers d sub = some tags → tags id = some c →
      ReadAs (buildReadBlocks groups) c

/-- Two tags are read alike. -/
structure Alike (c c' : ModbusTagConfig) : Prop where
  address : c.address = c'.address
  functionCode : fcNameToCode c.functionCode = fcNameToCode c'.functionCode
  datatype : c.datatype = c'.datatype

/-- An accepted subscription keeps to the settings of a device that has subscribers, its
unit ID is a byte, its tags lie within the addresses of the protocol, and they are like
those that other subscribers of the device have under the same IDs. -/
def Steady (w : System) : ScannerAction → Prop
  | .subscribe req _ => Accepted req →
    ((∃ sub tags, w.ledger.subscribers req.deviceID sub = some tags) →
      w.ledger.settings req.deviceID = some (settingsOf req)) ∧
    (0 ≤ (settingsOf req).unitID ∧ (settingsOf req).unitID < 256) ∧
    (∀ id c, tagTable req id = some c → InRange c) ∧
    ∀ id c, tagTable req id = some c → ∀ sub tags c', sub ≠ req.subscriberID →
      w.ledger.subscribers req.deviceID sub = some tags → tags id = some c' → Alike c c'
  | .unsubscribe _ _ => True
  | .setConnected _ _ => True

/-! ## Entries of the ledger -/

theorem put_self (l : Ledger) (d sub : String) (tags : Option TagTable) :
    (l.put d sub tags).subscribers d sub = tags := by
  simp [Ledger.put]

theorem put_other (l : Ledger) (d : String) {sub other : String} (tags : Option TagTable)
    (h : other ≠ sub) : (l.put d sub tags).subscribers d other = l.subscribers d other := by
  simp [Ledger.put, h]

theorem put_device (l : Ledger) {d d' : String} (sub : String) (tags : Option TagTable)
    (h : d' ≠ d) : (l.put d sub tags).subscribers d' = l.subscribers d' := by
  simp [Ledger.put, h]

/-- An entry after a change is the changed one or was there before. -/
theorem put_cases {l : Ledger} {d sub d' sub' : String} {new : Option TagTable} {tags : TagTable}
    (h : (l.put d sub new).subscribers d' sub' = some tags) :
    (d' = d ∧ sub' = sub ∧ new = some tags) ∨
      (¬(d' = d ∧ sub' = sub) ∧ l.subscribers d' sub' = some tags) := by
  by_cases hd : d' = d
  · subst hd
    by_cases hsub : sub' = sub
    · subst hsub
      rw [put_self] at h
      exact .inl ⟨rfl, rfl, h⟩
    · rw [put_other l d' new hsub] at h
      exact .inr ⟨fun heq => hsub heq.2, h⟩
  · rw [put_device l sub new hd] at h
    exact .inr ⟨fun heq => hd heq.1, h⟩

theorem id_of_tagTable {req : SubscribeRequest} {id : String} {c : ModbusTagConfig}
    (h : tagTable req id = some c) : c.id = id := by
  obtain ⟨tag, htag, rfl⟩ := Option.map_eq_some_iff.mp h
  simpa [tagConfig] using List.find?_some htag

/-- A tag that is left was there before. -/
theorem of_remaining {tagIDs : List String} {tags rest : TagTable}
    (h : remaining tagIDs tags = some rest) {id : String} {c : ModbusTagConfig}
    (hc : rest id = some c) : tags id = some c := by
  rw [remaining] at h
  split at h
  · cases h
    dsimp only at hc
    split at hc
    · cases hc
    · exact hc
  · cases h

/-! ## The invariant -/

/-- The tags of the ledger: each has its ID and lies within the addresses, and those of
one device with one ID are alike. -/
structure Sound (l : Ledger) : Prop where
  tags : ∀ d sub tags id c, l.subscribers d sub = some tags → tags id = some c →
    c.id = id ∧ InRange c
  alike : ∀ d sub sub' tags tags' id c c', l.subscribers d sub = some tags →
    l.subscribers d sub' = some tags' → tags id = some c → tags' id = some c' → Alike c c'

theorem Alike.refl (c : ModbusTagConfig) : Alike c c := ⟨rfl, rfl, rfl⟩

theorem Alike.symm {c c' : ModbusTagConfig} (h : Alike c c') : Alike c' c :=
  ⟨h.address.symm, h.functionCode.symm, h.datatype.symm⟩

/-- A steady subscription keeps the ledger sound. -/
theorem Sound.subscribe {w : System} (h : Sound w.ledger) {req : SubscribeRequest}
    {order : List String} (hsteady : Steady w (.subscribe req order)) :
    Sound (w.ledger.record (.subscribe req order)) := by
  rw [Ledger.record]
  split
  case isFalse => exact h
  case isTrue haccepted =>
    obtain ⟨-, -, hrange, halike⟩ := hsteady haccepted
    constructor
    · intro d sub tags id c hsub hc
      obtain ⟨rfl, rfl, hnew⟩ | ⟨-, hold⟩ := put_cases hsub
      · cases hnew
        exact ⟨id_of_tagTable hc, hrange id c hc⟩
      · exact h.tags d sub tags id c hold hc
    · intro d sub sub' tags tags' id c c' hsub hsub' hc hc'
      obtain ⟨rfl, rfl, hnew⟩ | ⟨hne, hold⟩ := put_cases hsub
      · cases hnew
        obtain ⟨-, rfl, hnew'⟩ | ⟨hne', hold'⟩ := put_cases hsub'
        · cases hnew'
          cases hc.symm.trans hc'
          exact Alike.refl c
        · exact halike id c hc sub' tags' c' (fun heq => hne' ⟨rfl, heq⟩) hold' hc'
      · obtain ⟨rfl, rfl, hnew'⟩ | ⟨-, hold'⟩ := put_cases hsub'
        · cases hnew'
          exact (halike id c' hc' sub tags c (fun heq => hne ⟨rfl, heq⟩) hold hc).symm
        · exact h.alike d sub sub' tags tags' id c c' hold hold' hc hc'

/-- An unsubscription keeps it sound. -/
theorem Sound.unsubscribe {l : Ledger} (h : Sound l) (req : UnsubscribeRequest)
    (order : List String) : Sound (l.record (.unsubscribe req order)) := by
  rw [Ledger.record]
  -- What is left to the subscriber was there before.
  have hold : ∀ {d sub : String} {tags : TagTable},
      (l.put req.deviceID req.subscriberID ((l.subscribers req.deviceID req.subscriberID).bind
        (remaining req.tagIDs))).subscribers d sub = some tags →
      ∃ before, l.subscribers d sub = some before ∧ ∀ id c, tags id = some c →
        before id = some c := by
    intro d sub tags hsub
    obtain ⟨rfl, rfl, hnew⟩ | ⟨-, hsame⟩ := put_cases hsub
    · obtain ⟨before, hbefore, hrest⟩ := Option.bind_eq_some_iff.mp hnew
      exact ⟨before, hbefore, fun id c hc => of_remaining hrest hc⟩
    · exact ⟨tags, hsame, fun _ _ hc => hc⟩
  constructor
  · intro d sub tags id c hsub hc
    obtain ⟨before, hbefore, htags⟩ := hold hsub
    exact h.tags d sub before id c hbefore (htags id c hc)
  · intro d sub sub' tags tags' id c c' hsub hsub' hc hc'
    obtain ⟨before, hbefore, htags⟩ := hold hsub
    obtain ⟨before', hbefore', htags'⟩ := hold hsub'
    exact h.alike d sub sub' before before' id c c' hbefore hbefore' (htags id c hc)
      (htags' id c' hc')

/-! ## The tags of a device -/

def tableOf (sub : Subscriber) : TagTable := fun id => sub.tags.lookup id

/-- A new subscriber has the tags of its request. -/
theorem tableOf_newSubscriber (req : SubscribeRequest) :
    tableOf (newSubscriber req) = tagTable req := by
  funext id
  rw [tableOf, newSubscriber, tagTable]
  dsimp only
  induction req.tags using List.reverseRecOn with
  | nil => rfl
  | append_singleton tags tag ih =>
    rw [List.foldl_append, List.foldl_cons, List.foldl_nil, List.reverse_append,
      List.reverse_singleton, List.singleton_append, List.find?_cons]
    by_cases hid : tag.id = id
    · subst hid
      simp
    · simp only [hid, decide_false, AList.lookup_insert_ne (Ne.symm hid), ih]

/-- After a run of insertions there are the keys that were put in and those from before. -/
theorem mem_foldl_insert_iff {V : Type} (k : String) (es : List (Sigma fun _ : String => V))
    (m : GoMap String V) :
    k ∈ es.foldl (fun m e => m.insert e.1 e.2) m ↔ k ∈ es.map (·.1) ∨ k ∈ m := by
  induction es generalizing m with
  | nil => simp
  | cons e es ih =>
    rw [List.foldl_cons, ih, AList.mem_insert, List.map_cons, List.mem_cons, or_assoc,
      or_left_comm]

section Plan

variable {dev : DeviceState} {order : List String}

theorem allTags_rebuildDevicePlan :
    (rebuildDevicePlan dev order).allTags =
      ((order.filterMap dev.subscribers.lookup).flatMap (·.tags.entries)).foldl
        (fun tags e => tags.insert e.1 e.2) ∅ := by
  rw [List.foldl_flatMap]
  rfl

/-- A tag of the plan is that of a subscriber. -/
theorem of_lookup_allTags {id : String} {tag : ModbusTagConfig}
    (h : (rebuildDevicePlan dev order).allTags.lookup id = some tag) :
    ∃ name sub, dev.subscribers.lookup name = some sub ∧ tableOf sub id = some tag := by
  rw [allTags_rebuildDevicePlan] at h
  refine forall_lookup_foldl_insert
    (P := fun id tag => ∃ name sub, dev.subscribers.lookup name = some sub ∧
      tableOf sub id = some tag) (Sigma.fst (β := fun _ : String => ModbusTagConfig)) Sigma.snd _ ∅
    (by simp) ?_ id tag h
  intro e he
  obtain ⟨sub, hsub, he⟩ := List.mem_flatMap.mp he
  obtain ⟨name, -, hname⟩ := List.mem_filterMap.mp hsub
  exact ⟨name, sub, hname, (mem_entries_iff _ _ _).mp he⟩

/-- Every tag of a subscriber has its ID in the plan. -/
theorem mem_allTags (horder : order.Perm dev.subscribers.keys) {name id : String}
    {sub : Subscriber} {c : ModbusTagConfig} (hsub : dev.subscribers.lookup name = some sub)
    (hc : tableOf sub id = some c) : id ∈ (rebuildDevicePlan dev order).allTags := by
  rw [allTags_rebuildDevicePlan, mem_foldl_insert_iff]
  refine .inl (List.mem_map.mpr ⟨⟨id, c⟩, List.mem_flatMap.mpr ⟨sub, ?_, ?_⟩, rfl⟩)
  · refine List.mem_filterMap.mpr ⟨name, horder.mem_iff.mpr ?_, hsub⟩
    exact AList.lookup_isSome.mp (by rw [hsub]; rfl)
  · exact (mem_entries_iff _ _ _).mpr hc

end Plan

theorem keys_eq_nil_iff {V : Type} (m : GoMap String V) :
    m.keys = [] ↔ ∀ id, m.lookup id = none := by
  simp only [AList.lookup_eq_none, ← AList.mem_keys, List.eq_nil_iff_forall_not_mem]

theorem of_lookup_insert_none {V : Type} {m : GoMap String V} {k k' : String} {v : V}
    (h : (m.insert k v).lookup k' = none) : k' ≠ k ∧ m.lookup k' = none := by
  by_cases hk : k' = k
  · rw [hk, AList.lookup_insert] at h
    cases h
  · rw [AList.lookup_insert_ne hk] at h
    exact ⟨hk, h⟩

/-- The subscribers after a request to take tags away have the tags that remain. -/
theorem lookup_removeSubscriber (subs : GoMap String Subscriber) (req : UnsubscribeRequest)
    (name : String) :
    ((removeSubscriber subs req).lookup name).map tableOf =
      if name = req.subscriberID then
        ((subs.lookup name).map tableOf).bind (remaining req.tagIDs)
      else (subs.lookup name).map tableOf := by
  rw [removeSubscriber]
  by_cases hall : req.tagIDs = []
  · have hnone : remaining req.tagIDs = fun _ => none := by
      funext tags
      simp [remaining, hall]
    rw [if_pos hall, hnone]
    by_cases hname : name = req.subscriberID
    · subst hname
      simp
    · simp [hname, AList.lookup_erase_ne hname]
  rw [if_neg hall]
  cases hsub : subs.lookup req.subscriberID with
  | none =>
    dsimp only
    by_cases hname : name = req.subscriberID
    · subst hname
      simp [hsub]
    · simp [hname]
  | some sub =>
    dsimp only
    have hrest : ∀ id, (req.tagIDs.foldl (fun tags tagID => tags.erase tagID) sub.tags).lookup id =
        if id ∈ req.tagIDs then none else sub.tags.lookup id := lookup_foldl_erase _ _
    by_cases hempty : (req.tagIDs.foldl (fun tags tagID => tags.erase tagID) sub.tags).keys = []
    · have hnone : remaining req.tagIDs (tableOf sub) = none := by
        rw [keys_eq_nil_iff] at hempty
        refine if_neg ?_
        rintro ⟨id, hid, hsome, -⟩
        have := hempty id
        rw [hrest, if_neg hid] at this
        exact hsome this
      rw [if_pos hempty]
      by_cases hname : name = req.subscriberID
      · subst hname
        simp [hsub, hnone]
      · simp [hname, AList.lookup_erase_ne hname]
    · have hsome : remaining req.tagIDs (tableOf sub) =
          some fun id => if id ∈ req.tagIDs then none else sub.tags.lookup id := by
        rw [keys_eq_nil_iff] at hempty
        push Not at hempty
        obtain ⟨id, hid⟩ := hempty
        rw [hrest] at hid
        refine if_pos ⟨id, ?_, ?_, hall⟩
        · intro hmem
          rw [if_pos hmem] at hid
          exact hid rfl
        · intro hnone
          rw [show sub.tags.lookup id = none from hnone, ite_self] at hid
          exact hid rfl
      rw [if_neg hempty]
      by_cases hname : name = req.subscriberID
      · subst hname
        rw [AList.lookup_insert, if_pos rfl, hsub]
        dsimp only [Option.map_some, Option.bind_some]
        rw [hsome]
        exact congrArg some (funext hrest)
      · rw [AList.lookup_insert_ne hname, if_neg hname]

/-! ## The blocks -/

/-- The entries of a block stand at the addresses of their tags and within the block. -/
def Placing (block : ReadBlock) : Prop :=
  ∀ t ∈ block.tags, block.startAddr + t.offset = t.tag.address ∧
    t.offset + regSize t.tag ≤ block.count

theorem placing_newBlock (fc : Nat) (tag : ModbusTagConfig) : Placing (newBlock fc tag) := by
  intro t ht
  obtain rfl := List.mem_singleton.mp ht
  exact ⟨add_zero _, (zero_add _).le⟩

/-- A further tag keeps its place in the block, and so do the others. -/
theorem Placing.extend {block : ReadBlock} (h : Placing block) (hblock : Bounded block)
    {tag : ModbusTagConfig} (htag : InRange tag) : Placing (extendBlock block tag) := by
  have hcount := extendBlock_count hblock htag
  obtain ⟨hlow, hpos, hend⟩ := hblock
  obtain ⟨haddress, hlast⟩ := htag
  intro t ht
  obtain ht | ht := List.mem_append.mp ht
  · obtain ⟨hstart, hfits⟩ := h t ht
    refine ⟨hstart, ?_⟩
    omega
  · obtain rfl := List.mem_singleton.mp ht
    rw [extendBlock_startAddr]
    dsimp only
    rw [int64_of_bounded (by omega) (by omega)]
    omega

/-- Every block of the merge has its tags in place. -/
theorem placing_mergeBlocks (fc : Nat) {tags : List ModbusTagConfig}
    (htags : ∀ tag ∈ tags, InRange tag) :
    ∀ block ∈ mergeBlocks fc none tags, Placing block := by
  apply mergeBlocks_induct (P := Placing) (L := fun tags => ∀ tag ∈ tags, InRange tag)
    (I := fun _ block => Bounded block ∧ Placing block)
  · exact fun tag tags htags => (List.forall_mem_cons.mp htags).2
  · exact fun tag tags htags =>
      ⟨bounded_newBlock fc (htags tag List.mem_cons_self), placing_newBlock fc tag⟩
  · rintro block tag tags htags ⟨hblock, hplacing⟩ -
    have htag := htags tag List.mem_cons_self
    exact ⟨bounded_extendBlock hblock htag, hplacing.extend hblock htag⟩
  · exact fun _ _ h => h.2
  · exact htags
  · simp

/-- Every tag of the plan is read as it is. -/
theorem readAs_of_mem {tags : GoMap String ModbusTagConfig}
    {groups : List (Nat × List ModbusTagConfig)} (h : Groups tags groups)
    (hrange : ∀ e ∈ tags.entries, InRange e.2) {tag : ModbusTagConfig}
    (htag : tag ∈ tags.entries.map (·.2)) : ReadAs (buildReadBlocks groups) tag := by
  have hplanned : tag ∈ (buildReadBlocks groups).flatMap planned := by
    rw [planned_buildReadBlocks, mem_planned_iff h]
    exact htag
  obtain ⟨block, hblock, hmem⟩ := List.mem_flatMap.mp hplanned
  obtain ⟨t, ht, rfl⟩ := List.mem_map.mp hmem
  obtain ⟨g, hg, hgroup⟩ := List.mem_flatMap.mp hblock
  have htags : ∀ tag ∈ g.2, InRange tag := by
    intro tag htag
    obtain ⟨e, he, rfl⟩ := List.mem_map.mp ((mem_group_iff h.toGrouping hg).mp htag).1
    exact hrange e he
  have hin : t.tag ∈ g.2 := by
    have hall : t.tag ∈ (mergeBlocks g.1 none g.2).flatMap planned :=
      List.mem_flatMap.mpr ⟨block, hgroup, hmem⟩
    rw [planned_mergeBlocks] at hall
    exact hall
  obtain ⟨⟨hlow, hpos, hend⟩, hfc⟩ :=
    bounded_mergeBlocks g.1 htags block hgroup
  obtain ⟨hstart, hfits⟩ :=
    placing_mergeBlocks g.1 htags block hgroup t ht
  refine ⟨block, hblock, t, ht, rfl, rfl, ?_, ?_, hfits⟩
  · rw [hfc, ((mem_group_iff h.toGrouping hg).mp hin).2]
  · have hfield := toUint_eq hlow (by omega)
    rw [addressField_readRequest]
    omega

/-- Tags that are alike are read alike. -/
theorem ReadAs.alike {blocks : List ReadBlock} {c c' : ModbusTagConfig} (h : ReadAs blocks c)
    (hid : c.id = c'.id) (halike : Alike c c') : ReadAs blocks c' := by
  obtain ⟨block, hblock, t, ht, hid', hdatatype, hfc, haddress, hfits⟩ := h
  have hsize : regSize c' = regSize c := by
    rw [regSize, regSize, halike.functionCode, halike.datatype]
  refine ⟨block, hblock, t, ht, hid'.trans hid, hdatatype.trans halike.datatype,
    hfc.trans halike.functionCode, haddress.trans halike.address, ?_⟩
  rw [hsize]
  exact hfits

/-! ## The steps -/

/-- The device holds what the ledger says about it, and its tags are those of its
subscribers. -/
structure Follows (l : Ledger) (d : String) (dev : DeviceState) : Prop where
  settings : l.settings d = some ⟨dev.host, dev.port, dev.unitID.toNat, dev.byteOrder⟩
  subscribers : ∀ name, (dev.subscribers.lookup name).map tableOf = l.subscribers d name
  occupied : dev.subscribers.keys ≠ []
  plan : ∃ order, order.Perm dev.subscribers.keys ∧
    dev.allTags = (rebuildDevicePlan dev order).allTags

structure Inv (w : System) : Prop where
  absent : ∀ d, w.scanner.devices.lookup d = none → ∀ name, w.ledger.subscribers d name = none
  follows : ∀ d dev, w.scanner.devices.lookup d = some dev → Follows w.ledger d dev
  sound : Sound w.ledger

theorem Follows.exists_subscriber {l : Ledger} {d : String} {dev : DeviceState}
    (h : Follows l d dev) : ∃ sub tags, l.subscribers d sub = some tags := by
  obtain ⟨name, hname⟩ := List.exists_mem_of_ne_nil _ h.occupied
  obtain ⟨sub, hsub⟩ := Option.isSome_iff_exists.mp (AList.lookup_isSome.mpr hname)
  exact ⟨name, tableOf sub, by rw [← h.subscribers, hsub]; rfl⟩

/-- The invariant is the agreement of table and ledger. -/
theorem Inv.agrees {w : System} (h : Inv w) : TableAgrees w := by
  refine ⟨?_, fun d dev hdev => (h.follows d dev hdev).settings, ?_⟩
  · intro d
    constructor
    · intro hsome
      obtain ⟨dev, hdev⟩ := Option.isSome_iff_exists.mp hsome
      exact (h.follows d dev hdev).exists_subscriber
    · rintro ⟨sub, tags, hsub⟩
      by_contra hnone
      rw [h.absent d (by simpa using hnone) sub] at hsub
      cases hsub
  · intro d dev hdev groups hgroups sub tags id c hsub hc
    have hfollows := h.follows d dev hdev
    obtain ⟨order, horder, hall⟩ := hfollows.plan
    rw [hall] at hgroups
    -- Every tag of the plan is one of the ledger.
    have hledger : ∀ id tag, (rebuildDevicePlan dev order).allTags.lookup id = some tag →
        ∃ name tags, w.ledger.subscribers d name = some tags ∧ tags id = some tag := by
      intro id tag htag
      obtain ⟨name, s, hs, htable⟩ := of_lookup_allTags htag
      exact ⟨name, tableOf s, by rw [← hfollows.subscribers, hs]; rfl, htable⟩
    have hrange : ∀ e ∈ (rebuildDevicePlan dev order).allTags.entries, InRange e.2 := by
      intro e he
      obtain ⟨name, tags, hname, htag⟩ := hledger e.1 e.2 ((mem_entries_iff _ _ _).mp he)
      exact (h.sound.tags d name tags e.1 e.2 hname htag).2
    rw [← hfollows.subscribers] at hsub
    obtain ⟨s, hs, rfl⟩ := Option.map_eq_some_iff.mp hsub
    obtain ⟨tag, htag⟩ := Option.isSome_iff_exists.mp
      (AList.lookup_isSome.mpr (mem_allTags horder hs hc))
    obtain ⟨name, tags, hname, htable⟩ := hledger id tag htag
    have hsub' : w.ledger.subscribers d sub = some (tableOf s) := by
      rw [← hfollows.subscribers, hs]
      rfl
    have hmem : tag ∈ (rebuildDevicePlan dev order).allTags.entries.map (·.2) :=
      List.mem_map.mpr ⟨⟨id, tag⟩, (mem_entries_iff _ _ _).mpr htag, rfl⟩
    refine (readAs_of_mem hgroups hrange hmem).alike ?_
      (h.sound.alike d name sub tags (tableOf s) id tag c hname hsub' htable hc)
    · rw [(h.sound.tags d name tags id tag hname htable).1,
        (h.sound.tags d sub _ id c hsub' hc).1]

/-- A new device has the settings of its request. -/
theorem settings_newDevice {req : SubscribeRequest} (hlow : 0 ≤ (settingsOf req).unitID)
    (hhigh : (settingsOf req).unitID < 256) :
    (⟨(newDevice req).host, (newDevice req).port, (newDevice req).unitID.toNat,
      (newDevice req).byteOrder⟩ : Settings) = settingsOf req := by
  have hunit : ((newDevice req).unitID.toNat : Int) = (settingsOf req).unitID := by
    change ((UInt8.ofNat (toUint 8 (settingsOf req).unitID)).toNat : Int) = _
    rw [UInt8.toNat_ofNat', toUint]
    omega
  rw [hunit]
  rfl

/-- The device of a subscription that keeps to the settings. -/
theorem settings_withSubscriber {w : System} (h : Inv w) {req : SubscribeRequest}
    (hkeep : (∃ sub tags, w.ledger.subscribers req.deviceID sub = some tags) →
      w.ledger.settings req.deviceID = some (settingsOf req))
    (hunit : 0 ≤ (settingsOf req).unitID ∧ (settingsOf req).unitID < 256) :
    settingsOf req = ⟨(withSubscriber w.scanner req).host, (withSubscriber w.scanner req).port,
      (withSubscriber w.scanner req).unitID.toNat, (withSubscriber w.scanner req).byteOrder⟩ := by
  rw [withSubscriber]
  cases hdev : w.scanner.devices.lookup req.deviceID with
  | none => exact (settings_newDevice hunit.1 hunit.2).symm
  | some dev =>
    have hfollows := h.follows req.deviceID dev hdev
    have hsame := (hkeep hfollows.exists_subscriber).symm.trans hfollows.settings
    exact Option.some.inj hsame

/-- The subscribers of the device are those of the ledger. -/
theorem lookup_withSubscriber {w : System} (h : Inv w) (req : SubscribeRequest) (name : String) :
    ((withSubscriber w.scanner req).subscribers.lookup name).map tableOf =
      (w.ledger.put req.deviceID req.subscriberID (some (tagTable req))).subscribers
        req.deviceID name := by
  rw [withSubscriber]
  dsimp only
  by_cases hname : name = req.subscriberID
  · rw [hname, AList.lookup_insert, put_self, Option.map_some, tableOf_newSubscriber]
  · rw [AList.lookup_insert_ne hname, put_other _ _ _ hname]
    cases hdev : w.scanner.devices.lookup req.deviceID with
    | none =>
      rw [h.absent req.deviceID hdev name]
      rfl
    | some dev => exact (h.follows req.deviceID dev hdev).subscribers name

theorem Follows.congr {l l' : Ledger} {d : String} {dev : DeviceState} (h : Follows l d dev)
    (hsettings : l'.settings d = l.settings d) (hsubs : l'.subscribers d = l.subscribers d) :
    Follows l' d dev :=
  ⟨hsettings.trans h.settings, fun name => by rw [hsubs]; exact h.subscribers name, h.occupied,
    h.plan⟩

/-- A steady subscription leaves the scanner with what the ledger says. -/
theorem Inv.subscribe {w : System} (h : Inv w) {req : SubscribeRequest} {order : List String}
    (hsteady : Steady w (.subscribe req order))
    (horder : order.Perm (withSubscriber w.scanner req).subscribers.keys) :
    Inv ⟨(handleSubscribe w.scanner req order).1, w.ledger.record (.subscribe req order)⟩ := by
  have hsound := h.sound.subscribe hsteady
  rw [handleSubscribe]
  by_cases haccepted : Accepted req
  case neg =>
    have hledger : w.ledger.record (.subscribe req order) = w.ledger := if_neg haccepted
    rw [hledger, if_pos (not_not.mp haccepted)]
    exact ⟨h.absent, h.follows, h.sound⟩
  case pos =>
    obtain ⟨hkeep, hunit, -, -⟩ := hsteady haccepted
    have hledger : w.ledger.record (.subscribe req order) =
        { w.ledger.put req.deviceID req.subscriberID (some (tagTable req)) with
          settings := Function.update w.ledger.settings req.deviceID (some (settingsOf req)) } :=
      if_pos haccepted
    rw [hledger] at hsound ⊢
    rw [if_neg haccepted]
    refine ⟨?_, ?_, hsound⟩
    · intro d hd name
      obtain ⟨hne, hold⟩ := of_lookup_insert_none hd
      dsimp only
      rw [put_device _ _ _ hne]
      exact h.absent d hold name
    · intro d dev hdev
      by_cases hd : d = req.deviceID
      · subst hd
        rw [AList.lookup_insert] at hdev
        cases hdev
        refine ⟨?_, lookup_withSubscriber h req, keys_insert_ne_nil _ _ _, order, horder, rfl⟩
        dsimp only
        rw [Function.update_self, settings_withSubscriber h hkeep hunit]
        rfl
      · rw [AList.lookup_insert_ne hd] at hdev
        exact (h.follows d dev hdev).congr (Function.update_of_ne hd _ _)
          (put_device _ _ _ hd)

theorem Inv.unsubscribe {w : System} (h : Inv w) {req : UnsubscribeRequest} {order : List String}
    (horder : ∀ dev, w.scanner.devices.lookup req.deviceID = some dev →
      order.Perm (removeSubscriber dev.subscribers req).keys) :
    Inv ⟨handleUnsubscribe w.scanner req order, w.ledger.record (.unsubscribe req order)⟩ := by
  have hsound := h.sound.unsubscribe req order
  have hothers : ∀ d dev, d ≠ req.deviceID → w.scanner.devices.lookup d = some dev →
      Follows (w.ledger.record (.unsubscribe req order)) d dev := fun d dev hd hdev =>
    (h.follows d dev hdev).congr rfl (put_device _ _ _ hd)
  rw [handleUnsubscribe]
  cases hdev : w.scanner.devices.lookup req.deviceID with
  | none =>
    refine ⟨?_, ?_, hsound⟩
    · intro d hd name
      by_cases hne : d = req.deviceID
      · subst hne
        change (w.ledger.put _ _ _).subscribers _ _ = _
        rw [h.absent req.deviceID hdev req.subscriberID]
        by_cases hname : name = req.subscriberID
        · rw [hname, put_self]
          rfl
        · rw [put_other _ _ _ hname, h.absent req.deviceID hdev name]
      · change (w.ledger.put _ _ _).subscribers _ _ = _
        rw [put_device _ _ _ hne]
        exact h.absent d hd name
    · intro d dev hd
      refine hothers d dev ?_ hd
      rintro rfl
      cases hdev.symm.trans hd
  | some dev =>
    have hfollows := h.follows req.deviceID dev hdev
    have hsubs : ∀ name, ((removeSubscriber dev.subscribers req).lookup name).map tableOf =
        (w.ledger.record (.unsubscribe req order)).subscribers req.deviceID name := by
      intro name
      rw [lookup_removeSubscriber, hfollows.subscribers]
      change _ = (w.ledger.put _ _ _).subscribers _ _
      by_cases hname : name = req.subscriberID
      · rw [if_pos hname, hname, put_self]
      · rw [if_neg hname, put_other _ _ _ hname]
    dsimp only
    by_cases hempty : (removeSubscriber dev.subscribers req).keys = []
    · rw [if_pos hempty]
      rw [keys_eq_nil_iff] at hempty
      refine ⟨?_, ?_, hsound⟩
      · intro d hd name
        by_cases hne : d = req.deviceID
        · rw [hne, ← hsubs, hempty]
          rfl
        · rw [AList.lookup_erase_ne hne] at hd
          change (w.ledger.put _ _ _).subscribers _ _ = _
          rw [put_device _ _ _ hne]
          exact h.absent d hd name
      · intro d dev' hd
        obtain ⟨hne, hold⟩ := lookup_erase_some hd
        exact hothers d dev' hne hold
    · rw [if_neg hempty]
      refine ⟨?_, ?_, hsound⟩
      · intro d hd name
        obtain ⟨hne, hold⟩ := of_lookup_insert_none hd
        change (w.ledger.put _ _ _).subscribers _ _ = _
        rw [put_device _ _ _ hne]
        exact h.absent d hold name
      · intro d dev' hd
        by_cases hne : d = req.deviceID
        · subst hne
          rw [AList.lookup_insert] at hd
          cases hd
          exact ⟨hfollows.settings, hsubs, hempty, order, horder dev hdev, rfl⟩
        · rw [AList.lookup_insert_ne hne] at hd
          exact hothers d dev' hne hd

/-- A connection that comes or goes changes no table. -/
theorem Inv.setConnected {w : System} (h : Inv w) {deviceID : String} {connected : Bool}
    {dev : DeviceState} (hdev : w.scanner.devices.lookup deviceID = some dev) :
    Inv ⟨⟨w.scanner.devices.insert deviceID { dev with connected := connected }⟩, w.ledger⟩ := by
  refine ⟨?_, ?_, h.sound⟩
  · intro d hd
    exact h.absent d (of_lookup_insert_none hd).2
  · intro d dev' hd
    by_cases hne : d = deviceID
    · subst hne
      rw [AList.lookup_insert] at hd
      cases hd
      have hfollows := h.follows d dev hdev
      exact ⟨hfollows.settings, hfollows.subscribers, hfollows.occupied, hfollows.plan⟩
    · rw [AList.lookup_insert_ne hne] at hd
      exact h.follows d dev' hd

/-- Each steady request leaves the scanner with what the ledger says. -/
theorem handle_inv {w v : System} {a : ScannerAction} (h : Inv w) (hsteady : Steady w a)
    (hv : handle w a = some v) : Inv v := by
  obtain ⟨s, hs, rfl⟩ := Option.map_eq_some_iff.mp hv
  cases a with
  | subscribe req order =>
    rw [step] at hs
    split at hs
    · cases hs
      exact h.subscribe hsteady ‹_›
    · cases hs
  | unsubscribe req order =>
    rw [step] at hs
    split at hs
    · cases hs
      refine h.unsubscribe fun dev hdev => ?_
      simp_all
    · cases hs
  | setConnected deviceID connected =>
    obtain ⟨dev, hdev, rfl⟩ := Option.map_eq_some_iff.mp hs
    exact h.setConnected hdev

/-- In every run whose subscriptions to a device agree with each other, the table agrees
with the requests in every state. -/
theorem table_agrees_of_steady (as : List ScannerAction) (v : System)
    (hsteady : Runs.Meets handle Steady {} as) (hrun : Runs.run handle {} as = some v) :
    TableAgrees v := by
  have hstart : Inv {} := by
    refine ⟨fun d _ name => rfl, ?_, ⟨?_, ?_⟩⟩
    · intro d dev hd
      cases hd
    · intro d sub tags id c hsub
      cases hsub
    · intro d sub sub' tags tags' id c c' hsub
      cases hsub
  exact (Runs.run_invariant (fun _ _ _ => handle_inv) hstart hsteady hrun).agrees

/-- A subscription to the registers of a press. -/
def pressRequest (subscriberID host : String) (tags : List ModbusTagConfig) : SubscribeRequest where
  subscriberID := subscriberID
  deviceID := "press"
  host := host
  tags := tags

/-- The gateway reads a tag that the PLC reads as well. -/
def sharedRun : List ScannerAction :=
  [.subscribe (pressRequest "gateway" "10.0.0.7" [holdingTag "speed" 4]) ["gateway"],
    .subscribe (pressRequest "plc" "10.0.0.7" [holdingTag "speed" 4]) ["plc", "gateway"]]

theorem table_agrees_of_steady_shared :
    Runs.Meets handle Steady {} sharedRun ∧
      ∃ v, Runs.run handle {} sharedRun = some v ∧ TableAgrees v := by
  have htable : ∀ name id c,
      tagTable (pressRequest name "10.0.0.7" [holdingTag "speed" 4]) id = some c →
        c = holdingTag "speed" 4 := by
    intro name id c hc
    obtain ⟨tag, htag, rfl⟩ := Option.map_eq_some_iff.mp hc
    obtain rfl := List.mem_singleton.mp (List.mem_of_find?_eq_some htag)
    rfl
  have hrange : InRange (holdingTag "speed" 4) := by
    simp only [InRange]
    decide
  have hsteady : Runs.Meets handle Steady {} sharedRun := by
    refine ⟨fun _ => ⟨?_, by decide, ?_, ?_⟩, ?_⟩
    · rintro ⟨sub, tags, hsub⟩
      cases hsub
    · intro id c hc
      rw [htable _ id c hc]
      exact hrange
    · intro id c hc sub tags c' hne hsub
      cases hsub
    rintro _ ⟨⟩
    refine ⟨fun _ => ⟨fun _ => rfl, by decide, ?_, ?_⟩, fun _ _ => trivial⟩
    · intro id c hc
      rw [htable _ id c hc]
      exact hrange
    · intro id c hc sub tags c' hne hsub hc'
      change (Ledger.put {} "press" "gateway" (some (tagTable
        (pressRequest "gateway" "10.0.0.7" [holdingTag "speed" 4])))).subscribers "press" sub =
          some tags at hsub
      obtain ⟨-, -, hnew⟩ | ⟨-, hold⟩ := put_cases hsub
      · cases hnew
        rw [htable _ id c hc, htable _ id c' hc']
        exact Alike.refl _
      · cases hold
  exact ⟨hsteady, _, rfl, table_agrees_of_steady sharedRun _ hsteady rfl⟩

/-- A device that has moved is still looked for at its old host. -/
theorem moved_host_kept :
    ¬∀ (as : List ScannerAction) (v : System), Runs.run handle {} as = some v → TableAgrees v := by
  intro h
  have hagrees := h
    [.subscribe (pressRequest "gateway" "10.0.0.7" []) ["gateway"],
      .subscribe (pressRequest "gateway" "10.0.0.8" []) ["gateway"]] _ rfl
  have hsettings := hagrees.settings "press" _ rfl
  have hhost := congrArg Settings.host (Option.some.inj hsettings)
  exact absurd hhost (by decide)

end ModbusDeviceTable
