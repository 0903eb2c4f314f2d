import Mathlib.Data.Finset.Lattice.Lemmas
import Mathlib.Logic.Function.Basic
import Tentacle.EthernetIpScanner

/-!
# The tags that are polled

A subscriber wants the tags of its latest record, less those it has unsubscribed since. A poll goes
over the variables of the connection. These only grow, until the last subscriber leaves: a tag that
nobody wants any more is polled on.
-/

namespace EthernetIpPolledSet

open GoValues EthernetIpScanner

variable {F64 : Type}

/-- The tags that each subscriber of each device wants. -/
abbrev Wanted := String → String → Finset String

def Wanted.set (wanted : Wanted) (deviceID subscriberID : String) (tags : Finset String) : Wanted :=
  Function.update wanted deviceID (Function.update (wanted deviceID) subscriberID tags)

/-- What the requests say, whatever the scanner makes of them. -/
def Wanted.record (wanted : Wanted) : ScannerAction F64 → Wanted
  | .subscribe req =>
    if req.complete then wanted.set req.deviceID req.subscriberID req.tags.toFinset else wanted
  | .unsubscribe req =>
    wanted.set req.deviceID req.subscriberID
      (if req.tags = [] then ∅ else wanted req.deviceID req.subscriberID \ req.tags.toFinset)
  | .poll _ _ _ => wanted

/-- A tag that a poll of the device goes over. -/
def Considered (s : Scanner F64) (deviceID tag : String) : Prop :=
  ∃ conn, s.connections.lookup deviceID = some conn ∧ tag ∈ conn.vars

structure System (F64 : Type) where
  scanner : Scanner F64 := Scanner.start
  wanted : Wanted := fun _ _ => ∅

/-- The polled tags are those that some subscriber wants. -/
def Agrees (w : System F64) : Prop :=
  ∀ deviceID tag, Considered w.scanner deviceID tag ↔ ∃ sub, tag ∈ w.wanted deviceID sub

/-- The subscriber is the only one that the connection has, and the request takes all away that it
is noted with. -/
def LastLeaves (s : Scanner F64) (req : UnsubscribeRequest) : Prop :=
  ∀ conn, s.connections.lookup req.deviceID = some conn →
    ∀ sub tags, conn.subscribers.lookup sub = some tags →
      sub = req.subscriberID ∧ (req.tags = [] ∨ tags ⊆ req.tags.toFinset)

/-- No tag is given up that nobody else wants, unless the connection ends. -/
def Keeps (w : System F64) : ScannerAction F64 → Prop
  | .subscribe req => req.complete = true →
    ∀ tag ∈ w.wanted req.deviceID req.subscriberID, tag ∈ req.tags ∨
      ∃ other, other ≠ req.subscriberID ∧ tag ∈ w.wanted req.deviceID other
  | .unsubscribe req => LastLeaves w.scanner req ∨
    ∀ tag ∈ w.wanted req.deviceID req.subscriberID, req.tags = [] ∨ tag ∈ req.tags →
      ∃ other, other ≠ req.subscriberID ∧ tag ∈ w.wanted req.deviceID other
  | .poll _ _ _ => True

/-! ## Records -/

theorem set_self (wanted : Wanted) (d sub : String) (tags : Finset String) :
    wanted.set d sub tags d sub = tags := by
  simp [Wanted.set]

theorem set_other (wanted : Wanted) (d : String) {sub other : String} (tags : Finset String)
    (h : other ≠ sub) : wanted.set d sub tags d other = wanted d other := by
  simp [Wanted.set, h]

theorem set_device (wanted : Wanted) {d d' : String} (sub : String) (tags : Finset String)
    (h : d' ≠ d) : wanted.set d sub tags d' = wanted d' := by
  simp [Wanted.set, h]

/-- Of two tables that differ in one subscriber, the first has no tag that the second has not,
exactly when each tag of the subscriber is kept or wanted by another. -/
theorem exists_set_iff (wanted : Wanted) (d sub : String) (tags : Finset String) (tag : String) :
    (∃ s, tag ∈ wanted.set d sub tags d s) ↔
      tag ∈ tags ∨ ∃ other, other ≠ sub ∧ tag ∈ wanted d other := by
  constructor
  · rintro ⟨s, hs⟩
    by_cases hsub : s = sub
    · rw [hsub, set_self] at hs
      exact .inl hs
    · rw [set_other wanted d tags hsub] at hs
      exact .inr ⟨s, hsub, hs⟩
  · rintro (htag | ⟨other, hother, htag⟩)
    · exact ⟨sub, by rwa [set_self]⟩
    · exact ⟨other, by rwa [set_other wanted d tags hother]⟩

/-! ## The connection -/

/-- The tags that the connection notes for a subscriber. -/
def held (conn : DeviceConnection F64) (sub : String) : Finset String :=
  (conn.subscribers.lookup sub).getD ∅

theorem mem_vars_foldl (req : SubscribeRequest F64) (tags : List String)
    (conn : DeviceConnection F64) (tag : String) :
    tag ∈ (tags.foldl (subscribeTag req) conn).vars ↔ tag ∈ tags ∨ tag ∈ conn.vars := by
  induction tags generalizing conn with
  | nil => simp
  | cons t tags ih =>
    rw [List.foldl_cons, ih, subscribeTag, AList.mem_insert, List.mem_cons, or_left_comm, or_assoc]

/-- A subscription adds its tags to those that its subscriber holds. -/
theorem held_foldl_self (req : SubscribeRequest F64) (tags : List String)
    (conn : DeviceConnection F64) :
    held (tags.foldl (subscribeTag req) conn) req.subscriberID =
      held conn req.subscriberID ∪ tags.toFinset := by
  induction tags generalizing conn with
  | nil => simp
  | cons t tags ih =>
    rw [List.foldl_cons, ih, held, subscribeTag, AList.lookup_insert, Option.getD_some,
      List.toFinset_cons, Finset.union_insert, Finset.insert_union]
    rfl

/-- The tags of the other subscribers stay as they are. -/
theorem held_foldl_other (req : SubscribeRequest F64) (tags : List String)
    (conn : DeviceConnection F64) {sub : String} (h : sub ≠ req.subscriberID) :
    held (tags.foldl (subscribeTag req) conn) sub = held conn sub := by
  induction tags generalizing conn with
  | nil => rfl
  | cons t tags ih =>
    rw [List.foldl_cons, ih, held, subscribeTag, AList.lookup_insert_ne h]
    rfl

theorem mem_vars_subscribeConnection (req : SubscribeRequest F64) (conn : DeviceConnection F64)
    (tag : String) : tag ∈ (subscribeConnection req conn).vars ↔ tag ∈ req.tags ∨ tag ∈ conn.vars :=
  mem_vars_foldl req req.tags _ tag

theorem foldl_erase (tags : List String) (set : Finset String) :
    tags.foldl Finset.erase set = set \ tags.toFinset := by
  induction tags generalizing set with
  | nil => simp
  | cons t tags ih =>
    rw [List.foldl_cons, ih, List.toFinset_cons, Finset.sdiff_insert, Finset.erase_sdiff_comm]

/-- What a request leaves of the tags of its own subscriber. -/
def rest (req : UnsubscribeRequest) (tags : Finset String) : Finset String :=
  if req.tags = [] then ∅ else tags \ req.tags.toFinset

theorem rest_eq_empty_iff (req : UnsubscribeRequest) (tags : Finset String) :
    rest req tags = ∅ ↔ req.tags = [] ∨ tags ⊆ req.tags.toFinset := by
  rw [rest]
  split
  case isTrue h => simp [h]
  case isFalse h => simp [h, Finset.sdiff_eq_empty_iff_subset]

/-- A subscriber whose last tag goes is removed with it. -/
theorem removeSubscriber_eq (subs : GoMap String (Finset String)) (req : UnsubscribeRequest) :
    removeSubscriber subs req = match subs.lookup req.subscriberID with
      | none => subs
      | some tags =>
        if rest req tags = ∅ then subs.erase req.subscriberID
        else subs.insert req.subscriberID (rest req tags) := by
  rw [removeSubscriber]
  simp only [foldl_erase]
  rfl

/-- The subscriber keeps the rest of its tags, if there is one. -/
theorem lookup_removeSubscriber_self (subs : GoMap String (Finset String))
    (req : UnsubscribeRequest) :
    (removeSubscriber subs req).lookup req.subscriberID =
      ((subs.lookup req.subscriberID).map (rest req)).filter (· ≠ ∅) := by
  rw [removeSubscriber_eq]
  cases hsub : subs.lookup req.subscriberID with
  | none => exact hsub
  | some tags =>
    dsimp only
    split
    case isTrue h => simp [h, Option.filter]
    case isFalse h => simp [h, Option.filter]

theorem lookup_removeSubscriber_other (subs : GoMap String (Finset String))
    (req : UnsubscribeRequest) {sub : String} (h : sub ≠ req.subscriberID) :
    (removeSubscriber subs req).lookup sub = subs.lookup sub := by
  rw [removeSubscriber_eq]
  cases subs.lookup req.subscriberID with
  | none => rfl
  | some tags =>
    dsimp only
    split
    · exact AList.lookup_erase_ne h
    · exact AList.lookup_insert_ne h

theorem keys_eq_nil_iff {V : Type} (m : GoMap String V) :
    m.keys = [] ↔ ∀ k, m.lookup k = none := by
  rw [List.eq_nil_iff_forall_not_mem]
  exact forall_congr' fun k => AList.lookup_eq_none.symm

/-- No subscriber remains exactly when the request takes all tags of the only one away. -/
theorem removeSubscriber_keys_eq_nil_iff (subs : GoMap String (Finset String))
    (req : UnsubscribeRequest) :
    (removeSubscriber subs req).keys = [] ↔ ∀ sub tags, subs.lookup sub = some tags →
      sub = req.subscriberID ∧ (req.tags = [] ∨ tags ⊆ req.tags.toFinset) := by
  rw [keys_eq_nil_iff]
  constructor
  · intro h sub tags htags
    by_cases hsub : sub = req.subscriberID
    · subst hsub
      have hnone := h req.subscriberID
      rw [lookup_removeSubscriber_self, htags, Option.map_some] at hnone
      refine ⟨rfl, (rest_eq_empty_iff req tags).mp ?_⟩
      simpa [Option.filter] using hnone
    · have hnone := h sub
      rw [lookup_removeSubscriber_other subs req hsub, htags] at hnone
      cases hnone
  · intro h sub
    by_cases hsub : sub = req.subscriberID
    · subst hsub
      rw [lookup_removeSubscriber_self]
      cases htags : subs.lookup req.subscriberID with
      | none => rfl
      | some tags =>
        have hempty := (rest_eq_empty_iff req tags).mpr (h _ _ htags).2
        simp [Option.filter, hempty]
    · rw [lookup_removeSubscriber_other subs req hsub]
      cases htags : subs.lookup sub with
      | none => rfl
      | some tags => exact absurd (h sub tags htags).1 hsub

section Polls

variable [GoFloat64 F64] (finite : F64 → Bool)

/-- A poll writes to variables that are there. -/
theorem mem_vars_publishResult (now : Int) (conn : DeviceConnection F64) (r : TagResult F64)
    (tag : String) : tag ∈ (publishResult finite now conn r).1.vars ↔ tag ∈ conn.vars := by
  rw [publishResult]
  cases hv : conn.vars.lookup r.name with
  | none => exact Iff.rfl
  | some v =>
    have hmem : r.name ∈ conn.vars := AList.lookup_isSome.mp (by rw [hv]; rfl)
    have hinsert : ∀ v', tag ∈ conn.vars.insert r.name v' ↔ tag ∈ conn.vars := by
      intro v'
      rw [AList.mem_insert]
      exact ⟨fun h => h.elim (fun heq => heq ▸ hmem) id, .inr⟩
    dsimp only
    split
    · exact hinsert _
    · exact hinsert _

theorem subscribers_publishResult (now : Int) (conn : DeviceConnection F64) (r : TagResult F64) :
    (publishResult finite now conn r).1.subscribers = conn.subscribers := by
  rw [publishResult]
  split
  · rfl
  · dsimp only
    split <;> rfl

theorem pollOnce_snoc (now : Int) (conn : DeviceConnection F64) (results : List (TagResult F64))
    (r : TagResult F64) : (pollOnce finite now conn (results ++ [r])).1 =
      (publishResult finite now (pollOnce finite now conn results).1 r).1 := by
  rw [pollOnce, List.foldl_append]
  rfl

theorem mem_vars_pollOnce (now : Int) (conn : DeviceConnection F64)
    (results : List (TagResult F64)) (tag : String) :
    tag ∈ (pollOnce finite now conn results).1.vars ↔ tag ∈ conn.vars := by
  induction results using List.reverseRecOn with
  | nil => exact Iff.rfl
  | append_singleton results r ih => rw [pollOnce_snoc, mem_vars_publishResult, ih]

theorem subscribers_pollOnce (now : Int) (conn : DeviceConnection F64)
    (results : List (TagResult F64)) :
    (pollOnce finite now conn results).1.subscribers = conn.subscribers := by
  induction results using List.reverseRecOn with
  | nil => rfl
  | append_singleton results r ih => rw [pollOnce_snoc, subscribers_publishResult, ih]

end Polls

/-! ## The scanner -/

/-- The tags that the scanner notes for a subscriber of a device. -/
def heldAt (s : Scanner F64) (deviceID sub : String) : Finset String :=
  ((s.connections.lookup deviceID).map (held · sub)).getD ∅

/-- After a subscription its tags are considered too, and all that were before. -/
theorem considered_subscribe {s : Scanner F64} {req : SubscribeRequest F64}
    (hcomplete : req.complete = true) (d tag : String) :
    Considered (handleSubscribe s req).1 d tag ↔
      (d = req.deviceID ∧ tag ∈ req.tags) ∨ Considered s d tag := by
  simp only [handleSubscribe, hcomplete, if_true, Considered]
  by_cases hd : d = req.deviceID
  · subst hd
    simp only [AList.lookup_insert, Option.some.injEq, exists_eq_left',
      mem_vars_subscribeConnection, true_and]
    cases hconn : s.connections.lookup req.deviceID with
    | none => simp [newConnection]
    | some conn => simp
  · simp only [AList.lookup_insert_ne hd, hd, false_and, false_or]

/-- A subscription adds to what its subscriber holds on the device. -/
theorem heldAt_subscribe_self {s : Scanner F64} {req : SubscribeRequest F64}
    (hcomplete : req.complete = true) :
    heldAt (handleSubscribe s req).1 req.deviceID req.subscriberID =
      heldAt s req.deviceID req.subscriberID ∪ req.tags.toFinset := by
  simp only [handleSubscribe, hcomplete, if_true, heldAt, AList.lookup_insert, Option.map_some,
    Option.getD_some]
  rw [subscribeConnection, held_foldl_self]
  cases s.connections.lookup req.deviceID with
  | none => rfl
  | some conn => rfl

/-- It changes nothing for another subscriber or on another device. -/
theorem heldAt_subscribe_other {s : Scanner F64} {req : SubscribeRequest F64} {d sub : String}
    (h : d ≠ req.deviceID ∨ sub ≠ req.subscriberID) :
    heldAt (handleSubscribe s req).1 d sub = heldAt s d sub := by
  rw [handleSubscribe]
  split
  · by_cases hd : d = req.deviceID
    · subst hd
      have hsub := h.resolve_left fun hne => hne rfl
      simp only [heldAt, AList.lookup_insert, Option.map_some, Option.getD_some]
      rw [subscribeConnection, held_foldl_other req req.tags _ hsub]
      cases s.connections.lookup req.deviceID with
      | none => rfl
      | some conn => rfl
    · simp only [heldAt, AList.lookup_insert_ne hd]
  · rfl

/-- The variables go with the connection, and the connection with its last subscriber. -/
theorem considered_unsubscribe (s : Scanner F64) (req : UnsubscribeRequest) (d tag : String) :
    Considered (handleUnsubscribe s req).1 d tag ↔
      Considered s d tag ∧ ¬(d = req.deviceID ∧ LastLeaves s req) := by
  rw [handleUnsubscribe]
  cases hconn : s.connections.lookup req.deviceID with
  | none =>
    refine ⟨fun h => ⟨h, ?_⟩, fun h => h.1⟩
    rintro ⟨rfl, -⟩
    obtain ⟨conn, hlookup, -⟩ := h
    rw [hconn] at hlookup
    cases hlookup
  | some conn =>
    have hlast : LastLeaves s req ↔ (removeSubscriber conn.subscribers req).keys = [] := by
      rw [removeSubscriber_keys_eq_nil_iff]
      simp only [LastLeaves, hconn, Option.some.injEq, forall_eq']
    dsimp only
    rw [hlast]
    by_cases hd : d = req.deviceID
    · subst hd
      split
      case isTrue hkeys => simp [Considered, hkeys]
      case isFalse hkeys => simp [Considered, hkeys, hconn]
    · split
      · simp [Considered, hd, AList.lookup_erase_ne hd]
      · simp [Considered, hd, AList.lookup_insert_ne hd]

/-- An unsubscription takes tags from its own subscriber only. -/
theorem held_removeSubscriber (conn : DeviceConnection F64) (req : UnsubscribeRequest)
    (sub : String) :
    held { conn with subscribers := removeSubscriber conn.subscribers req } sub =
      if sub = req.subscriberID then rest req (held conn sub) else held conn sub := by
  rw [held, held]
  split
  case isTrue h =>
    subst h
    rw [lookup_removeSubscriber_self]
    cases conn.subscribers.lookup req.subscriberID with
    | none => simp [rest]
    | some tags =>
      rw [Option.map_some, Option.getD_some]
      by_cases hempty : rest req tags = ∅
      · simp [Option.filter, hempty]
      · simp [Option.filter, hempty]
  case isFalse h => rw [lookup_removeSubscriber_other conn.subscribers req h]

theorem heldAt_unsubscribe (s : Scanner F64) (req : UnsubscribeRequest) (d sub : String) :
    heldAt (handleUnsubscribe s req).1 d sub =
      if d = req.deviceID ∧ sub = req.subscriberID then rest req (heldAt s d sub)
      else heldAt s d sub := by
  by_cases hd : d = req.deviceID
  · subst hd
    simp only [true_and]
    rw [handleUnsubscribe]
    cases hconn : s.connections.lookup req.deviceID with
    | none => simp [heldAt, hconn, rest]
    | some conn =>
      have hheld := held_removeSubscriber conn req sub
      dsimp only
      split
      case isTrue hkeys =>
        have hnone := (keys_eq_nil_iff _).mp hkeys sub
        rw [held, hnone] at hheld
        simp only [heldAt, AList.lookup_erase, hconn, Option.map_some, Option.getD_some]
        exact hheld
      case isFalse =>
        simp only [heldAt, AList.lookup_insert, hconn, Option.map_some, Option.getD_some]
        exact hheld
  · simp only [hd, false_and, if_false]
    rw [handleUnsubscribe]
    split
    · rfl
    · dsimp only
      split
      · simp only [heldAt, AList.lookup_erase_ne hd]
      · simp only [heldAt, AList.lookup_insert_ne hd]

/-! ## Runs -/

/-- The scanner notes what is wanted, and perhaps more. -/
def Noted (w : System F64) : Prop := ∀ d sub, w.wanted d sub ⊆ heldAt w.scanner d sub

theorem record_unsubscribe (wanted : Wanted) (req : UnsubscribeRequest) :
    wanted.record (.unsubscribe req : ScannerAction F64) = wanted.set req.deviceID req.subscriberID
      (rest req (wanted req.deviceID req.subscriberID)) := rfl

theorem rest_subset {req : UnsubscribeRequest} {tags tags' : Finset String} (h : tags ⊆ tags') :
    rest req tags ⊆ rest req tags' := by
  rw [rest, rest]
  split
  · exact Finset.Subset.refl _
  · exact Finset.sdiff_subset_sdiff h (Finset.Subset.refl _)

/-- An unsubscription takes the same tags from the scanner and from the record of the requests. -/
theorem noted_unsubscribe {w : System F64} (h : Noted w) (req : UnsubscribeRequest) :
    Noted ⟨(handleUnsubscribe w.scanner req).1,
      w.wanted.record (.unsubscribe req : ScannerAction F64)⟩ := by
  intro d sub
  rw [record_unsubscribe]
  dsimp only
  rw [heldAt_unsubscribe]
  by_cases hd : d = req.deviceID
  · subst hd
    by_cases hsub : sub = req.subscriberID
    · subst hsub
      rw [if_pos ⟨rfl, rfl⟩, set_self]
      exact rest_subset (h _ _)
    · rw [if_neg fun hboth => hsub hboth.2, set_other _ _ _ hsub]
      exact h _ sub
  · rw [if_neg fun hboth => hd hboth.1, set_device _ _ _ hd]
    exact h d sub

/-- Nothing is noted for a device whose last subscriber has left. -/
theorem heldAt_lastLeaves {s : Scanner F64} {req : UnsubscribeRequest} (h : LastLeaves s req)
    (sub : String) : heldAt (handleUnsubscribe s req).1 req.deviceID sub = ∅ := by
  have hheld : ∀ sub, heldAt s req.deviceID sub = ∅ ∨
      sub = req.subscriberID ∧ (req.tags = [] ∨ heldAt s req.deviceID sub ⊆ req.tags.toFinset) := by
    intro sub
    rw [heldAt]
    cases hconn : s.connections.lookup req.deviceID with
    | none => exact .inl rfl
    | some conn =>
      rw [Option.map_some, Option.getD_some, held]
      cases htags : conn.subscribers.lookup sub with
      | none => exact .inl rfl
      | some tags => exact .inr (h conn hconn sub tags htags)
  rw [heldAt_unsubscribe]
  split
  case isTrue hself =>
    rw [rest_eq_empty_iff]
    obtain hempty | ⟨-, hall⟩ := hheld sub
    · exact .inr (hempty ▸ Finset.empty_subset _)
    · exact hall
  case isFalse hother => exact (hheld sub).resolve_right fun hself => hother ⟨rfl, hself.1⟩

/-- Where the tags agree, they agree after a subscription exactly when it drops none that nobody
else wants. -/
theorem subscribe_agrees_iff {w : System F64} (hagrees : Agrees w) (req : SubscribeRequest F64) :
    Agrees ⟨(handleSubscribe w.scanner req).1,
      w.wanted.record (.subscribe req : ScannerAction F64)⟩ ↔ Keeps w (.subscribe req) := by
  dsimp only [Wanted.record, Keeps, Agrees]
  split
  case isFalse hcomplete =>
    rw [handleSubscribe, if_neg hcomplete]
    exact ⟨fun _ hyes => absurd hyes hcomplete, fun _ => hagrees⟩
  case isTrue hcomplete =>
    have hdevice : ∀ tag, Considered (handleSubscribe w.scanner req).1 req.deviceID tag ↔
        tag ∈ req.tags ∨ ∃ sub, tag ∈ w.wanted req.deviceID sub := by
      intro tag
      rw [considered_subscribe hcomplete, hagrees]
      simp
    constructor
    · intro h _ tag htag
      have hboth := (h req.deviceID tag).mp ((hdevice tag).mpr (.inr ⟨_, htag⟩))
      rw [exists_set_iff, List.mem_toFinset] at hboth
      exact hboth
    · intro h d tag
      by_cases hd : d = req.deviceID
      · subst hd
        rw [hdevice, exists_set_iff, List.mem_toFinset]
        constructor
        · rintro (htag | ⟨sub, htag⟩)
          · exact .inl htag
          · by_cases hsub : sub = req.subscriberID
            · exact h hcomplete tag (hsub ▸ htag)
            · exact .inr ⟨sub, hsub, htag⟩
        · rintro (htag | ⟨sub, -, htag⟩)
          · exact .inl htag
          · exact .inr ⟨sub, htag⟩
      · rw [considered_subscribe hcomplete, hagrees, set_device _ _ _ hd]
        simp [hd]

/-- After an unsubscription the tags agree exactly when the connection ends or each of the tags is
wanted by somebody else. -/
theorem unsubscribe_agrees_iff {w : System F64} (hnoted : Noted w) (hagrees : Agrees w)
    (req : UnsubscribeRequest) :
    Agrees ⟨(handleUnsubscribe w.scanner req).1,
      w.wanted.record (.unsubscribe req : ScannerAction F64)⟩ ↔ Keeps w (.unsubscribe req) := by
  rw [record_unsubscribe]
  dsimp only [Keeps, Agrees]
  have hrest : ∀ tag tags, tag ∈ rest req tags ↔
      tag ∈ tags ∧ ¬(req.tags = [] ∨ tag ∈ req.tags) := by
    intro tag tags
    rw [rest]
    split
    case isTrue hnil => simp [hnil]
    case isFalse hne => simp [hne]
  have hother : ∀ d, d ≠ req.deviceID → ∀ tag,
      (Considered (handleUnsubscribe w.scanner req).1 d tag ↔
        ∃ sub, tag ∈ w.wanted.set req.deviceID req.subscriberID
          (rest req (w.wanted req.deviceID req.subscriberID)) d sub) := by
    intro d hd tag
    rw [considered_unsubscribe, hagrees, set_device _ _ _ hd]
    simp [hd]
  by_cases hlast : LastLeaves w.scanner req
  · refine ⟨fun _ => .inl hlast, fun _ d tag => ?_⟩
    by_cases hd : d = req.deviceID
    · subst hd
      rw [considered_unsubscribe]
      refine ⟨fun h => absurd ⟨rfl, hlast⟩ h.2, ?_⟩
      -- what is still wanted is noted, and nothing is
      rintro ⟨sub, htag⟩
      have hempty := noted_unsubscribe hnoted req req.deviceID sub htag
      rw [heldAt_lastLeaves hlast] at hempty
      cases hempty
    · exact hother d hd tag
  · have hdevice : ∀ tag, Considered (handleUnsubscribe w.scanner req).1 req.deviceID tag ↔
        ∃ sub, tag ∈ w.wanted req.deviceID sub := by
      intro tag
      rw [considered_unsubscribe, hagrees]
      simp [hlast]
    constructor
    · intro h
      refine .inr fun tag htag hgone => ?_
      have hboth := (h req.deviceID tag).mp ((hdevice tag).mpr ⟨_, htag⟩)
      rw [exists_set_iff, hrest] at hboth
      exact hboth.resolve_left fun hkept => hkept.2 hgone
    · intro h d tag
      have h := h.resolve_left hlast
      by_cases hd : d = req.deviceID
      · subst hd
        rw [hdevice, exists_set_iff, hrest]
        constructor
        · rintro ⟨sub, htag⟩
          by_cases hsub : sub = req.subscriberID
          · subst hsub
            by_cases hgone : req.tags = [] ∨ tag ∈ req.tags
            · exact .inr (h tag htag hgone)
            · exact .inl ⟨htag, hgone⟩
          · exact .inr ⟨sub, hsub, htag⟩
        · rintro (⟨htag, -⟩ | ⟨sub, -, htag⟩)
          · exact ⟨_, htag⟩
          · exact ⟨sub, htag⟩
      · exact hother d hd tag

section Runs

variable [GoFloat64 F64] (finite : F64 → Bool)

/-- A request or a poll, beside the record of what the requests say. -/
def handle (w : System F64) (a : ScannerAction F64) : Option (System F64) :=
  (step finite w.scanner a).map fun s => ⟨s, w.wanted.record a⟩

variable {finite}

/-- A poll changes neither what is considered nor what is noted. -/
theorem poll_same {s t : Scanner F64} {deviceID : String} {results : List (TagResult F64)}
    {now : Int} (h : step finite s (.poll deviceID results now) = some t) (d : String) :
    (∀ tag, Considered t d tag ↔ Considered s d tag) ∧ ∀ sub, heldAt t d sub = heldAt s d sub := by
  obtain ⟨conn, hconn, h⟩ := Option.bind_eq_some_iff.mp h
  split at h
  case isFalse => cases h
  case isTrue =>
    cases h
    by_cases hd : d = deviceID
    · subst hd
      constructor
      · intro tag
        simp [Considered, hconn, mem_vars_pollOnce]
      · intro sub
        simp [heldAt, held, hconn, subscribers_pollOnce]
    · simp [Considered, heldAt, AList.lookup_insert_ne hd]

/-- Each request leaves the scanner with what the record of the requests says. -/
theorem handle_noted {w v : System F64} {a : ScannerAction F64} (h : Noted w)
    (hv : handle finite w a = some v) : Noted v := by
  obtain ⟨t, ht, rfl⟩ := Option.map_eq_some_iff.mp hv
  intro d sub
  cases a with
  | subscribe req =>
    cases ht
    dsimp only [Wanted.record]
    split
    case isTrue hcomplete =>
      by_cases hself : d = req.deviceID ∧ sub = req.subscriberID
      · obtain ⟨rfl, rfl⟩ := hself
        rw [set_self, heldAt_subscribe_self hcomplete]
        exact Finset.subset_union_right
      · rw [not_and_or] at hself
        rw [heldAt_subscribe_other hself]
        by_cases hd : d = req.deviceID
        · subst hd
          rw [set_other _ _ _ (hself.resolve_left fun hne => hne rfl)]
          exact h _ sub
        · rw [set_device _ _ _ hd]
          exact h d sub
    case isFalse hcomplete =>
      rw [handleSubscribe, if_neg hcomplete]
      exact h d sub
  | unsubscribe req =>
    cases ht
    exact noted_unsubscribe h req d sub
  | poll deviceID results now =>
    dsimp only [Wanted.record]
    rw [(poll_same ht d).2 sub]
    exact h d sub

/-- A request keeps the polled set right exactly if it meets the condition. -/
theorem handle_agrees_iff {w v : System F64} {a : ScannerAction F64} (hnoted : Noted w)
    (hagrees : Agrees w) (hv : handle finite w a = some v) : Agrees v ↔ Keeps w a := by
  obtain ⟨t, ht, rfl⟩ := Option.map_eq_some_iff.mp hv
  cases a with
  | subscribe req =>
    cases ht
    exact subscribe_agrees_iff hagrees req
  | unsubscribe req =>
    cases ht
    exact unsubscribe_agrees_iff hnoted hagrees req
  | poll deviceID results now =>
    refine ⟨fun _ => trivial, fun _ d tag => ?_⟩
    exact ((poll_same ht d).1 tag).trans (hagrees d tag)

/-- In every state that a run goes through, a poll goes over the tags that somebody wants, exactly
when no request gives a tag up that nobody else wants, unless the connection ends with it. -/
theorem polled_iff_keeps (as : List (ScannerAction F64)) (v : System F64)
    (hrun : Runs.run (handle finite) {} as = some v) :
    (∀ front u, front <+: as → Runs.run (handle finite) {} front = some u → Agrees u) ↔
      Runs.Meets (handle finite) Keeps {} as := by
  have hnoted : Noted ({} : System F64) := fun d sub => Finset.empty_subset _
  have hagrees : Agrees ({} : System F64) := by
    intro d tag
    simp [Considered, Scanner.start]
  exact Runs.always_iff_meets (fun _ _ _ => handle_noted)
    (fun _ _ _ hnoted hagrees hv => handle_agrees_iff hnoted hagrees hv) hnoted hagrees hrun

end Runs

def subscribeTo (subscriberID : String) (tags : List String) : ScannerAction ℚ :=
  .subscribe { deviceID := "press", host := "10.0.0.7", tags, subscriberID }

def unsubscribeFrom (subscriberID : String) (tags : List String) : ScannerAction ℚ :=
  .unsubscribe ⟨"press", tags, subscriberID⟩

/-- The gateway gives a tag up that the PLC has as well. -/
def sharedTag : List (ScannerAction ℚ) :=
  [subscribeTo "gateway" ["Speed", "Torque"], subscribeTo "plc" ["Torque"],
    unsubscribeFrom "gateway" ["Torque"]]

theorem polled_iff_keeps_sharedTag :
    Runs.Meets (handle fun _ : ℚ => true) Keeps {} sharedTag ∧
      ∃ v, Runs.run (handle fun _ : ℚ => true) {} sharedTag = some v ∧ Agrees v := by
  have hkeeps : Runs.Meets (handle fun _ : ℚ => true) Keeps {} sharedTag := by
    refine ⟨?_, ?_⟩
    · intro _ tag htag
      cases htag
    rintro _ ⟨⟩
    refine ⟨?_, ?_⟩
    · intro _ tag htag
      cases htag
    rintro _ ⟨⟩
    refine ⟨.inr ?_, fun _ _ => trivial⟩
    rintro tag - (hnil | htag)
    · cases hnil
    · obtain rfl := List.mem_singleton.mp htag
      exact ⟨"plc", by decide, by decide⟩
  refine ⟨hkeeps, _, rfl, ?_⟩
  exact (polled_iff_keeps sharedTag _ rfl).mpr hkeeps sharedTag _ List.prefix_rfl rfl

/-- A tag that its only subscriber has given up is polled on. -/
theorem unsubscribed_still_polled :
    ¬∀ (as : List (ScannerAction ℚ)) (v : System ℚ),
      Runs.run (handle fun _ : ℚ => true) {} as = some v →
        ∀ deviceID conn, v.scanner.connections.lookup deviceID = some conn →
          ∀ tag, tag ∈ conn.vars ↔ ∃ sub, tag ∈ v.wanted deviceID sub := by
  intro h
  have hpolled := h [subscribeTo "gateway" ["Speed", "Torque"], unsubscribeFrom "gateway" ["Torque"]]
    _ rfl "press" _ rfl "Torque"
  obtain ⟨sub, hsub⟩ := hpolled.mp (by decide)
  by_cases hgateway : sub = "gateway"
  · subst hgateway
    exact absurd hsub (by decide)
  · simp [Wanted.record, Wanted.set, subscribeTo, unsubscribeFrom, SubscribeRequest.complete,
      hgateway] at hsub

end EthernetIpPolledSet
