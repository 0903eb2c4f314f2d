import Tentacle.KvBucket

/-!
# Expiry of keys

A bucket with a TTL is swept once a second; whoever reads it between two sweeps passes over
the entries that have expired since. What a reader can see of a bucket is therefore its
entries less the expired ones, and a sweep leaves that as it is: it removes what had
expired when it read the clock, and that stays expired.
-/

namespace KvExpiry

open GoValues KvBucket

inductive Op where
  /-- The clock moves on. -/
  | tick (d : Nat)
  | kvPut (key : String) (value : Bytes)
  | kvDelete (key : String)
  | kvGet (key : String)
  | kvKeys
  | kvWatch (key : String)
  /-- A sweep that has read the clock this long before it takes the lock of the bucket. -/
  | expireTTL (ago : Nat)
  deriving DecidableEq, Repr

/-- What an operation returns; for `KVWatch`, the calls that replay the existing entries. -/
inductive Result where
  | revision (rev : Nat)
  | deleted
  | got (r : Except String (Bytes × Nat))
  | keys (ks : List String)
  | replayed (calls : List Notice)

structure State where
  bucket : Bucket
  now : Nat
  /-- Stands for the pointer of the next watcher. -/
  nextId : Nat

def step (s : State) : Op → State × List Result
  | .tick d => ({ s with now := s.now + d }, [])
  | .kvPut key value =>
    let b := kvPut s.bucket s.now key value
    ({ s with bucket := b }, [.revision b.revision])
  | .kvDelete key => ({ s with bucket := kvDelete s.bucket key }, [.deleted])
  | .kvGet key => (s, [.got (kvGet s.bucket s.now key)])
  | .kvKeys => (s, [.keys (kvKeys s.bucket s.now)])
  | .kvWatch key =>
    let w := ⟨s.nextId, key⟩
    ({ s with bucket := kvWatch s.bucket w, nextId := s.nextId + 1 },
      [.replayed (replay s.bucket s.now w)])
  | .expireTTL ago => ({ s with bucket := (expireTTL s.bucket (s.now - ago)).1 }, [])

/-- The results of a sequence of operations. -/
def results : State → List Op → List Result
  | _, [] => []
  | s, op :: ops => (step s op).2 ++ results (step s op).1 ops

/-- The map is read in an order that Go does not fix. -/
inductive Agree : Result → Result → Prop
  | same (r : Result) : Agree r r
  | keys {ks ks' : List String} (h : ks.Perm ks') : Agree (.keys ks) (.keys ks')
  | replayed {calls calls' : List Notice} (h : calls.Perm calls') :
      Agree (.replayed calls) (.replayed calls')

/-! ## What can be seen of a bucket -/

/-- The entry of a key, unless it has expired. -/
def visible (b : Bucket) (now : Nat) (key : String) : Option Entry :=
  (b.entries.lookup key).filter fun e => !e.expired now

theorem visible_eq_some {b : Bucket} {now : Nat} {key : String} {e : Entry} :
    visible b now key = some e ↔ b.entries.lookup key = some e ∧ e.expired now = false := by
  simp [visible, Option.filter_eq_some_iff]

/-- As time goes on entries leave the view and none comes. -/
theorem visible_tick (b : Bucket) (now d : Nat) (key : String) :
    visible b (now + d) key = (visible b now key).filter fun e => !e.expired (now + d) := by
  rw [visible, visible, Option.filter_filter]
  congr 1
  funext e
  have hmono := Entry.expired_mono (e := e) (Nat.le_add_right now d)
  cases hnow : e.expired now with
  | false => simp
  | true => simp [hmono hnow]

/-- A put is seen under its own key. -/
theorem visible_kvPut (b : Bucket) (now : Nat) (key : String) (value : Bytes) (k : String) :
    visible (kvPut b now key value) now k =
      if k = key then
        some ⟨value, b.revision + 1, if 0 < b.ttl then some (now + b.ttl) else none⟩
      else visible b now k := by
  rw [visible]
  split
  next hk =>
    subst hk
    rw [kvPut, AList.lookup_insert, Option.filter_some, if_pos]
    by_cases httl : 0 < b.ttl <;> simp [Entry.expired, httl]
  next hk => rw [kvPut_lookup_other b now key k value hk, visible]

theorem visible_kvDelete (b : Bucket) (now : Nat) (key k : String) :
    visible (kvDelete b key) now k = if k = key then none else visible b now k := by
  rw [visible]
  split
  next hk => rw [hk, kvDelete_lookup, Option.filter_none]
  next hk => rw [kvDelete_lookup_other b key k hk, visible]

/-- A sweep collects the keys whose entry has expired by its clock. -/
theorem mem_expiredKeys {b : Bucket} {clock : Nat} {k : String} :
    k ∈ expiredKeys b clock ↔ ∃ e, b.entries.lookup k = some e ∧ e.expired clock = true := by
  simp only [expiredKeys, List.mem_map, List.mem_filter]
  constructor
  · rintro ⟨⟨l, e⟩, ⟨hmem, he⟩, rfl⟩
    exact ⟨e, (mem_entries_iff b.entries l e).mp hmem, he⟩
  · rintro ⟨e, hlook, he⟩
    exact ⟨⟨k, e⟩, ⟨(mem_entries_iff b.entries k e).mpr hlook, he⟩, rfl⟩

/-- A sweep that has read the clock before removes nothing that can be seen. -/
theorem visible_expireTTL (b : Bucket) {clock now : Nat} (h : clock ≤ now) (k : String) :
    visible (expireTTL b clock).1 now k = visible b now k := by
  by_cases httl : 0 < b.ttl
  · rw [visible, expireTTL_lookup b clock k httl]
    split
    next hmem =>
      obtain ⟨e, hlook, he⟩ := mem_expiredKeys.mp hmem
      rw [visible, hlook, Option.filter_none, Option.filter_some, if_neg]
      simp [Entry.expired_mono h he]
    next => rw [visible]
  · rw [expireTTL, if_neg httl]

/-! ## Readers see only that -/

/-- The two buckets show the same, also after further operations. -/
structure SameView (s s' : State) : Prop where
  now : s.now = s'.now
  nextId : s.nextId = s'.nextId
  ttl : s.bucket.ttl = s'.bucket.ttl
  revision : s.bucket.revision = s'.bucket.revision
  watchers : s.bucket.watchers = s'.bucket.watchers
  visible : ∀ k, visible s.bucket s.now k = visible s'.bucket s.now k

/-- A get answers from the view. -/
theorem kvGet_eq_visible (b : Bucket) (now : Nat) (key : String) :
    kvGet b now key =
      match visible b now key with
      | none => .error "key not found"
      | some e => .ok (e.value, e.revision) := by
  rw [kvGet, visible]
  cases b.entries.lookup key with
  | none => rfl
  | some e =>
    dsimp only
    rw [Option.filter_some]
    cases e.expired now with
    | false => rfl
    | true => rfl

/-- The entries that have not expired, in the order of the map. -/
def liveEntries (b : Bucket) (now : Nat) : List (Sigma fun _ : String => Entry) :=
  b.entries.entries.filter fun e => !e.2.expired now

/-- Buckets with one view list the same entries. -/
theorem liveEntries_perm {b b' : Bucket} {now : Nat}
    (h : ∀ k, visible b now k = visible b' now k) :
    (liveEntries b now).Perm (liveEntries b' now) := by
  have hmem : ∀ (c : Bucket) (x : Sigma fun _ : String => Entry),
      x ∈ liveEntries c now ↔ visible c now x.1 = some x.2 := by
    intro c x
    rw [liveEntries, List.mem_filter, visible_eq_some, ← mem_entries_iff, Bool.not_eq_true']
  have hnodup : ∀ c : Bucket, (liveEntries c now).Nodup := fun c =>
    c.entries.nodupKeys.nodup.filter _
  rw [List.perm_ext_iff_of_nodup (hnodup b) (hnodup b')]
  intro x
  rw [hmem, hmem, h]

theorem replay_eq (b : Bucket) (now : Nat) (w : Watcher) :
    replay b now w = ((liveEntries b now).filter fun e => w.watches e.1).map
      fun e => ⟨w.id, e.1, .put e.2.value⟩ := by
  rw [replay, liveEntries, List.filter_filter]
  simp only [Bool.and_comm]

/-! ## Operations keep the view -/

theorem expireTTL_ttl_revision (b : Bucket) (clock : Nat) :
    (expireTTL b clock).1.ttl = b.ttl ∧ (expireTTL b clock).1.revision = b.revision := by
  rw [expireTTL]
  split
  · exact ⟨rfl, rfl⟩
  · exact ⟨rfl, rfl⟩

/-- A sweep changes nothing in the view. -/
theorem SameView.sweep {s s' : State} (h : SameView s s') (ago : Nat) :
    SameView s (step s' (.expireTTL ago)).1 where
  now := h.now
  nextId := h.nextId
  ttl := h.ttl.trans (expireTTL_ttl_revision _ _).1.symm
  revision := h.revision.trans (expireTTL_ttl_revision _ _).2.symm
  watchers := h.watchers.trans (expireTTL_watchers _ _).symm
  visible k := by
    have hago : s'.now - ago ≤ s.now := h.now ▸ Nat.sub_le s'.now ago
    exact (h.visible k).trans (visible_expireTTL s'.bucket hago k).symm

theorem SameView.symm {s s' : State} (h : SameView s s') : SameView s' s where
  now := h.now.symm
  nextId := h.nextId.symm
  ttl := h.ttl.symm
  revision := h.revision.symm
  watchers := h.watchers.symm
  visible k := by rw [← h.now, h.visible k]

/-- An operation on buckets that show the same has the same result on both. -/
theorem SameView.step {s s' : State} (h : SameView s s') (op : Op) :
    SameView (step s op).1 (step s' op).1 ∧
      List.Forall₂ Agree (step s op).2 (step s' op).2 := by
  cases op with
  | expireTTL ago => exact ⟨((h.sweep ago).symm.sweep ago).symm, .nil⟩
  | tick d =>
    refine ⟨{ h with now := congrArg (· + d) h.now, visible := fun k => ?_ }, .nil⟩
    simp only [KvExpiry.step, visible_tick, h.visible]
  | kvPut key value =>
    have hrevision := congrArg (· + 1) h.revision
    refine ⟨{ h with revision := hrevision, visible := fun k => ?_ }, ?_⟩
    · simp only [KvExpiry.step, visible_kvPut, h.visible, h.ttl, h.revision, ← h.now]
    · simp only [KvExpiry.step, kvPut, h.revision]
      exact .cons (.same _) .nil
  | kvDelete key =>
    refine ⟨{ h with visible := fun k => ?_ }, .cons (.same _) .nil⟩
    simp only [KvExpiry.step, visible_kvDelete, h.visible]
  | kvGet key =>
    refine ⟨h, ?_⟩
    simp only [KvExpiry.step, kvGet_eq_visible, h.visible, ← h.now]
    exact .cons (.same _) .nil
  | kvKeys =>
    refine ⟨h, .cons (.keys ?_) .nil⟩
    rw [← h.now]
    exact (liveEntries_perm h.visible).map _
  | kvWatch key =>
    have hwatchers : s.bucket.watchers ++ [⟨s.nextId, key⟩] =
        s'.bucket.watchers ++ [⟨s'.nextId, key⟩] := by rw [h.watchers, h.nextId]
    refine ⟨{ h with nextId := congrArg (· + 1) h.nextId, watchers := hwatchers },
      .cons (.replayed ?_) .nil⟩
    rw [replay_eq, replay_eq, ← h.now, ← h.nextId]
    exact ((liveEntries_perm h.visible).filter _).map _

/-! ## Whole runs -/

/-- The second sequence is the first with sweeps put in. -/
inductive WithSweeps : List Op → List Op → Prop
  | nil : WithSweeps [] []
  | keep (op : Op) {base ops : List Op} (h : WithSweeps base ops) :
      WithSweeps (op :: base) (op :: ops)
  | sweep (ago : Nat) {base ops : List Op} (h : WithSweeps base ops) :
      WithSweeps base (.expireTTL ago :: ops)

/-- With one view at the start the runs with and without sweeps answer alike. -/
theorem results_of_sameView {base ops : List Op} (hops : WithSweeps base ops) {s s' : State}
    (h : SameView s s') : List.Forall₂ Agree (results s base) (results s' ops) := by
  induction hops generalizing s s' with
  | nil => exact .nil
  | keep op _ ih =>
    obtain ⟨hview, hresults⟩ := h.step op
    exact List.rel_append hresults (ih hview)
  | sweep ago _ ih => exact ih (h.sweep ago)

/-- Sweeps put in anywhere change no result: every read returns the same, every list of
keys and every replay has the same members. -/
theorem sweeps_unobservable (s : State) {base ops : List Op} (h : WithSweeps base ops) :
    List.Forall₂ Agree (results s base) (results s ops) :=
  results_of_sameView h ⟨rfl, rfl, rfl, rfl, rfl, fun _ => rfl⟩

/-- A bucket whose entries live for ten milliseconds. -/
def tenMs : State := ⟨⟨10, ∅, 0, []⟩, 0, 0⟩

/-- The key is put, expires, is swept, and is put again. -/
theorem sweeps_unobservable_tenMs : List.Forall₂ Agree
    (results tenMs [.kvPut "a" [1], .tick 11, .kvKeys, .kvPut "a" [2], .kvGet "a"])
    (results tenMs
      [.kvPut "a" [1], .tick 11, .expireTTL 0, .kvKeys, .kvPut "a" [2], .expireTTL 3,
        .kvGet "a"]) :=
  sweeps_unobservable tenMs
    (.keep _ (.keep _ (.sweep 0 (.keep _ (.keep _ (.sweep 3 (.keep _ .nil)))))))

end KvExpiry
