import Tentacle.GoValues

/-!
# One bucket of the in-process key-value store

The critical sections of `ChannelBus` on a `kvBucket`: each definition is what
one operation does between taking and releasing the bucket's lock. Times are
milliseconds; the zero `time.Time` of an entry without expiry is `none`. What
an operation does after releasing the lock (saving, starting the watchers'
handlers) belongs to the modules that interleave it.
-/

namespace KvBucket

open GoValues

structure Entry where
  value : Bytes
  revision : Nat
  expiresAt : Option Nat
  deriving DecidableEq, Repr

/-- `!entry.expiresAt.IsZero() && now.After(entry.expiresAt)`. -/
def Entry.expired (e : Entry) (now : Nat) : Bool :=
  match e.expiresAt with
  | none => false
  | some t => decide (t < now)

/-- A registered watcher; `id` stands for the pointer, an empty key watches all. -/
structure Watcher where
  id : Nat
  key : String
  deriving DecidableEq, Repr

def Watcher.watches (w : Watcher) (key : String) : Bool := w.key == "" || w.key == key

structure Bucket where
  ttl : Nat
  entries : GoMap String Entry
  revision : Nat
  watchers : List Watcher

/-- What a watch handler is called with: `KVOpPut` and its value, or `KVOpDelete`. -/
inductive KvOp where
  | put : Bytes → KvOp
  | delete : KvOp
  deriving DecidableEq, Repr

/-- One `go w.handler(key, value, op)`, to be started or already started. -/
structure Notice where
  watcher : Nat
  key : String
  op : KvOp
  deriving DecidableEq, Repr

/-- The handler calls an operation on one key owes the watchers it found. -/
def notify (watchers : List Watcher) (key : String) (op : KvOp) : List Notice :=
  (watchers.filter (·.watches key)).map (fun w => ⟨w.id, key, op⟩)

def kvGet (b : Bucket) (now : Nat) (key : String) : Except String (Bytes × Nat) :=
  match b.entries.lookup key with
  | none => .error "key not found"
  | some e => if e.expired now then .error "key not found" else .ok (e.value, e.revision)

def kvPut (b : Bucket) (now : Nat) (key : String) (value : Bytes) : Bucket :=
  { b with
    revision := b.revision + 1
    entries := b.entries.insert key
      ⟨value, b.revision + 1, if 0 < b.ttl then some (now + b.ttl) else none⟩ }

def kvDelete (b : Bucket) (key : String) : Bucket := { b with entries := b.entries.erase key }

def kvKeys (b : Bucket) (now : Nat) : List String :=
  (b.entries.entries.filter (fun e => !e.2.expired now)).map (·.1)

/-- The entries a new watcher is shown: the live ones that its key watches. -/
def replay (b : Bucket) (now : Nat) (w : Watcher) : List Notice :=
  (b.entries.entries.filter (fun e => !e.2.expired now && w.watches e.1)).map
    (fun e => ⟨w.id, e.1, .put e.2.value⟩)

def kvWatch (b : Bucket) (w : Watcher) : Bucket := { b with watchers := b.watchers ++ [w] }

def unsubscribe (b : Bucket) (id : Nat) : Bucket :=
  { b with watchers := b.watchers.filter (fun w => w.id != id) }

def expiredKeys (b : Bucket) (now : Nat) : List String :=
  (b.entries.entries.filter (fun e => e.2.expired now)).map (·.1)

/-- `expireTTL` on this bucket; it passes over buckets without a TTL. -/
def expireTTL (b : Bucket) (now : Nat) : Bucket × List Notice :=
  if 0 < b.ttl then
    let expired := expiredKeys b now
    ({ b with entries := expired.foldl (fun m k => m.erase k) b.entries },
      expired.flatMap (fun k => notify b.watchers k .delete))
  else (b, [])

@[simp] theorem kvPut_watchers (b : Bucket) (now : Nat) (k : String) (v : Bytes) :
    (kvPut b now k v).watchers = b.watchers := rfl
@[simp] theorem kvDelete_watchers (b : Bucket) (k : String) :
    (kvDelete b k).watchers = b.watchers := rfl

@[simp] theorem expireTTL_watchers (b : Bucket) (now : Nat) :
    (expireTTL b now).1.watchers = b.watchers := by
  unfold expireTTL
  split <;> rfl

theorem kvPut_lookup (b : Bucket) (now : Nat) (k : String) (v : Bytes) :
    ((kvPut b now k v).entries.lookup k).map Entry.value = some v := by
  simp [kvPut]

theorem kvPut_lookup_other (b : Bucket) (now : Nat) (k l : String) (v : Bytes) (h : l ≠ k) :
    (kvPut b now k v).entries.lookup l = b.entries.lookup l :=
  AList.lookup_insert_ne h

@[simp] theorem kvDelete_lookup (b : Bucket) (k : String) :
    (kvDelete b k).entries.lookup k = none := AList.lookup_erase k b.entries

theorem kvDelete_lookup_other (b : Bucket) (k l : String) (h : l ≠ k) :
    (kvDelete b k).entries.lookup l = b.entries.lookup l := AList.lookup_erase_ne h

/-- A sweep removes the expired keys and leaves every other entry alone. -/
theorem expireTTL_lookup (b : Bucket) (now : Nat) (k : String) (h : 0 < b.ttl) :
    (expireTTL b now).1.entries.lookup k =
      if k ∈ expiredKeys b now then none else b.entries.lookup k := by
  simp only [expireTTL, if_pos h]
  exact lookup_foldl_erase _ _ _

/-- A change goes to each watcher of its key. -/
theorem mem_notify (watchers : List Watcher) (k : String) (op : KvOp) (n : Notice) :
    n ∈ notify watchers k op ↔
      ∃ w ∈ watchers, w.watches k = true ∧ n = ⟨w.id, k, op⟩ := by
  simp only [notify, List.mem_map, List.mem_filter]
  constructor
  · rintro ⟨w, ⟨hw, hk⟩, rfl⟩
    exact ⟨w, hw, hk, rfl⟩
  · rintro ⟨w, hw, hk, rfl⟩
    exact ⟨w, ⟨hw, hk⟩, rfl⟩

/-- What has expired stays expired. -/
theorem Entry.expired_mono {e : Entry} {now later : Nat} (hle : now ≤ later)
    (h : e.expired now = true) : e.expired later = true := by
  unfold Entry.expired at *
  cases he : e.expiresAt with
  | none => simp [he] at h
  | some t =>
    simp only [he, decide_eq_true_eq] at h ⊢
    omega

/-- `kvGet` answers exactly for the entries that are present and not expired. -/
theorem kvGet_ok_iff (b : Bucket) (now : Nat) (k : String) :
    (∃ r, kvGet b now k = .ok r) ↔
      ∃ e, b.entries.lookup k = some e ∧ e.expired now = false := by
  unfold kvGet
  cases hlook : b.entries.lookup k with
  | none => simp
  | some e => cases he : e.expired now <;> simp [he]

/-- `kvKeys` lists exactly the keys that `kvGet` answers for. -/
theorem mem_kvKeys (b : Bucket) (now : Nat) (k : String) :
    k ∈ kvKeys b now ↔ ∃ r, kvGet b now k = .ok r := by
  rw [kvGet_ok_iff]
  simp only [kvKeys, List.mem_map, List.mem_filter, Bool.not_eq_true']
  constructor
  · rintro ⟨⟨l, e⟩, ⟨hmem, he⟩, rfl⟩
    exact ⟨e, (mem_entries_iff b.entries l e).mp hmem, he⟩
  · rintro ⟨e, hlook, he⟩
    exact ⟨⟨k, e⟩, ⟨(mem_entries_iff b.entries k e).mpr hlook, he⟩, rfl⟩

end KvBucket
