import Tentacle.KvBucket
import Tentacle.OrderedMoves
import Tentacle.Runs

/-!
# Watchers of a bucket

Every handler call is started by `go w.handler(...)` after the operation has
released the bucket's lock, so three things happen at separate moments: the
operation takes effect, the goroutine is started, and the handler runs. The
calls an operation still has to start are `due`, oldest operation first; the
started ones that have not run are `spawned`, in the order of their `go`
statements; the ones that ran are `seen`. The scheduler may take any of them
at any time.
-/

namespace KvWatch

open GoValues KvBucket
open OrderedMoves (First)

structure System where
  bucket : Bucket
  now : Nat
  nextId : Nat
  /-- Watchers whose `active` flag has been cleared. -/
  inactive : List Nat
  due : List Notice
  spawned : List Notice
  seen : List Notice

inductive Action where
  | kvPut : String → Bytes → Action
  | kvDelete : String → Action
  | kvWatch : String → Action
  | unsubscribe : Nat → Action
  /-- `ttlLoop` reads the clock once and then takes the bucket's lock. -/
  | expireTTL : (clock : Nat) → Action
  | tick : Nat → Action
  | spawn : Nat → Action
  | deliver : Nat → Action
  deriving DecidableEq, Repr

def step (s : System) : Action → Option System
  | .kvPut key value =>
    some { s with
      bucket := kvPut s.bucket s.now key value
      due := s.due ++ notify s.bucket.watchers key (.put value) }
  | .kvDelete key =>
    some { s with
      bucket := kvDelete s.bucket key
      due := s.due ++ notify s.bucket.watchers key .delete }
  | .kvWatch key =>
    some { s with
      bucket := kvWatch s.bucket ⟨s.nextId, key⟩
      nextId := s.nextId + 1
      due := s.due ++ replay s.bucket s.now ⟨s.nextId, key⟩ }
  | .unsubscribe id =>
    if id < s.nextId then
      some { s with bucket := unsubscribe s.bucket id, inactive := id :: s.inactive }
    else none
  | .expireTTL clock =>
    if clock ≤ s.now then
      some { s with
        bucket := (expireTTL s.bucket clock).1
        due := s.due ++ (expireTTL s.bucket clock).2 }
    else none
  | .tick d => some { s with now := s.now + d }
  | .spawn n =>
    s.due[n]?.map (fun x =>
      if x.watcher ∈ s.inactive then { s with due := s.due.eraseIdx n }
      else { s with due := s.due.eraseIdx n, spawned := s.spawned ++ [x] })
  | .deliver n =>
    s.spawned[n]?.map (fun x =>
      { s with spawned := s.spawned.eraseIdx n, seen := s.seen ++ [x] })

/-- A bucket as `KVCreate` leaves it: what was loaded, and nobody watching. -/
def initial (ttl : Nat) (entries : GoMap String Entry) : System :=
  ⟨⟨ttl, entries, entries.entries.length, []⟩, 0, 0, [], [], [], []⟩

/-- Which watcher a notice is for, and about which key. -/
def target (n : Notice) : Nat × String := (n.watcher, n.key)

/-- The last operation a sequence of handler calls shows a watcher for a key. -/
def lastOp (l : List Notice) (id : Nat) (key : String) : Option KvOp :=
  (l.filter (fun n => target n = (id, key))).getLast?.map Notice.op

/-- The shown operation is the state of the key in the bucket. A watcher that
was shown nothing has missed nothing that a read would return. -/
def Agrees (b : Bucket) (now : Nat) (key : String) : Option KvOp → Prop
  | some (.put v) => (b.entries.lookup key).map Entry.value = some v
  | some .delete => b.entries.lookup key = none
  | none => ∀ e ∈ b.entries.lookup key, e.expired now = true

/-- Every registered watcher with no handler call left to start or to run has
last been shown, for each key it watches, the state of that key. -/
def Consistent (s : System) : Prop :=
  ∀ w ∈ s.bucket.watchers, (∀ n ∈ s.due ++ s.spawned, n.watcher ≠ w.id) →
    ∀ key, w.watches key = true → Agrees s.bucket s.now key (lastOp s.seen w.id key)

/-- The scheduler starts and runs the calls for one watcher and one key in the
order in which their operations took effect. -/
def InOrder (s : System) : Action → Prop
  | .spawn n => First target s.due n
  | .deliver n => First target s.spawned n
  | _ => True

instance InOrder.decidable (s : System) : (a : Action) → Decidable (InOrder s a)
  | .spawn n => inferInstanceAs (Decidable (First target s.due n))
  | .deliver n => inferInstanceAs (Decidable (First target s.spawned n))
  | .kvPut _ _ | .kvDelete _ | .kvWatch _ | .unsubscribe _ | .expireTTL _
  | .tick _ => isTrue trivial

theorem lastOp_append_none (l m : List Notice) (id : Nat) (key : String)
    (h : ∀ n ∈ m, target n ≠ (id, key)) : lastOp (l ++ m) id key = lastOp l id key := by
  have hm : m.filter (fun n => target n = (id, key)) = [] := by
    simpa [List.filter_eq_nil_iff] using h
  simp [lastOp, hm]

/-- When all the later calls for the key show one operation, it is the last. -/
theorem lastOp_append_some (l m : List Notice) (id : Nat) (key : String) (op : KvOp)
    (hex : ∃ n ∈ m, target n = (id, key))
    (hall : ∀ n ∈ m, target n = (id, key) → n.op = op) :
    lastOp (l ++ m) id key = some op := by
  obtain ⟨n, hn, ht⟩ := hex
  have hne : m.filter (fun n => target n = (id, key)) ≠ [] := by
    intro h
    exact List.filter_eq_nil_iff.mp h n hn (by simpa using ht)
  have hlast := List.getLast_mem hne
  simp only [List.mem_filter, decide_eq_true_eq] at hlast
  simp only [lastOp, List.filter_append, List.getLast?_append_of_ne_nil _ hne,
    List.getLast?_eq_some_getLast hne, Option.map_some, Option.some.injEq]
  exact hall _ hlast.1 hlast.2

/-- The calls of a watcher for a key, from those it ran to those still due. -/
def pipeline (s : System) : List Notice := s.seen ++ s.spawned ++ s.due

/-- What holds at every moment, with calls in progress: the last call on its
way to a watcher, wherever it has got to, shows the state of the bucket. -/
structure Tracked (s : System) : Prop where
  fresh : ∀ w ∈ s.bucket.watchers, w.id < s.nextId
  active : ∀ w ∈ s.bucket.watchers, w.id ∉ s.inactive
  retired : ∀ id ∈ s.inactive, id < s.nextId
  known : ∀ n ∈ pipeline s, n.watcher < s.nextId
  agrees : ∀ w ∈ s.bucket.watchers, ∀ key, w.watches key = true →
    Agrees s.bucket s.now key (lastOp (pipeline s) w.id key)

theorem initial_tracked (ttl : Nat) (entries : GoMap String Entry) :
    Tracked (initial ttl entries) := by
  constructor <;> simp [initial, pipeline]

/-- With nothing on its way to a watcher the pipeline is what it has seen. -/
theorem Tracked.consistent {s : System} (h : Tracked s) : Consistent s := by
  intro w hw hquiet key hkey
  have hp : lastOp (pipeline s) w.id key = lastOp s.seen w.id key := by
    rw [pipeline, List.append_assoc]
    apply lastOp_append_none
    intro n hn ht
    have hid : n.watcher = w.id := congrArg Prod.fst ht
    exact hquiet n (by simpa [or_comm] using hn) hid
  rw [← hp]
  exact h.agrees w hw key hkey

theorem Agrees.congr {b c : Bucket} {now : Nat} {key : String} {op : Option KvOp}
    (he : c.entries.lookup key = b.entries.lookup key) (h : Agrees b now key op) :
    Agrees c now key op := by
  unfold Agrees at *
  rw [he]
  exact h

/-- What agrees goes on agreeing as time passes. -/
theorem Agrees.later {b : Bucket} {now later : Nat} {key : String} {op : Option KvOp}
    (hle : now ≤ later) (h : Agrees b now key op) : Agrees b later key op := by
  match op with
  | some (.put v) => exact h
  | some .delete => exact h
  | none =>
    intro e he
    exact Entry.expired_mono hle (h e he)

/-- A write to one key puts one call for it on the way to each watcher of the
key, and touches no other key. -/
theorem write_agrees {s : System} {c : Bucket} {key : String} {op : KvOp} (hs : Tracked s)
    (hw : c.watchers = s.bucket.watchers) (hself : Agrees c s.now key (some op))
    (hother : ∀ l, l ≠ key → c.entries.lookup l = s.bucket.entries.lookup l) :
    Tracked { s with bucket := c, due := s.due ++ notify s.bucket.watchers key op } := by
  have hpipe : pipeline { s with bucket := c, due := s.due ++ notify s.bucket.watchers key op } =
      pipeline s ++ notify s.bucket.watchers key op := by
    simp [pipeline]
  constructor
  · simpa only [hw] using hs.fresh
  · simpa only [hw] using hs.active
  · exact hs.retired
  · rw [hpipe]
    intro n hn
    rcases List.mem_append.mp hn with hn | hn
    · exact hs.known n hn
    · obtain ⟨w, hmem, -, rfl⟩ := (mem_notify _ _ _ _).mp hn
      exact hs.fresh w hmem
  · rw [hpipe]
    intro w hmem l hl
    simp only [hw] at hmem
    by_cases hk : l = key
    · subst hk
      rw [lastOp_append_some _ _ _ _ op ⟨_, (mem_notify _ _ _ _).mpr ⟨w, hmem, hl, rfl⟩, rfl⟩]
      · exact hself
      · intro n hn _
        obtain ⟨v, -, -, rfl⟩ := (mem_notify _ _ _ _).mp hn
        rfl
    · rw [lastOp_append_none]
      · exact (hs.agrees w hmem l hl).congr (hother l hk)
      · intro n hn ht
        obtain ⟨v, -, -, rfl⟩ := (mem_notify _ _ _ _).mp hn
        exact hk (congrArg Prod.snd ht).symm

theorem kvPut_tracked {s t : System} {key : String} {value : Bytes} (hs : Tracked s)
    (ht : step s (.kvPut key value) = some t) : Tracked t := by
  cases ht
  exact write_agrees hs (kvPut_watchers _ _ _ _) (kvPut_lookup _ _ _ _)
    (fun l hl => kvPut_lookup_other _ _ _ _ _ hl)

theorem kvDelete_tracked {s t : System} {key : String} (hs : Tracked s)
    (ht : step s (.kvDelete key) = some t) : Tracked t := by
  cases ht
  exact write_agrees hs (kvDelete_watchers _ _) (kvDelete_lookup _ _)
    (fun l hl => kvDelete_lookup_other _ _ _ hl)

/-- An expiry reports the keys that it removes, as deleted. -/
theorem mem_expireTTL_notices {b : Bucket} {clock : Nat} {n : Notice}
    (h : n ∈ (expireTTL b clock).2) :
    n.key ∈ expiredKeys b clock ∧ n.op = .delete ∧ ∃ w ∈ b.watchers, n.watcher = w.id := by
  unfold expireTTL at h
  split at h
  · obtain ⟨k, hk, hn⟩ := List.mem_flatMap.mp h
    obtain ⟨w, hw, -, rfl⟩ := (mem_notify _ _ _ _).mp hn
    exact ⟨hk, rfl, w, hw, rfl⟩
  · simp at h

/-- A sweep shows a deletion to every watcher of every key it removes. -/
theorem expireTTL_notices {b : Bucket} {clock : Nat} {w : Watcher} {key : String}
    (httl : 0 < b.ttl) (hw : w ∈ b.watchers) (hkey : w.watches key = true)
    (hexp : key ∈ expiredKeys b clock) : ⟨w.id, key, .delete⟩ ∈ (expireTTL b clock).2 := by
  simp only [expireTTL, if_pos httl]
  exact List.mem_flatMap.mpr ⟨key, hexp, (mem_notify _ _ _ _).mpr ⟨w, hw, hkey, rfl⟩⟩

/-- After an expiry the last that a watcher is told about a key still agrees with the bucket. -/
theorem expireTTL_agrees {s : System} {clock : Nat} (hs : Tracked s) {w : Watcher}
    (hw : w ∈ s.bucket.watchers) {key : String} (hkey : w.watches key = true) :
    Agrees (expireTTL s.bucket clock).1 s.now key
      (lastOp (pipeline s ++ (expireTTL s.bucket clock).2) w.id key) := by
  by_cases hexp : key ∈ expiredKeys s.bucket clock ∧ 0 < s.bucket.ttl
  · rw [lastOp_append_some _ _ _ _ .delete ⟨_, expireTTL_notices hexp.2 hw hkey hexp.1, rfl⟩]
    · show (expireTTL s.bucket clock).1.entries.lookup key = none
      rw [expireTTL_lookup _ _ _ hexp.2, if_pos hexp.1]
    · intro n hn _
      exact (mem_expireTTL_notices hn).2.1
  · rw [lastOp_append_none]
    · apply (hs.agrees w hw key hkey).congr
      by_cases httl : 0 < s.bucket.ttl
      · have hk : key ∉ expiredKeys s.bucket clock := fun h => hexp ⟨h, httl⟩
        rw [expireTTL_lookup _ _ _ httl, if_neg hk]
      · simp [expireTTL, httl]
    · intro n hn ht
      have hk : n.key = key := congrArg Prod.snd ht
      refine hexp ⟨hk ▸ (mem_expireTTL_notices hn).1, ?_⟩
      by_contra httl
      simp [expireTTL, httl] at hn

/-- An expiry leaves the watchers with what the bucket says. -/
theorem expireTTL_tracked {s t : System} {clock : Nat} (hs : Tracked s)
    (ht : step s (.expireTTL clock) = some t) : Tracked t := by
  simp only [step, Option.ite_none_right_eq_some, Option.some.injEq] at ht
  obtain ⟨-, rfl⟩ := ht
  constructor
  · simpa using hs.fresh
  · simpa using hs.active
  · exact hs.retired
  · intro n hn
    simp only [pipeline, ← List.append_assoc] at hn
    rcases List.mem_append.mp hn with hn | hn
    · exact hs.known n hn
    · obtain ⟨-, -, w, hw, hid⟩ := mem_expireTTL_notices hn
      exact hid ▸ hs.fresh w hw
  · intro w hw key hkey
    simp only [expireTTL_watchers] at hw
    simp only [pipeline, ← List.append_assoc]
    exact expireTTL_agrees hs hw hkey

/-- A new watcher is told the entries that are there and not expired. -/
theorem mem_replay {b : Bucket} {now : Nat} {w : Watcher} {n : Notice} :
    n ∈ replay b now w ↔ ∃ e, b.entries.lookup n.key = some e ∧ e.expired now = false ∧
      w.watches n.key = true ∧ n = ⟨w.id, n.key, .put e.value⟩ := by
  simp only [replay, List.mem_map, List.mem_filter, Bool.and_eq_true, Bool.not_eq_eq_eq_not,
    Bool.not_true]
  constructor
  · rintro ⟨⟨k, e⟩, ⟨hmem, hlive, hkey⟩, rfl⟩
    exact ⟨e, (mem_entries_iff _ _ _).mp hmem, hlive, hkey, rfl⟩
  · rintro ⟨e, hlook, hlive, hkey, hn⟩
    exact ⟨⟨n.key, e⟩, ⟨(mem_entries_iff _ _ _).mpr hlook, hlive, hkey⟩, hn.symm⟩

/-- The replay shows a new watcher each live entry, and it has seen no other. -/
theorem replay_agrees {s : System} (hs : Tracked s) (w : Watcher) (hid : w.id = s.nextId)
    {key : String} (hkey : w.watches key = true) :
    Agrees s.bucket s.now key (lastOp (pipeline s ++ replay s.bucket s.now w) w.id key) := by
  by_cases hlive : ∃ e, s.bucket.entries.lookup key = some e ∧ e.expired s.now = false
  · obtain ⟨e, hlook, hlive⟩ := hlive
    rw [lastOp_append_some _ _ _ _ (.put e.value)
      ⟨⟨w.id, key, .put e.value⟩, mem_replay.mpr ⟨e, hlook, hlive, hkey, rfl⟩, rfl⟩]
    · show (s.bucket.entries.lookup key).map Entry.value = some e.value
      rw [hlook]
      rfl
    · intro n hn ht
      obtain ⟨e', hlook', -, -, hn⟩ := mem_replay.mp hn
      have hk : n.key = key := congrArg Prod.snd ht
      rw [hk, hlook, Option.some.injEq] at hlook'
      rw [hn, hlook']
  · have hnone : lastOp (pipeline s ++ replay s.bucket s.now w) w.id key = none := by
      rw [lastOp_append_none]
      · have h := lastOp_append_none [] (pipeline s) w.id key (by
          intro n hn ht
          have hlt := hs.known n hn
          have : n.watcher = w.id := congrArg Prod.fst ht
          omega)
        simpa [lastOp] using h
      · intro n hn ht
        obtain ⟨e, hlook, hl, -, -⟩ := mem_replay.mp hn
        have hk : n.key = key := congrArg Prod.snd ht
        exact hlive ⟨e, hk ▸ hlook, hl⟩
    rw [hnone]
    intro e he
    by_contra hne
    exact hlive ⟨e, he, by simpa using hne⟩

/-- A new watcher starts with the state of the bucket. -/
theorem kvWatch_tracked {s t : System} {key : String} (hs : Tracked s)
    (ht : step s (.kvWatch key) = some t) : Tracked t := by
  cases ht
  constructor
  · intro w hw
    rcases List.mem_append.mp hw with hw | hw
    · exact Nat.lt_succ_of_lt (hs.fresh w hw)
    · rw [List.mem_singleton.mp hw]
      exact Nat.lt_succ_self _
  · intro w hw hin
    rcases List.mem_append.mp hw with hw | hw
    · exact hs.active w hw hin
    · rw [List.mem_singleton.mp hw] at hin
      exact Nat.lt_irrefl _ (hs.retired _ hin)
  · intro id hid
    exact Nat.lt_succ_of_lt (hs.retired id hid)
  · intro n hn
    simp only [pipeline, ← List.append_assoc] at hn
    rcases List.mem_append.mp hn with hn | hn
    · exact Nat.lt_succ_of_lt (hs.known n hn)
    · obtain ⟨e, -, -, -, hn⟩ := mem_replay.mp hn
      rw [hn]
      exact Nat.lt_succ_self _
  · intro w hw l hl
    simp only [pipeline, ← List.append_assoc]
    rcases List.mem_append.mp hw with hw | hw
    · rw [lastOp_append_none]
      · exact (hs.agrees w hw l hl).congr rfl
      · intro n hn ht
        obtain ⟨e, -, -, -, hn⟩ := mem_replay.mp hn
        have hid : n.watcher = w.id := congrArg Prod.fst ht
        have hlt := hs.fresh w hw
        rw [hn] at hid
        simp only at hid
        omega
    · rw [List.mem_singleton.mp hw] at hl ⊢
      exact (replay_agrees hs ⟨s.nextId, key⟩ rfl hl).congr rfl

/-- A watcher that goes takes nothing from the others. -/
theorem unsubscribe_tracked {s t : System} {id : Nat} (hs : Tracked s)
    (ht : step s (.unsubscribe id) = some t) : Tracked t := by
  simp only [step, Option.ite_none_right_eq_some, Option.some.injEq] at ht
  obtain ⟨hid, rfl⟩ := ht
  have hmem : ∀ w ∈ (unsubscribe s.bucket id).watchers, w ∈ s.bucket.watchers ∧ w.id ≠ id := by
    intro w hw
    simpa [unsubscribe] using hw
  constructor
  · intro w hw
    exact hs.fresh w (hmem w hw).1
  · intro w hw hin
    rcases List.mem_cons.mp hin with hin | hin
    · exact (hmem w hw).2 hin
    · exact hs.active w (hmem w hw).1 hin
  · intro i hi
    rcases List.mem_cons.mp hi with rfl | hi
    · exact hid
    · exact hs.retired i hi
  · exact hs.known
  · intro w hw key hkey
    exact (hs.agrees w (hmem w hw).1 key hkey).congr rfl

theorem tick_tracked {s t : System} {d : Nat} (hs : Tracked s)
    (ht : step s (.tick d) = some t) : Tracked t := by
  cases ht
  exact ⟨hs.fresh, hs.active, hs.retired, hs.known,
    fun w hw key hkey => (hs.agrees w hw key hkey).later (Nat.le_add_right _ _)⟩

/-- A step that leaves the bucket alone and keeps the last call of every
watcher and key keeps the invariant. -/
theorem Tracked.moved {s t : System} (hs : Tracked s) (hb : t.bucket = s.bucket)
    (hnow : t.now = s.now) (hnext : t.nextId = s.nextId) (hin : t.inactive = s.inactive)
    (hmem : ∀ n ∈ pipeline t, n ∈ pipeline s)
    (hlast : ∀ w ∈ s.bucket.watchers, ∀ key,
      lastOp (pipeline t) w.id key = lastOp (pipeline s) w.id key) : Tracked t := by
  constructor
  · rw [hb, hnext]; exact hs.fresh
  · rw [hb, hin]; exact hs.active
  · rw [hin, hnext]; exact hs.retired
  · intro n hn
    rw [hnext]
    exact hs.known n (hmem n hn)
  · rw [hb, hnow]
    intro w hw key hkey
    rw [hlast w hw key]
    exact hs.agrees w hw key hkey

/-- A notice that is the oldest of its watcher and key may start its handler. -/
theorem spawn_tracked {s t : System} {n : Nat} (hs : Tracked s)
    (hfirst : First target s.due n) (ht : step s (.spawn n) = some t) : Tracked t := by
  obtain ⟨x, hx, rfl⟩ := Option.map_eq_some_iff.mp ht
  have herase : ∀ y ∈ s.due.eraseIdx n, y ∈ s.due := fun y hy => List.mem_of_mem_eraseIdx hy
  by_cases hin : x.watcher ∈ s.inactive
  · simp only [hin, if_true]
    refine hs.moved rfl rfl rfl rfl ?_ ?_
    · intro y hy
      simp only [pipeline, List.mem_append] at hy ⊢
      exact hy.imp id (herase y)
    · intro w hw key
      have hp : (fun m : Notice => decide (target m = (w.id, key))) x = false := by
        have hne : x.watcher ≠ w.id := fun h => hs.active w hw (h ▸ hin)
        simp [target, hne]
      simp only [lastOp, pipeline, List.filter_append]
      rw [OrderedMoves.filter_eraseIdx _ hx hp]
  · simp only [hin, if_false]
    refine hs.moved rfl rfl rfl rfl ?_ ?_
    · intro y hy
      simp only [pipeline, List.mem_append, List.mem_singleton] at hy ⊢
      rcases hy with (hy | hy | rfl) | hy
      · exact .inl (.inl hy)
      · exact .inl (.inr hy)
      · exact .inr (List.mem_of_getElem? hx)
      · exact .inr (herase y hy)
    · intro w hw key
      have h := OrderedMoves.filter_move target (w.id, key) (s.seen ++ s.spawned) hx hfirst
      simp only [lastOp, pipeline, ← List.append_assoc] at h ⊢
      rw [h]

/-- A handler that is the oldest of its watcher and key may tell it. -/
theorem deliver_tracked {s t : System} {n : Nat} (hs : Tracked s)
    (hfirst : First target s.spawned n) (ht : step s (.deliver n) = some t) : Tracked t := by
  obtain ⟨x, hx, rfl⟩ := Option.map_eq_some_iff.mp ht
  refine hs.moved rfl rfl rfl rfl ?_ ?_
  · intro y hy
    simp only [pipeline, List.mem_append, List.mem_singleton] at hy ⊢
    rcases hy with ((hy | rfl) | hy) | hy
    · exact .inl (.inl hy)
    · exact .inl (.inr (List.mem_of_getElem? hx))
    · exact .inl (.inr (List.mem_of_mem_eraseIdx hy))
    · exact .inr hy
  · intro w hw key
    have h := OrderedMoves.filter_move target (w.id, key) s.seen hx hfirst
    simp only [lastOp, pipeline, List.filter_append] at h ⊢
    rw [h]

/-- Each step in order leaves every watcher with what the bucket says. -/
theorem step_tracked {s t : System} {a : Action} (hs : Tracked s) (hok : InOrder s a)
    (ht : step s a = some t) : Tracked t := by
  cases a with
  | kvPut key value => exact kvPut_tracked hs ht
  | kvDelete key => exact kvDelete_tracked hs ht
  | kvWatch key => exact kvWatch_tracked hs ht
  | unsubscribe id => exact unsubscribe_tracked hs ht
  | expireTTL clock => exact expireTTL_tracked hs ht
  | tick d => exact tick_tracked hs ht
  | spawn n => exact spawn_tracked hs hok ht
  | deliver n => exact deliver_tracked hs hok ht

/-- In every run whose handler calls for one watcher and one key are started
and run in order, the watchers that have nothing left to run agree with the
bucket. Calls for different watchers or keys may overtake each other. -/
theorem ordered_runs_consistent (ttl : Nat) (entries : GoMap String Entry) (as : List Action)
    (t : System) (hrun : Runs.run step (initial ttl entries) as = some t)
    (hok : Runs.Meets step InOrder (initial ttl entries) as) : Consistent t :=
  (Runs.run_invariant (fun _ _ _ hs ha ht => step_tracked hs ha ht)
    (initial_tracked ttl entries) hok hrun).consistent

/-- Two puts, shown in order, with a second watcher of another key overtaking. -/
def orderedSchedule : List Action :=
  [.kvWatch "", .kvWatch "b", .kvPut "a" [1], .kvPut "b" [2], .kvPut "a" [3],
    .spawn 2, .spawn 0, .spawn 0, .spawn 0, .deliver 0, .deliver 0, .deliver 0, .deliver 0]

theorem ordered_schedule_consistent :
    ∃ t, Runs.run step (initial 0 ∅) orderedSchedule = some t ∧ t.seen.length = 4 ∧
      Consistent t := by
  have hok : Runs.Meets step InOrder (initial 0 ∅) orderedSchedule := by decide
  cases hrun : Runs.run step (initial 0 ∅) orderedSchedule with
  | none => exact absurd (congrArg Option.isSome hrun) (by decide)
  | some t =>
    refine ⟨t, rfl, ?_, ordered_runs_consistent 0 ∅ orderedSchedule t hrun hok⟩
    have hlen : (Runs.run step (initial 0 ∅) orderedSchedule).map (·.seen.length) = some 4 := by
      decide
    simpa [hrun] using hlen

/-- The second of two puts is shown before the first. -/
def overtakingSchedule : List Action :=
  [.kvWatch "", .kvPut "a" [1], .kvPut "a" [2], .spawn 0, .spawn 0, .deliver 1, .deliver 0]

/-- The scheduler is free to run the later handler call first: the watcher then
keeps the overwritten value although no call is left to run. -/
theorem watch_not_consistent :
    ¬ ∀ (ttl : Nat) (entries : GoMap String Entry) (as : List Action) (t : System),
      Runs.run step (initial ttl entries) as = some t → Consistent t := by
  intro h
  cases hrun : Runs.run step (initial 0 ∅) overtakingSchedule with
  | none => exact absurd (congrArg Option.isSome hrun) (by decide)
  | some t =>
    have hstale : (Runs.run step (initial 0 ∅) overtakingSchedule).map (fun t =>
        (t.bucket.watchers, t.due ++ t.spawned, lastOp t.seen 0 "a",
          (t.bucket.entries.lookup "a").map Entry.value)) =
        some ([⟨0, ""⟩], [], some (.put [1]), some [2]) := by decide
    rw [hrun, Option.map_some, Option.some.injEq] at hstale
    simp only [Prod.mk.injEq] at hstale
    obtain ⟨hw, hquiet, hlast, hcur⟩ := hstale
    have hagrees :=
      h 0 ∅ overtakingSchedule t hrun ⟨0, ""⟩ (by simp [hw]) (by simp [hquiet]) "a" rfl
    rw [hlast] at hagrees
    exact absurd (hcur.symm.trans hagrees) (by decide)

end KvWatch
