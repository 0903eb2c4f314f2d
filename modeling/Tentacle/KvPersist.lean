import Tentacle.KvBucket
import Tentacle.Runs

/-!
# Saving a bucket to disk

A persistent bucket (one without a TTL) is saved by every `KVPut` and
`KVDelete` after the call has released the bucket's lock. `save` copies the
entries under the read lock, writes the copy to one temporary file shared by
all savers, and renames that file over the bucket file; the three are separate
steps of each call, and several calls may be between any two of them. The
files hold snapshots: `encoding/json` is taken to invert itself on maps from
strings to bytes, and the file operations succeed, except that a rename finds
no temporary file when another call has renamed it away.
-/

namespace KvPersist

open GoValues KvBucket

/-- `kvSnapshot`: the values on disk, without revisions or expiry. -/
abbrev Snapshot := GoMap String Bytes

/-- The loop of `save` under the read lock. -/
def snapshot (b : Bucket) (now : Nat) : Snapshot :=
  b.entries.entries.foldl (fun snap e =>
    match e.2.expiresAt with
    | none => snap.insert e.1 e.2.value
    | some t => if now < t then snap.insert e.1 e.2.value else snap) ∅

/-- `load` on the empty bucket that `KVCreate` has just made. -/
def load (file : Option Snapshot) : Bucket :=
  match file with
  | none => ⟨0, ∅, 0, []⟩
  | some snap =>
    snap.entries.foldl (fun b e =>
      { b with
        revision := b.revision + 1
        entries := b.entries.insert e.1 ⟨e.2, b.revision + 1, none⟩ }) ⟨0, ∅, 0, []⟩

/-- How far a `KVPut` or `KVDelete` has got after releasing the lock. -/
inductive Call where
  | committed : Call
  | snapped : Snapshot → Call
  | written : Call

structure System where
  bucket : Bucket
  tmp : Option Snapshot
  file : Option Snapshot
  calls : List Call

inductive Action where
  | kvPut : (clock : Nat) → String → Bytes → Action
  | kvDelete : String → Action
  | snapshot : (clock : Nat) → (call : Nat) → Action
  | writeFile : (call : Nat) → Action
  | rename : (call : Nat) → Action
  deriving DecidableEq, Repr

def step (s : System) : Action → Option System
  | .kvPut clock key value =>
    some { s with
      bucket := kvPut s.bucket clock key value
      calls := s.calls ++ [.committed] }
  | .kvDelete key =>
    some { s with
      bucket := kvDelete s.bucket key
      calls := s.calls ++ [.committed] }
  | .snapshot clock i =>
    match s.calls[i]? with
    | some .committed => some { s with calls := s.calls.set i (.snapped (snapshot s.bucket clock)) }
    | _ => none
  | .writeFile i =>
    match s.calls[i]? with
    | some (.snapped snap) => some { s with tmp := some snap, calls := s.calls.set i .written }
    | _ => none
  | .rename i =>
    match s.calls[i]? with
    | some .written =>
      some { s with
        tmp := none
        file := s.tmp.or s.file
        calls := s.calls.eraseIdx i }
    | _ => none

/-- The bus starts on whatever an earlier run left in the bucket file. -/
def initial (tmp file : Option Snapshot) : System := ⟨load file, tmp, file, []⟩

/-- A restart would find the value of every key as it is in memory. -/
def Restores (file : Option Snapshot) (b : Bucket) : Prop :=
  ∀ key, ((load file).entries.lookup key).map Entry.value =
    (b.entries.lookup key).map Entry.value

/-- With no call in progress the bucket file holds the entries in memory. -/
def Persisted (s : System) : Prop := s.calls = [] → Restores s.file s.bucket

/-- A save copies the entries only while no other save is under way, from its
own copy to its rename. -/
def Exclusive (s : System) : Action → Prop
  | .snapshot _ _ => ∀ c ∈ s.calls, c = .committed
  | _ => True

instance committed.decidable (c : Call) : Decidable (c = .committed) :=
  match c with
  | .committed => isTrue rfl
  | .snapped _ => isFalse nofun
  | .written => isFalse nofun

instance Exclusive.decidable (s : System) : (a : Action) → Decidable (Exclusive s a)
  | .snapshot _ _ => inferInstanceAs (Decidable (∀ c ∈ s.calls, c = .committed))
  | .kvPut _ _ _ | .kvDelete _ | .writeFile _ | .rename _ => isTrue trivial

/-- A loop over a map that stores each listed entry under its own key: read
back at one key, it holds the listed entry, or what was there before. -/
theorem foldl_store {B V W : Type} (f : B → (Sigma fun _ : String => V) → B)
    (read : B → Option W) (g : V → W) (key : String)
    (l : List (Sigma fun _ : String => V)) (hl : l.NodupKeys)
    (hself : ∀ b, ∀ e ∈ l, e.1 = key → read (f b e) = some (g e.2))
    (hother : ∀ b, ∀ e ∈ l, e.1 ≠ key → read (f b e) = read b) (b : B) :
    read (l.foldl f b) = ((l.dlookup key).map g).or (read b) := by
  induction l generalizing b with
  | nil => simp
  | cons e l ih =>
    obtain ⟨k, v⟩ := e
    obtain ⟨hk, hl⟩ := List.nodupKeys_cons.mp hl
    rw [List.foldl_cons, ih hl (fun b e he => hself b e (List.mem_cons_of_mem _ he))
      (fun b e he => hother b e (List.mem_cons_of_mem _ he))]
    by_cases h : k = key
    · subst h
      rw [List.dlookup_eq_none.mpr hk, hself b ⟨k, v⟩ List.mem_cons_self rfl]
      simp
    · rw [hother b ⟨k, v⟩ List.mem_cons_self h, List.dlookup_cons_ne _ _ (Ne.symm h)]

/-- A value that is loaded is the one of the file. -/
theorem load_value (file : Option Snapshot) (key : String) :
    ((load file).entries.lookup key).map Entry.value = file.bind (·.lookup key) := by
  cases file with
  | none => simp [load]
  | some snap =>
    have h := foldl_store (fun (b : Bucket) (e : Sigma fun _ : String => Bytes) =>
      { b with
        revision := b.revision + 1
        entries := b.entries.insert e.1 ⟨e.2, b.revision + 1, none⟩ })
      (fun b => (b.entries.lookup key).map Entry.value) id key snap.entries snap.nodupKeys
      (by rintro b ⟨k, v⟩ - rfl; simp)
      (by rintro b ⟨k, v⟩ - hk; simp [AList.lookup_insert_ne (Ne.symm hk)]) ⟨0, ∅, 0, []⟩
    simpa [load, AList.lookup] using h

/-- Nothing in the bucket expires: it has no TTL and was loaded without one. -/
def Permanent (b : Bucket) : Prop :=
  b.ttl = 0 ∧ ∀ key e, b.entries.lookup key = some e → e.expiresAt = none

/-- Where nothing expires the snapshot holds every value. -/
theorem snapshot_lookup {b : Bucket} (hb : Permanent b) (now : Nat) (key : String) :
    (snapshot b now).lookup key = (b.entries.lookup key).map Entry.value := by
  have hnone : ∀ e ∈ b.entries.entries, e.2.expiresAt = none := by
    intro e he
    exact hb.2 e.1 e.2 ((mem_entries_iff b.entries e.1 e.2).mp he)
  have h := foldl_store (fun (snap : Snapshot) (e : Sigma fun _ : String => Entry) =>
    match e.2.expiresAt with
    | none => snap.insert e.1 e.2.value
    | some t => if now < t then snap.insert e.1 e.2.value else snap)
    (fun snap => snap.lookup key) Entry.value key b.entries.entries b.entries.nodupKeys
    (by rintro snap e he rfl; simp [hnone e he])
    (by intro snap e he hk; simp [hnone e he, AList.lookup_insert_ne (Ne.symm hk)]) ∅
  simpa [snapshot, AList.lookup] using h

theorem load_permanent (file : Option Snapshot) : Permanent (load file) := by
  cases file with
  | none => simp [load, Permanent]
  | some snap =>
    have general : ∀ (l : List (Sigma fun _ : String => Bytes)) (b : Bucket), Permanent b →
        Permanent (l.foldl (fun b e => { b with
          revision := b.revision + 1
          entries := b.entries.insert e.1 ⟨e.2, b.revision + 1, none⟩ }) b) := by
      intro l
      induction l with
      | nil => exact fun b hb => hb
      | cons e l ih =>
        intro b hb
        exact ih _ ⟨hb.1, forall_lookup_insert hb.2 rfl⟩
    exact general snap.entries ⟨0, ∅, 0, []⟩ (by simp [Permanent])

theorem kvPut_permanent {b : Bucket} (hb : Permanent b) (now : Nat) (key : String)
    (value : Bytes) : Permanent (kvPut b now key value) := by
  refine ⟨hb.1, forall_lookup_insert hb.2 ?_⟩
  simp [hb.1]

theorem kvDelete_permanent {b : Bucket} (hb : Permanent b) (key : String) :
    Permanent (kvDelete b key) :=
  ⟨hb.1, forall_lookup_erase hb.2 key⟩

/-- The copy a save took still is the content of the bucket. -/
def Holds (snap : Snapshot) (b : Bucket) : Prop :=
  ∀ key, snap.lookup key = (b.entries.lookup key).map Entry.value

theorem Holds.restores {snap : Snapshot} {b : Bucket} (h : Holds snap b) :
    Restores (some snap) b := by
  intro key
  rw [load_value]
  exact h key

/-- Every call but the one at `i` has yet to begin its save. -/
def Others (calls : List Call) (i : Nat) : Prop :=
  ∀ j c, j ≠ i → calls[j]? = some c → c = .committed

/-- Where the only save under way is. Its copy is compared with the bucket just
when no other call is in progress: another call has yet to save, and its save
will copy what is in the bucket then. -/
inductive Phase (s : System) : Prop where
  | idle : (∀ c ∈ s.calls, c = .committed) →
      (s.calls = [] → Restores s.file s.bucket) → Phase s
  | snapped (i : Nat) (snap : Snapshot) : s.calls[i]? = some (.snapped snap) →
      Others s.calls i → (s.calls.length = 1 → Holds snap s.bucket) → Phase s
  | written (i : Nat) (snap : Snapshot) : s.calls[i]? = some .written →
      Others s.calls i → s.tmp = some snap →
      (s.calls.length = 1 → Holds snap s.bucket) → Phase s

structure Saving (s : System) : Prop where
  permanent : Permanent s.bucket
  phase : Phase s

theorem initial_saving (tmp file : Option Snapshot) : Saving (initial tmp file) :=
  ⟨load_permanent file, .idle (by simp [initial]) (fun _ _ => rfl)⟩

/-- Only an idle bucket has no call in progress. -/
theorem Saving.persisted {s : System} (h : Saving s) : Persisted s := by
  intro hnil
  cases h.phase with
  | idle _ hfile => exact hfile hnil
  | snapped i snap hi => simp [hnil] at hi
  | written i snap hi => simp [hnil] at hi

theorem getElem?_append_committed {calls : List Call} {i : Nat} {c : Call}
    (h : calls[i]? = some c) : (calls ++ [.committed])[i]? = some c :=
  getElem?_snoc_iff.mpr (.inl h)

theorem Others.append {calls : List Call} {i : Nat} (h : Others calls i) :
    Others (calls ++ [.committed]) i := by
  intro j c hj hc
  obtain hc | ⟨-, hc⟩ := getElem?_snoc_iff.mp hc
  · exact h j c hj hc
  · exact hc

theorem Others.set {calls : List Call} {i : Nat} (h : Others calls i) (c : Call) :
    Others (calls.set i c) i := by
  intro j d hj hd
  rw [List.getElem?_set_ne (Ne.symm hj)] at hd
  exact h j d hj hd

/-- A new call makes the comparison of a running save pointless: it is not the
last save, and the file need not match before the new call has saved. -/
theorem commit_phase {s : System} (h : Phase s) (b : Bucket) :
    Phase { s with bucket := b, calls := s.calls ++ [.committed] } := by
  have hlen : ∀ (i : Nat) (c : Call), s.calls[i]? = some c →
      (s.calls ++ [Call.committed]).length ≠ 1 := by
    intro i c hi hlen
    obtain ⟨hi, -⟩ := List.getElem?_eq_some_iff.mp hi
    simp only [List.length_append, List.length_singleton] at hlen
    omega
  cases h with
  | idle hall _ =>
    refine .idle ?_ (by simp)
    intro c hc
    rcases List.mem_append.mp hc with hc | hc
    · exact hall c hc
    · exact List.mem_singleton.mp hc
  | snapped i snap hi hothers _ =>
    exact .snapped i snap (getElem?_append_committed hi) hothers.append
      (fun h => absurd h (hlen i _ hi))
  | written i snap hi hothers htmp _ =>
    exact .written i snap (getElem?_append_committed hi) hothers.append htmp
      (fun h => absurd h (hlen i _ hi))

theorem kvPut_saving {s t : System} {clock : Nat} {key : String} {value : Bytes} (hs : Saving s)
    (ht : step s (.kvPut clock key value) = some t) : Saving t := by
  cases ht
  exact ⟨kvPut_permanent hs.permanent _ _ _, commit_phase hs.phase _⟩

theorem kvDelete_saving {s t : System} {key : String} (hs : Saving s)
    (ht : step s (.kvDelete key) = some t) : Saving t := by
  cases ht
  exact ⟨kvDelete_permanent hs.permanent _, commit_phase hs.phase _⟩

/-- A snapshot that no other save is between holds the bucket. -/
theorem snapshot_saving {s t : System} {clock i : Nat} (hs : Saving s)
    (hok : ∀ c ∈ s.calls, c = .committed) (ht : step s (.snapshot clock i) = some t) :
    Saving t := by
  simp only [step] at ht
  split at ht
  · rename_i hi
    cases ht
    have hothers : Others s.calls i := fun j c _ hc => hok c (List.mem_of_getElem? hc)
    have hlt := (List.getElem?_eq_some_iff.mp hi).1
    exact ⟨hs.permanent, .snapped i (snapshot s.bucket clock) (by simp [hlt]) (hothers.set _)
      (fun _ => snapshot_lookup hs.permanent clock)⟩
  · cases ht

/-- The temporary file gets the snapshot of its own call. -/
theorem writeFile_saving {s t : System} {i : Nat} (hs : Saving s)
    (ht : step s (.writeFile i) = some t) : Saving t := by
  simp only [step] at ht
  split at ht
  · rename_i snap hi
    cases ht
    have hlt := (List.getElem?_eq_some_iff.mp hi).1
    cases hs.phase with
    | idle hall _ => exact absurd (hall _ (List.mem_of_getElem? hi)) nofun
    | snapped j snap' hj hothers hold =>
      have hij : i = j := by
        by_contra hne
        exact absurd (hothers i _ hne hi) nofun
      subst hij
      rw [hi, Option.some.injEq, Call.snapped.injEq] at hj
      exact ⟨hs.permanent, .written i snap (by simp [hlt]) (hothers.set _) rfl
        (fun hlen => hj ▸ hold (by simpa using hlen))⟩
    | written j snap' hj hothers _ _ =>
      have hij : i ≠ j := by
        rintro rfl
        simp [hj] at hi
      exact absurd (hothers i _ hij hi) nofun
  · cases ht

/-- The rename puts it in place of the file. -/
theorem rename_saving {s t : System} {i : Nat} (hs : Saving s)
    (ht : step s (.rename i) = some t) : Saving t := by
  simp only [step] at ht
  split at ht
  · rename_i hi
    cases ht
    cases hs.phase with
    | idle hall _ => exact absurd (hall _ (List.mem_of_getElem? hi)) nofun
    | snapped j snap hj hothers _ =>
      have hij : i ≠ j := by
        rintro rfl
        simp [hj] at hi
      exact absurd (hothers i _ hij hi) nofun
    | written j snap hj hothers htmp hold =>
      have hij : i = j := by
        by_contra hne
        exact absurd (hothers i _ hne hi) nofun
      subst hij
      have hlt := (List.getElem?_eq_some_iff.mp hi).1
      refine ⟨hs.permanent, .idle ?_ ?_⟩
      · intro c hc
        obtain ⟨j, hj, hc⟩ := List.mem_eraseIdx_iff_getElem?.mp hc
        exact hothers j c hj hc
      · intro hnil
        have hlen : s.calls.length = 1 := by
          have h := congrArg List.length hnil
          simp only [List.length_eraseIdx, hlt, if_true, List.length_nil] at h
          omega
        simp only [htmp, Option.some_or]
        exact (hold hlen).restores
  · cases ht

/-- Each step of exclusive saves keeps what the file is to hold. -/
theorem step_saving {s t : System} {a : Action} (hs : Saving s) (hok : Exclusive s a)
    (ht : step s a = some t) : Saving t := by
  cases a with
  | kvPut clock key value => exact kvPut_saving hs ht
  | kvDelete key => exact kvDelete_saving hs ht
  | snapshot clock i => exact snapshot_saving hs hok ht
  | writeFile i => exact writeFile_saving hs ht
  | rename i => exact rename_saving hs ht

/-- In every run whose saves do not overlap, however the rest of the calls is
interleaved, the bucket file is up to date whenever no call is in progress. -/
theorem exclusive_runs_persisted (tmp file : Option Snapshot) (as : List Action) (t : System)
    (hrun : Runs.run step (initial tmp file) as = some t)
    (hok : Runs.Meets step Exclusive (initial tmp file) as) : Persisted t :=
  (Runs.run_invariant (fun _ _ _ hs ha ht => step_saving hs ha ht)
    (initial_saving tmp file) hok hrun).persisted

/-- Two calls overlap, their saves do not: the first to commit saves last. -/
def exclusiveSchedule : List Action :=
  [.kvPut 0 "a" [1], .kvPut 0 "a" [2], .snapshot 0 1, .writeFile 1, .rename 1,
    .snapshot 0 0, .writeFile 0, .rename 0]

theorem exclusive_schedule_persisted :
    ∃ t, Runs.run step (initial none none) exclusiveSchedule = some t ∧ t.calls = [] ∧
      Persisted t := by
  have hok : Runs.Meets step Exclusive (initial none none) exclusiveSchedule := by decide
  cases hrun : Runs.run step (initial none none) exclusiveSchedule with
  | none => exact absurd (congrArg Option.isSome hrun) (by decide)
  | some t =>
    refine ⟨t, rfl, ?_, exclusive_runs_persisted none none exclusiveSchedule t hrun hok⟩
    have hlen : (Runs.run step (initial none none) exclusiveSchedule).map (·.calls.length) =
        some 0 := by decide
    rw [hrun, Option.map_some, Option.some.injEq] at hlen
    exact List.eq_nil_of_length_eq_zero hlen

/-- The save of the first put is overtaken by the whole save of the second. -/
def overlappingSchedule : List Action :=
  [.kvPut 0 "a" [1], .snapshot 0 0, .kvPut 0 "a" [2], .snapshot 0 1, .writeFile 1, .rename 1,
    .writeFile 0, .rename 0]

/-- Overlapping saves can leave the older copy on disk for good: nothing is in
progress and a restart brings the overwritten value back. -/
theorem save_not_persisted :
    ¬ ∀ (tmp file : Option Snapshot) (as : List Action) (t : System),
      Runs.run step (initial tmp file) as = some t → Persisted t := by
  intro h
  cases hrun : Runs.run step (initial none none) overlappingSchedule with
  | none => exact absurd (congrArg Option.isSome hrun) (by decide)
  | some t =>
    have hstale : (Runs.run step (initial none none) overlappingSchedule).map (fun t =>
        (t.calls.length, ((load t.file).entries.lookup "a").map Entry.value,
          (t.bucket.entries.lookup "a").map Entry.value)) =
        some (0, some [1], some [2]) := by decide
    rw [hrun, Option.map_some, Option.some.injEq] at hstale
    simp only [Prod.mk.injEq] at hstale
    obtain ⟨hlen, hfile, hcur⟩ := hstale
    have hrestores :=
      h none none overlappingSchedule t hrun (List.eq_nil_of_length_eq_zero hlen) "a"
    rw [hfile, hcur] at hrestores
    exact absurd hrestores (by decide)

end KvPersist
