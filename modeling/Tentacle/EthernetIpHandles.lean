import Tentacle.EthernetIpPolledSet

/-!
# Tag handles

A variable is read through a handle of the PLC library. A poll creates the handles that are missing,
and a read that fails closes the handle, so that the next poll creates another one. After three
failures to create it a handle is not tried again: nothing but a handle takes the failures back,
and a new subscription to the tag does not either.
-/

namespace EthernetIpHandles

open GoValues EthernetIpScanner

variable {F64 : Type}

def maxCreateRetries : Nat := 3

/-- What a variable has of the library: whether there is a handle, and the failures to create it. -/
structure TagState where
  tagHandle : Bool := false
  createFails : Nat := 0
  deriving DecidableEq, Repr

/-- A connection, with the handles of its variables beside the rest of them. -/
structure Connection (F64 : Type) where
  device : DeviceConnection F64
  tags : GoMap String TagState := ∅

/-- A variable that is new has no handle. -/
def addTag (tags : GoMap String TagState) (tagName : String) : GoMap String TagState :=
  match tags.lookup tagName with
  | none => tags.insert tagName {}
  | some _ => tags

def subscribe (req : SubscribeRequest F64) (c : Connection F64) : Connection F64 where
  device := subscribeConnection req c.device
  tags := req.tags.foldl addTag c.tags

/-! ## Polls -/

/-- The read of a tag: it fails, or its bytes cannot be read as a value, or there is a value. -/
inductive ReadOutcome (F64 : Type) where
  | readError
  | decodeError
  | value (value : Json F64) (cipType : String)

/-- What the library answers during a poll. -/
structure Poll (F64 : Type) where
  createTag : String → Bool
  readTag : String → ReadOutcome F64
  now : Int

/-- The variables without a handle that are tried. -/
def needsHandle (c : Connection F64) : List String :=
  c.tags.keys.filter fun tagName => (c.tags.lookup tagName).any fun t =>
    !t.tagHandle && t.createFails < maxCreateRetries

def withHandle (c : Connection F64) : List String :=
  c.tags.keys.filter fun tagName => (c.tags.lookup tagName).any (·.tagHandle)

def modify (tags : GoMap String TagState) (tagName : String) (f : TagState → TagState) :
    GoMap String TagState :=
  match tags.lookup tagName with
  | none => tags
  | some t => tags.insert tagName (f t)

def markBad (conn : DeviceConnection F64) (tagName : String) : DeviceConnection F64 :=
  match conn.vars.lookup tagName with
  | none => conn
  | some v => { conn with vars := conn.vars.insert tagName { v with quality := "bad" } }

def afterCreate (created : Bool) (t : TagState) : TagState :=
  if created then { tagHandle := true, createFails := 0 }
  else { t with createFails := t.createFails + 1 }

/-- The body of the loop over the variables that need a handle. -/
def createHandle (poll : Poll F64) (c : Connection F64) (tagName : String) : Connection F64 where
  device := if poll.createTag tagName then c.device else markBad c.device tagName
  tags := modify c.tags tagName (afterCreate (poll.createTag tagName))

/-- The handle is closed when the read fails. -/
def afterRead (outcome : ReadOutcome F64) (t : TagState) : TagState :=
  match outcome with
  | .readError => { tagHandle := false, createFails := 0 }
  | _ => t

/-- The read of one tag, and the results with it. -/
def readTag (poll : Poll F64) (s : Connection F64 × List (TagResult F64)) (tagName : String) :
    Connection F64 × List (TagResult F64) :=
  let c : Connection F64 :=
    { device := match poll.readTag tagName with
        | .value _ _ => s.1.device
        | _ => markBad s.1.device tagName
      tags := modify s.1.tags tagName (afterRead (poll.readTag tagName)) }
  match poll.readTag tagName with
  | .value value cipType => (c, s.2 ++ [⟨tagName, value, cipType⟩])
  | _ => (c, s.2)

section Polls

variable [GoFloat64 F64] (finite : F64 → Bool)

/-- A whole poll. The reads go on side by side, each with a tag of its own, so their order does not
matter to the handles. -/
def pollOnce (poll : Poll F64) (c : Connection F64) : Connection F64 :=
  let created := (needsHandle c).foldl (createHandle poll) c
  let work := withHandle c ++ (needsHandle c).filter poll.createTag
  let read := work.foldl (readTag poll) (created, [])
  { read.1 with device := (EthernetIpScanner.pollOnce finite poll.now read.1.device read.2).1 }

end Polls

/-! ## Runs -/

inductive Action (F64 : Type) where
  | subscribe (req : SubscribeRequest F64)
  | poll (poll : Poll F64)

/-- A connection, and the attempts to create a handle that were made: the tag and the answer. -/
structure System (F64 : Type) where
  conn : Connection F64
  log : List (String × Bool) := []

/-- A connection as the request finds it that creates it. -/
def opened (req : SubscribeRequest F64) : System F64 where
  conn := { device := newConnection req }

def step [GoFloat64 F64] (finite : F64 → Bool) (s : System F64) : Action F64 → Option (System F64)
  | .subscribe req => some { s with conn := if req.complete then subscribe req s.conn else s.conn }
  | .poll poll => some {
      conn := pollOnce finite poll s.conn
      log := s.log ++ (needsHandle s.conn).map fun tagName => (tagName, poll.createTag tagName) }

/-- The attempts for a tag that have failed since the last one that did not. -/
def failsInARow (tagName : String) (log : List (String × Bool)) : Nat :=
  log.foldl (fun n e => if e.1 = tagName then if e.2 then 0 else n + 1 else n) 0

/-! ## What happens to one variable -/

/-- A change at one key leaves the states of the others. -/
theorem lookup_modify (tags : GoMap String TagState) (k tagName : String)
    (f : TagState → TagState) : (modify tags k f).lookup tagName =
      if tagName = k then (tags.lookup tagName).map f else tags.lookup tagName := by
  rw [modify]
  by_cases hk : tagName = k
  · subst hk
    rw [if_pos rfl]
    cases htag : tags.lookup tagName with
    | none => exact htag
    | some t => exact AList.lookup_insert _
  · rw [if_neg hk]
    cases tags.lookup k with
    | none => rfl
    | some t => exact AList.lookup_insert_ne hk

/-- A loop that goes over each variable once does its part to each of them. -/
theorem lookup_foldl_modify (f : String → TagState → TagState) {names : List String}
    (hnodup : names.Nodup) (tags : GoMap String TagState) (tagName : String) :
    (names.foldl (fun tags k => modify tags k (f k)) tags).lookup tagName =
      if tagName ∈ names then (tags.lookup tagName).map (f tagName) else tags.lookup tagName := by
  induction names generalizing tags with
  | nil => rfl
  | cons k names ih =>
    obtain ⟨hk, hrest⟩ := List.nodup_cons.mp hnodup
    rw [List.foldl_cons, ih hrest, lookup_modify]
    by_cases htag : tagName = k
    · subst htag
      rw [if_neg hk, if_pos rfl, if_pos List.mem_cons_self]
    · rw [if_neg htag]
      simp only [List.mem_cons, htag, false_or]

theorem tags_foldl_createHandle (poll : Poll F64) (names : List String) (c : Connection F64) :
    (names.foldl (createHandle poll) c).tags =
      names.foldl (fun tags k => modify tags k (afterCreate (poll.createTag k))) c.tags := by
  induction names generalizing c with
  | nil => rfl
  | cons k names ih => exact ih _

theorem tags_readTag (poll : Poll F64) (s : Connection F64 × List (TagResult F64))
    (tagName : String) : (readTag poll s tagName).1.tags =
      modify s.1.tags tagName (afterRead (poll.readTag tagName)) := by
  rw [readTag]
  cases poll.readTag tagName <;> rfl

theorem tags_foldl_readTag (poll : Poll F64) (names : List String)
    (s : Connection F64 × List (TagResult F64)) :
    (names.foldl (readTag poll) s).1.tags =
      names.foldl (fun tags k => modify tags k (afterRead (poll.readTag k))) s.1.tags := by
  induction names generalizing s with
  | nil => rfl
  | cons k names ih => rw [List.foldl_cons, ih, tags_readTag, List.foldl_cons]

/-- A handle is tried for a variable without one that has retries left. -/
theorem mem_needsHandle_iff {c : Connection F64} {tagName : String} :
    tagName ∈ needsHandle c ↔ ∃ t, c.tags.lookup tagName = some t ∧ t.tagHandle = false ∧
      t.createFails < maxCreateRetries := by
  rw [needsHandle, List.mem_filter, Option.any_eq_true]
  simp only [Bool.and_eq_true, Bool.not_eq_true', decide_eq_true_eq]
  constructor
  · exact And.right
  · rintro ⟨t, ht, hrest⟩
    exact ⟨AList.lookup_isSome.mp (by rw [ht]; rfl), t, ht, hrest⟩

theorem mem_withHandle_iff {c : Connection F64} {tagName : String} :
    tagName ∈ withHandle c ↔ ∃ t, c.tags.lookup tagName = some t ∧ t.tagHandle = true := by
  rw [withHandle, List.mem_filter, Option.any_eq_true]
  constructor
  · exact And.right
  · rintro ⟨t, ht, hrest⟩
    exact ⟨AList.lookup_isSome.mp (by rw [ht]; rfl), t, ht, hrest⟩

theorem nodup_needsHandle (c : Connection F64) : (needsHandle c).Nodup := c.tags.keys_nodup.filter _

/-- In one poll no variable is handled twice. -/
theorem nodup_work (poll : Poll F64) (c : Connection F64) :
    (withHandle c ++ (needsHandle c).filter poll.createTag).Nodup := by
  rw [List.nodup_append']
  refine ⟨c.tags.keys_nodup.filter _, (nodup_needsHandle c).filter _, ?_⟩
  intro tagName hwith hneeds
  obtain ⟨t, ht, hhandle⟩ := mem_withHandle_iff.mp hwith
  obtain ⟨t', ht', hnone, -⟩ := mem_needsHandle_iff.mp (List.mem_of_mem_filter hneeds)
  obtain rfl := Option.some.inj (ht.symm.trans ht')
  rw [hhandle] at hnone
  cases hnone

/-- What a poll makes of a variable: it creates a handle that is missing, unless it has failed too
often, and reads what has one. -/
def pollTag (poll : Poll F64) (tagName : String) (t : TagState) : TagState :=
  if t.tagHandle then afterRead (poll.readTag tagName) t
  else if t.createFails < maxCreateRetries then
    if poll.createTag tagName then afterRead (poll.readTag tagName) { tagHandle := true }
    else { t with createFails := t.createFails + 1 }
  else t

theorem createFails_afterRead {outcome : ReadOutcome F64} {t : TagState} (h : t.createFails = 0) :
    (afterRead outcome t).createFails = 0 := by
  cases outcome with
  | readError => rfl
  | decodeError => exact h
  | value _ _ => exact h

/-- A poll moves each variable by its own results alone. -/
theorem lookup_pollOnce [GoFloat64 F64] (finite : F64 → Bool) (poll : Poll F64)
    (c : Connection F64) (tagName : String) :
    (pollOnce finite poll c).tags.lookup tagName =
      (c.tags.lookup tagName).map (pollTag poll tagName) := by
  change (List.foldl (readTag poll) _ _).1.tags.lookup tagName = _
  rw [tags_foldl_readTag, lookup_foldl_modify _ (nodup_work poll c), tags_foldl_createHandle,
    lookup_foldl_modify _ (nodup_needsHandle c)]
  cases ht : c.tags.lookup tagName with
  | none => simp
  | some t =>
    have hneeds : tagName ∈ needsHandle c ↔
        t.tagHandle = false ∧ t.createFails < maxCreateRetries := by
      simp [mem_needsHandle_iff, ht]
    have hwith : tagName ∈ withHandle c ↔ t.tagHandle = true := by
      simp [mem_withHandle_iff, ht]
    simp only [List.mem_append, List.mem_filter, hneeds, hwith, Option.map_some]
    rw [pollTag]
    by_cases hhandle : t.tagHandle = true
    · simp [hhandle]
    · rw [Bool.not_eq_true] at hhandle
      by_cases hfails : t.createFails < maxCreateRetries
      · by_cases hcreate : poll.createTag tagName = true
        · simp [hhandle, hfails, hcreate, afterCreate]
        · simp [hhandle, hfails, hcreate, afterCreate]
      · simp [hhandle, hfails]

/-- A tag that is subscribed again keeps its state, and a new one starts from nothing. -/
theorem lookup_foldl_addTag (names : List String) (tags : GoMap String TagState)
    (tagName : String) : (names.foldl addTag tags).lookup tagName =
      (tags.lookup tagName).or (if tagName ∈ names then some {} else none) := by
  induction names generalizing tags with
  | nil => simp
  | cons k names ih =>
    rw [List.foldl_cons, ih, addTag]
    cases hk : tags.lookup k with
    | some t =>
      by_cases htag : tagName = k
      · subst htag
        simp [hk]
      · simp [htag]
    | none =>
      by_cases htag : tagName = k
      · subst htag
        simp [hk]
      · simp [AList.lookup_insert_ne htag, htag]

/-! ## The failures -/

theorem failsInARow_append (tagName : String) (log later : List (String × Bool)) :
    failsInARow tagName (log ++ later) =
      later.foldl (fun n e => if e.1 = tagName then if e.2 then 0 else n + 1 else n)
        (failsInARow tagName log) :=
  List.foldl_append

/-- The attempts of a poll, each for another tag. -/
theorem failsInARow_poll (createTag : String → Bool) (tagName : String) (names : List String)
    (hnodup : names.Nodup) (log : List (String × Bool)) :
    failsInARow tagName (log ++ names.map fun k => (k, createTag k)) =
      if tagName ∈ names then if createTag tagName then 0 else failsInARow tagName log + 1
      else failsInARow tagName log := by
  rw [failsInARow_append]
  generalize failsInARow tagName log = n
  induction names generalizing n with
  | nil => rfl
  | cons k names ih =>
    obtain ⟨hk, hrest⟩ := List.nodup_cons.mp hnodup
    rw [List.map_cons, List.foldl_cons, ih hrest]
    by_cases htag : k = tagName
    · subst htag
      simp [hk]
    · simp [htag, Ne.symm htag]

/-- The failures that a variable counts are those in a row; a variable that is not there yet has
none, and one with a handle neither. -/
structure Counted (s : System F64) : Prop where
  fails : ∀ tagName t, s.conn.tags.lookup tagName = some t →
    t.createFails = failsInARow tagName s.log
  handle : ∀ tagName t, s.conn.tags.lookup tagName = some t → t.tagHandle = true →
    t.createFails = 0
  unknown : ∀ tagName, s.conn.tags.lookup tagName = none → failsInARow tagName s.log = 0

theorem counted_opened (req : SubscribeRequest F64) : Counted (opened req) where
  fails := fun _ _ h => by cases h
  handle := fun _ _ h => by cases h
  unknown := fun _ _ => rfl

theorem Counted.subscribe {s : System F64} (h : Counted s) (req : SubscribeRequest F64) :
    Counted { s with conn := subscribe req s.conn } := by
  have hlookup := lookup_foldl_addTag req.tags s.conn.tags
  constructor
  · intro tagName t ht
    rw [EthernetIpHandles.subscribe, hlookup] at ht
    cases hold : s.conn.tags.lookup tagName with
    | some t' =>
      rw [hold, Option.some_or] at ht
      exact h.fails tagName t (hold.trans ht)
    | none =>
      rw [hold, Option.none_or] at ht
      split at ht
      · cases ht
        exact (h.unknown tagName hold).symm
      · cases ht
  · intro tagName t ht hhandle
    rw [EthernetIpHandles.subscribe, hlookup] at ht
    cases hold : s.conn.tags.lookup tagName with
    | some t' =>
      rw [hold, Option.some_or] at ht
      exact h.handle tagName t (hold.trans ht) hhandle
    | none =>
      rw [hold, Option.none_or] at ht
      split at ht
      · cases ht
        rfl
      · cases ht
  · intro tagName hnone
    rw [EthernetIpHandles.subscribe, hlookup, Option.or_eq_none_iff] at hnone
    exact h.unknown tagName hnone.1

section Runs

variable [GoFloat64 F64] {finite : F64 → Bool}

/-- A poll adds one attempt and, where it failed, one failure. -/
theorem Counted.poll {s t : System F64} (h : Counted s) {poll : Poll F64}
    (ht : step finite s (.poll poll) = some t) : Counted t := by
  cases ht
  have hlookup := lookup_pollOnce finite poll s.conn
  have hlog := fun tagName =>
    failsInARow_poll poll.createTag tagName (needsHandle s.conn) (nodup_needsHandle s.conn) s.log
  constructor
  · intro tagName t ht
    rw [hlookup] at ht
    obtain ⟨t, hold, rfl⟩ := Option.map_eq_some_iff.mp ht
    have hfails := h.fails tagName t hold
    have hneeds : tagName ∈ needsHandle s.conn ↔
        t.tagHandle = false ∧ t.createFails < maxCreateRetries := by
      simp [mem_needsHandle_iff, hold]
    rw [hlog, pollTag]
    simp only [hneeds]
    by_cases hhandle : t.tagHandle = true
    · have hzero := h.handle tagName t hold hhandle
      simp only [hhandle, if_true, Bool.true_eq_false, false_and, if_false, ← hfails]
      rw [createFails_afterRead hzero, hzero]
    · rw [Bool.not_eq_true] at hhandle
      by_cases hmore : t.createFails < maxCreateRetries
      · by_cases hcreate : poll.createTag tagName = true
        · simp only [hhandle, hmore, hcreate, Bool.false_eq_true, if_true, if_false, and_self]
          exact createFails_afterRead rfl
        · simp [hhandle, hmore, hcreate, ← hfails]
      · simp [hhandle, hmore, ← hfails]
  · intro tagName t ht hhandle
    rw [hlookup] at ht
    obtain ⟨t, hold, rfl⟩ := Option.map_eq_some_iff.mp ht
    rw [pollTag] at hhandle ⊢
    split at hhandle
    case isTrue hold' =>
      rw [if_pos hold']
      exact createFails_afterRead (h.handle tagName t hold hold')
    case isFalse hnone =>
      rw [if_neg hnone]
      split at hhandle
      case isTrue hmore =>
        rw [if_pos hmore]
        split at hhandle
        case isTrue hcreate =>
          rw [if_pos hcreate]
          exact createFails_afterRead rfl
        case isFalse => exact absurd hhandle hnone
      case isFalse => exact absurd hhandle hnone
  · intro tagName hnone
    rw [hlookup, Option.map_eq_none_iff] at hnone
    rw [hlog, if_neg]
    · exact h.unknown tagName hnone
    · rw [mem_needsHandle_iff, hnone]
      rintro ⟨_, hsome, -⟩
      cases hsome

/-- The counts of the scanner are those of the run, step by step. -/
theorem step_counted {s t : System F64} {a : Action F64} (h : Counted s)
    (ht : step finite s a = some t) : Counted t := by
  cases a with
  | subscribe req =>
    cases ht
    split
    · exact h.subscribe req
    · exact h
  | poll poll => exact h.poll ht

/-! ## The variables of the scanner -/

omit [GoFloat64 F64] in
theorem mem_vars_markBad (conn : DeviceConnection F64) (k tagName : String) :
    tagName ∈ (markBad conn k).vars ↔ tagName ∈ conn.vars := by
  rw [markBad]
  cases hv : conn.vars.lookup k with
  | none => exact Iff.rfl
  | some v =>
    have hk : k ∈ conn.vars := AList.lookup_isSome.mp (by rw [hv]; rfl)
    rw [AList.mem_insert]
    exact ⟨fun h => h.elim (fun heq => heq ▸ hk) id, .inr⟩

omit [GoFloat64 F64] in
theorem mem_vars_createHandles (poll : Poll F64) (names : List String) (c : Connection F64)
    (tagName : String) :
    tagName ∈ (names.foldl (createHandle poll) c).device.vars ↔ tagName ∈ c.device.vars := by
  induction names generalizing c with
  | nil => exact Iff.rfl
  | cons k names ih =>
    rw [List.foldl_cons, ih, createHandle]
    split
    · exact Iff.rfl
    · exact mem_vars_markBad c.device k tagName

omit [GoFloat64 F64] in
theorem mem_vars_readTags (poll : Poll F64) (names : List String)
    (s : Connection F64 × List (TagResult F64)) (tagName : String) :
    tagName ∈ (names.foldl (readTag poll) s).1.device.vars ↔ tagName ∈ s.1.device.vars := by
  induction names generalizing s with
  | nil => exact Iff.rfl
  | cons k names ih =>
    rw [List.foldl_cons, ih, readTag]
    cases poll.readTag k with
    | readError => exact mem_vars_markBad s.1.device k tagName
    | decodeError => exact mem_vars_markBad s.1.device k tagName
    | value _ _ => exact Iff.rfl

/-- The variables that have a state here are those that the scanner has. -/
def SameVars (s : System F64) : Prop :=
  ∀ tagName, tagName ∈ s.conn.tags ↔ tagName ∈ s.conn.device.vars

/-- A step adds a state with each variable and takes none away. -/
theorem step_sameVars {s t : System F64} {a : Action F64} (h : SameVars s)
    (ht : step finite s a = some t) : SameVars t := by
  intro tagName
  cases a with
  | subscribe req =>
    cases ht
    split
    · rw [subscribe, EthernetIpPolledSet.mem_vars_subscribeConnection, ← h tagName,
        ← AList.lookup_isSome, lookup_foldl_addTag, ← AList.lookup_isSome, Option.isSome_or]
      by_cases htag : tagName ∈ req.tags
      · simp [htag]
      · simp [htag]
    · exact h tagName
  | poll poll =>
    cases ht
    have hvars : tagName ∈ (pollOnce finite poll s.conn).device.vars ↔
        tagName ∈ s.conn.device.vars := by
      rw [pollOnce, EthernetIpPolledSet.mem_vars_pollOnce, mem_vars_readTags,
        mem_vars_createHandles]
    rw [hvars, ← h tagName, ← AList.lookup_isSome, lookup_pollOnce, Option.isSome_map,
      AList.lookup_isSome]

/-- In every state that is reached the handles are those of the variables that the scanner polls. -/
theorem sameVars_of_run {req : SubscribeRequest F64} {as : List (Action F64)} {s : System F64}
    (hrun : Runs.run (step finite) (opened req) as = some s) : SameVars s := by
  refine Runs.run_preserves (fun _ _ _ => step_sameVars) ?_ hrun
  intro tagName
  exact ⟨fun h => absurd h (AList.notMem_empty _), fun h => absurd h (AList.notMem_empty _)⟩

/-! ## Variables that are given up -/

/-- A variable without a handle that is not tried any more. -/
def GivenUp (tagName : String) (s : System F64) : Prop :=
  ∃ t, s.conn.tags.lookup tagName = some t ∧ t.tagHandle = false ∧
    maxCreateRetries ≤ t.createFails

omit [GoFloat64 F64] in
theorem GivenUp.not_mem {tagName : String} {s : System F64} (h : GivenUp tagName s) :
    tagName ∉ needsHandle s.conn := by
  obtain ⟨t, ht, -, hfails⟩ := h
  rw [mem_needsHandle_iff]
  rintro ⟨t', ht', -, hmore⟩
  obtain rfl := Option.some.inj (ht.symm.trans ht')
  exact absurd hmore (Nat.not_lt_of_le hfails)

/-- Neither a poll nor a subscription takes the failures back. -/
theorem step_givenUp {tagName : String} {s t : System F64} {a : Action F64}
    (h : GivenUp tagName s) (ht : step finite s a = some t) : GivenUp tagName t := by
  obtain ⟨state, hlookup, hnone, hfails⟩ := h
  cases a with
  | subscribe req =>
    cases ht
    refine ⟨state, ?_, hnone, hfails⟩
    split
    · rw [subscribe, lookup_foldl_addTag, hlookup, Option.some_or]
    · exact hlookup
  | poll poll =>
    cases ht
    refine ⟨state, ?_, hnone, hfails⟩
    rw [lookup_pollOnce, hlookup, Option.map_some, pollTag, if_neg (by rw [hnone]; decide),
      if_neg (Nat.not_lt_of_le hfails)]

/-- A variable without a handle is tried by the next poll exactly when fewer than three attempts
have failed since it last had one. After three it is not tried any more, whatever follows. -/
theorem attempted_iff_fails (req : SubscribeRequest F64) (as : List (Action F64)) (s : System F64)
    (hrun : Runs.run (step finite) (opened req) as = some s) (tagName : String) (t : TagState)
    (ht : s.conn.tags.lookup tagName = some t) (hnone : t.tagHandle = false) :
    (tagName ∈ needsHandle s.conn ↔ failsInARow tagName s.log < maxCreateRetries) ∧
    (maxCreateRetries ≤ failsInARow tagName s.log →
      ∀ later u, Runs.run (step finite) s later = some u → tagName ∉ needsHandle u.conn) := by
  have hcounted : Counted s :=
    Runs.run_preserves (fun _ _ _ => step_counted) (counted_opened req) hrun
  have hfails := hcounted.fails tagName t ht
  constructor
  · rw [← hfails]
    simp [mem_needsHandle_iff, ht, hnone]
  · intro hthree later u hlater
    have hgiven : GivenUp tagName s := ⟨t, ht, hnone, hfails ▸ hthree⟩
    exact (Runs.run_preserves (fun _ _ _ => step_givenUp) hgiven hlater).not_mem

end Runs

/-- A device that cannot be reached. -/
def unreachable : Poll ℚ where
  createTag _ := false
  readTag _ := .readError
  now := 0

def speedRequest : SubscribeRequest ℚ :=
  { deviceID := "press", host := "10.0.0.7", tags := ["Speed"], subscriberID := "gateway" }

theorem attempted_iff_fails_once :
    ∃ s, Runs.run (step fun _ : ℚ => true) (opened speedRequest)
        [.subscribe speedRequest, .poll unreachable] = some s ∧
      ("Speed" ∈ needsHandle s.conn ↔ failsInARow "Speed" s.log < maxCreateRetries) :=
  ⟨_, rfl, (attempted_iff_fails speedRequest [.subscribe speedRequest, .poll unreachable] _ rfl
    "Speed" { createFails := 1 } rfl rfl).1⟩

/-- Three polls fail, and the variable is not tried again. -/
theorem outage_gives_up :
    ¬∀ (req : SubscribeRequest ℚ) (as : List (Action ℚ)) (s : System ℚ),
      Runs.run (step fun _ : ℚ => true) (opened req) as = some s →
        ∀ tagName t, s.conn.tags.lookup tagName = some t → t.tagHandle = false →
          tagName ∈ needsHandle s.conn := by
  intro h
  have htried := h speedRequest [.subscribe speedRequest, .poll unreachable, .poll unreachable,
    .poll unreachable] _ rfl "Speed" { createFails := 3 } rfl rfl
  exact absurd htried (by decide)

end EthernetIpHandles
