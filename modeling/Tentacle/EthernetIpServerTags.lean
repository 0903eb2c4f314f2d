import Tentacle.EthernetIpServer

/-!
# Reading tags back

Messages and the writes of clients change the value of one tag and leave the registrations alone.
A scalar tag is read back under its name, whatever the updates, exactly when no name has a dot: the
registration and the updates look for the whole name, and the read for the part before the first
dot.
-/

namespace EthernetIpServer

open GoValues Subjects Manager

variable {F32 F64 : Type}

/-! ## What messages and writes leave alone -/

/-- All of an entry but its value. -/
def TagEntry.registration (e : TagEntry F32 F64) : TagEntry F32 F64 := { e with value := .null }

/-- The tags are registered as before, with the same subscriptions. -/
structure Kept (m m' : Manager F32 F64) : Prop where
  tags : ∀ k, (m'.tagDB.lookup k).map TagEntry.registration =
    (m.tagDB.lookup k).map TagEntry.registration
  types : m'.udtDB.types = m.udtDB.types
  instances : ∀ k, (m'.udtDB.instances.lookup k).isSome = (m.udtDB.instances.lookup k).isSome
  dataSubs : m'.dataSubs = m.dataSubs
  subscribers : m'.subscribers = m.subscribers

theorem Kept.refl (m : Manager F32 F64) : Kept m m := ⟨fun _ => rfl, rfl, fun _ => rfl, rfl, rfl⟩

theorem Kept.trans {m₁ m₂ m₃ : Manager F32 F64} (h : Kept m₁ m₂) (h' : Kept m₂ m₃) :
    Kept m₁ m₃ where
  tags k := (h'.tags k).trans (h.tags k)
  types := h'.types.trans h.types
  instances k := (h'.instances k).trans (h.instances k)
  dataSubs := h'.dataSubs.trans h.dataSubs
  subscribers := h'.subscribers.trans h.subscribers

theorem Kept.symm {m m' : Manager F32 F64} (h : Kept m m') : Kept m' m where
  tags k := (h.tags k).symm
  types := h.types.symm
  instances k := (h.instances k).symm
  dataSubs := h.dataSubs.symm
  subscribers := h.subscribers.symm

/-- A tag is still there, with another value perhaps. -/
theorem Kept.value {m m' : Manager F32 F64} (h : Kept m m') {k : String} {e : TagEntry F32 F64}
    (he : m.tagDB.lookup k = some e) : ∃ v, m'.tagDB.lookup k = some { e with value := v } := by
  have htags := h.tags k
  rw [he, Option.map_some] at htags
  obtain ⟨e', he', hreg⟩ := Option.map_eq_some_iff.mp htags
  refine ⟨e'.value, he'.trans (congrArg some ?_)⟩
  exact congrArg (fun r => { r with value := e'.value }) hreg

section Frames

variable [LetterCase]

/-- A write changes the value under its own name and leaves the rest of the entry. -/
theorem lookup_updateValue (db : TagDatabase F32 F64) (name : String) (value : Value F32 F64)
    (k : String) : (TagDatabase.updateValue db name value).lookup k =
      if k = toUpper name then (db.lookup k).map fun e => { e with value } else db.lookup k := by
  rw [TagDatabase.updateValue]
  split
  next hnone =>
    split
    next hk => rw [hk, hnone, Option.map_none]
    next => rfl
  next entry hentry =>
    split
    next hk => rw [hk, AList.lookup_insert, hentry, Option.map_some]
    next hk => rw [AList.lookup_insert_ne hk]

/-- A write changes no registration. -/
theorem registration_updateValue (db : TagDatabase F32 F64) (name : String)
    (value : Value F32 F64) (k : String) :
    ((TagDatabase.updateValue db name value).lookup k).map TagEntry.registration =
      (db.lookup k).map TagEntry.registration := by
  rw [lookup_updateValue]
  split
  · rw [Option.map_map]
    rfl
  · rfl

/-- A member's new value changes the instance of the tag only. -/
theorem updateMember_spec {db db' : UdtDatabase F32 F64} {tagName memberPath : String}
    {value : Value F32 F64} (h : db.updateMember tagName memberPath value = some db') :
    db'.types = db.types ∧
      (∀ k, k ≠ toUpper tagName → db'.instances.lookup k = db.instances.lookup k) ∧
      (db.instances.lookup (toUpper tagName)).isSome ∧
      (db'.instances.lookup (toUpper tagName)).isSome := by
  rw [UdtDatabase.updateMember] at h
  split at h
  · cases h
  next inst hinst =>
    have hkeep : ∀ members : Members F32 F64, some { db with
        instances := db.instances.insert (toUpper tagName) { inst with members } } = some db' →
        db'.types = db.types ∧
          (∀ k, k ≠ toUpper tagName → db'.instances.lookup k = db.instances.lookup k) ∧
          (db.instances.lookup (toUpper tagName)).isSome ∧
          (db'.instances.lookup (toUpper tagName)).isSome := by
      rintro members ⟨⟩
      refine ⟨rfl, fun k hk => AList.lookup_insert_ne hk, ?_, ?_⟩
      · rw [hinst, Option.isSome_some]
      · rw [AList.lookup_insert, Option.isSome_some]
    dsimp only at h
    split at h
    · exact hkeep _ h
    · split at h
      · exact hkeep _ h
      · cases h

/-- Nothing but the value and the instance of one tag changes. -/
structure Writes (tagName : String) (m m' : Manager F32 F64) : Prop extends Kept m m' where
  otherTags : ∀ k, k ≠ toUpper tagName → m'.tagDB.lookup k = m.tagDB.lookup k
  otherInstances : ∀ k, k ≠ toUpper tagName →
    m'.udtDB.instances.lookup k = m.udtDB.instances.lookup k

theorem Writes.refl (tagName : String) (m : Manager F32 F64) : Writes tagName m m :=
  ⟨.refl m, fun _ _ => rfl, fun _ _ => rfl⟩

/-- A value in the tag database is a write to that tag. -/
theorem Writes.updateValue (m : Manager F32 F64) (tagName : String) (value : Value F32 F64) :
    Writes tagName m { m with tagDB := TagDatabase.updateValue m.tagDB tagName value } where
  tags := registration_updateValue m.tagDB tagName value
  types := rfl
  instances _ := rfl
  dataSubs := rfl
  subscribers := rfl
  otherTags k hk := by rw [lookup_updateValue, if_neg hk]
  otherInstances _ _ := rfl

/-- What changes of the instances when members of one tag are set. -/
structure SetsMembers (tagName : String) (db db' : UdtDatabase F32 F64) : Prop where
  types : db'.types = db.types
  others : ∀ k, k ≠ toUpper tagName → db'.instances.lookup k = db.instances.lookup k
  present : (db'.instances.lookup (toUpper tagName)).isSome =
    (db.instances.lookup (toUpper tagName)).isSome

theorem SetsMembers.refl (tagName : String) (db : UdtDatabase F32 F64) :
    SetsMembers tagName db db := ⟨rfl, fun _ _ => rfl, rfl⟩

theorem SetsMembers.trans {tagName : String} {db₁ db₂ db₃ : UdtDatabase F32 F64}
    (h : SetsMembers tagName db₁ db₂) (h' : SetsMembers tagName db₂ db₃) :
    SetsMembers tagName db₁ db₃ where
  types := h'.types.trans h.types
  others k hk := (h'.others k hk).trans (h.others k hk)
  present := h'.present.trans h.present

/-- Members that are set in the instances are a write to their tag. -/
theorem SetsMembers.writes {tagName : String} {m : Manager F32 F64} {udtDB : UdtDatabase F32 F64}
    (h : SetsMembers tagName m.udtDB udtDB) : Writes tagName m { m with udtDB } where
  tags _ := rfl
  types := h.types
  instances k := by
    by_cases hk : k = toUpper tagName
    · rw [hk]
      exact h.present
    · rw [h.others k hk]
  dataSubs := rfl
  subscribers := rfl
  otherTags _ _ := rfl
  otherInstances := h.others

theorem Writes.trans {tagName : String} {m₁ m₂ m₃ : Manager F32 F64} (h : Writes tagName m₁ m₂)
    (h' : Writes tagName m₂ m₃) : Writes tagName m₁ m₃ where
  toKept := h.toKept.trans h'.toKept
  otherTags k hk := (h'.otherTags k hk).trans (h.otherTags k hk)
  otherInstances k hk := (h'.otherInstances k hk).trans (h.otherInstances k hk)

/-- The members are set and the entry of the tag gets a copy of them. -/
theorem SetsMembers.synced {tagName : String} {m : Manager F32 F64} {udtDB : UdtDatabase F32 F64}
    (h : SetsMembers tagName m.udtDB udtDB) :
    Writes tagName m { m with udtDB, tagDB := udtDB.syncToTagDatabase tagName m.tagDB } := by
  rw [UdtDatabase.syncToTagDatabase]
  split
  · exact h.writes
  next value _ => exact h.writes.trans (.updateValue { m with udtDB } tagName value)

theorem SetsMembers.updateMember {db db' : UdtDatabase F32 F64} {tagName memberPath : String}
    {value : Value F32 F64} (h : db.updateMember tagName memberPath value = some db') :
    SetsMembers tagName db db' := by
  obtain ⟨htypes, hothers, hbefore, hafter⟩ := updateMember_spec h
  exact ⟨htypes, hothers, hafter.trans hbefore.symm⟩

variable [GoFloats F32 F64]

/-- A field of a message sets a member, or nothing. -/
theorem SetsMembers.updateField (m : Manager F32 F64) (tagName : String)
    (fields : GoMap String (Json F64)) (db : UdtDatabase F32 F64) (memberName : String) :
    SetsMembers tagName db (m.updateField tagName fields db memberName) := by
  rw [Manager.updateField]
  split
  · exact .refl tagName db
  next value _ =>
    cases hdb : db.updateMember tagName memberName
        (m.coerceUdtMemberValue tagName memberName (.ofJson value)) with
    | none => simpa only [hdb, Option.getD_none] using SetsMembers.refl tagName db
    | some db' => simpa only [hdb, Option.getD_some] using SetsMembers.updateMember hdb

theorem SetsMembers.updateFields (m : Manager F32 F64) (tagName : String)
    (fields : GoMap String (Json F64)) (order : List String) (db : UdtDatabase F32 F64) :
    SetsMembers tagName db (order.foldl (m.updateField tagName fields) db) := by
  induction order generalizing db with
  | nil => exact .refl tagName db
  | cons name order ih => exact (SetsMembers.updateField m tagName fields db name).trans (ih _)

/-- A handler changes the tag that it was made for and no other. -/
theorem writes_handle (m : Manager F32 F64) (subject : String) (value : Json F64)
    (order : List String) (h : Handler) : Writes h.tagName m (m.handle subject value order h) := by
  cases h with
  | scalar tagName cipType => exact .updateValue m tagName (coerceValue cipType (.ofJson value))
  | udtMember tagName baseSource =>
    simp only [handle, handleUdtMemberUpdate]
    split
    · exact .refl tagName m
    · split
      · exact .refl tagName m
      next hdb => exact (SetsMembers.updateMember hdb).synced
  | udtWhole tagName =>
    simp only [handle, handleUdtWholeUpdate]
    split
    · exact .refl tagName m
    next fields _ => exact (SetsMembers.updateFields m tagName fields order m.udtDB).synced

/-- A message of a source keeps names and registrations. -/
theorem kept_receive (msg : Message F64) (m : Manager F32 F64) (turn : String × List String) :
    Kept m (receive msg m turn) := by
  rw [receive]
  split
  next value h _ _ =>
    split
    · exact (writes_handle m msg.subject value turn.2 h).toKept
    · exact .refl m
  · exact .refl m

theorem kept_deliver (msg : Message F64) (m : Manager F32 F64) (schedule : Schedule) :
    Kept m (m.deliver msg schedule) := by
  induction schedule generalizing m with
  | nil => exact .refl m
  | cons turn schedule ih => exact (kept_receive msg m turn).trans (ih _)

/-- A write of a client keeps names and registrations. -/
theorem kept_tagWrite {m m' : Manager F32 F64} {tag : String} {value : Value F32 F64}
    (h : m.tagWrite tag value = .ok m') : Kept m m' := by
  simp only [tagWrite] at h
  split at h
  · cases h
  next entry _ =>
    split at h
    · cases h
    · split at h
      · split at h
        · cases h
        next hdb =>
          cases h
          exact (SetsMembers.updateMember hdb).writes.toKept
      · cases h
        exact (Writes.updateValue m _ _).toKept

end Frames

/-! ## Registered tags -/

section Registrations

variable [LetterCase]

/-- What the registration of a tag does; `e` is the new entry. -/
structure Registers (env : Env) (m : Manager F32 F64) (tag : ServerTag) (e : TagEntry F32 F64)
    (m' : Manager F32 F64) : Prop where
  name : e.name = tag.name
  cipType : e.cipType = tag.cipType
  source : e.source = tag.source
  isUdt : e.isUdt = (m.udtDB.getType tag.cipType).isSome
  tagDB : m'.tagDB = m.tagDB.insert (toUpper tag.name) e
  dataSubs : m'.dataSubs =
    if tag.source ≠ "" then
      subscribeToSource env m.dataSubs tag.name tag.source tag.cipType e.isUdt
    else m.dataSubs
  subscribers : m'.subscribers = m.subscribers
  instances : ∀ k, (m.udtDB.instances.lookup k).isSome → (m'.udtDB.instances.lookup k).isSome
  ownInstance : e.isUdt → (m'.udtDB.instances.lookup (toUpper tag.name)).isSome

variable [GoFloats F32 F64]

/-- The loop skips no tag: a tag is taken for a UDT when there is such a type, and then there is an
instance of it. -/
theorem registerTag_spec (env : Env) (m : Manager F32 F64) (tag : ServerTag) :
    ∃ m' e, m.registerTag env tag = some m' ∧ Registers env m tag e m' := by
  cases htype : m.udtDB.getType tag.cipType with
  | none =>
    refine ⟨_, newEntry false m.udtDB tag, by simp only [registerTag, htype]; rfl, ?_⟩
    constructor <;> simp [htype, TagDatabase.set, newEntry]
  | some udt =>
    have hlookup : m.udtDB.types.lookup tag.cipType = some udt := htype
    let udtDB : UdtDatabase F32 F64 := { m.udtDB with
      instances := m.udtDB.instances.insert (toUpper tag.name)
        { typeName := tag.cipType, members := m.udtDB.defaultMembers udt } }
    have hcreate : m.udtDB.createInstance tag.name tag.cipType = some udtDB := by
      rw [UdtDatabase.createInstance, hlookup]
      rfl
    refine ⟨_, newEntry true udtDB tag, by simp only [registerTag, htype, hcreate]; rfl, ?_⟩
    constructor
    case instances =>
      intro k hk
      obtain ⟨inst, hinst⟩ := Option.isSome_iff_exists.mp hk
      obtain ⟨inst', hinst'⟩ := exists_lookup_insert hinst (toUpper tag.name)
        { typeName := tag.cipType, members := m.udtDB.defaultMembers udt }
      exact Option.isSome_iff_exists.mpr ⟨inst', hinst'⟩
    all_goals simp [htype, TagDatabase.set, newEntry, udtDB]

/-- The loop over the tags performs the registrations one after the other. -/
theorem run_registerTag (env : Env) (m : Manager F32 F64) (tags : List ServerTag) :
    Runs.run (registerTag env) m tags = some (m.registerTags env tags).1 := by
  induction tags generalizing m with
  | nil => rfl
  | cons tag tags ih =>
    obtain ⟨m', e, hm', -⟩ := registerTag_spec env m tag
    simp only [Runs.run, hm', Option.bind_some, ih, registerTags]

theorem registers_of_registerTag {env : Env} {m m' : Manager F32 F64} {tag : ServerTag}
    (h : m.registerTag env tag = some m') : ∃ e, Registers env m tag e m' := by
  obtain ⟨m'', e, hm'', hregisters⟩ := registerTag_spec env m tag
  rw [h, Option.some.injEq] at hm''
  subst hm''
  exact ⟨e, hregisters⟩

omit [GoFloats F32 F64] in
/-- Every entry stands under its name. -/
def Keyed (m : Manager F32 F64) : Prop := ∀ k e, m.tagDB.lookup k = some e → k = toUpper e.name

omit [GoFloats F32 F64] in
theorem Keyed.kept {m m' : Manager F32 F64} (h : Keyed m) (hkept : Kept m m') : Keyed m' := by
  intro k e he
  obtain ⟨v, hv⟩ := hkept.symm.value he
  have hname := h k _ hv
  exact hname

/-- Each step leaves the entries under their names. -/
theorem keyed_step {env : Env} {m m' : Manager F32 F64} {a : Action F32 F64} (h : Keyed m)
    (hstep : step env m a = some m') : Keyed m' := by
  cases a with
  | subscribe req =>
    cases hstep
    cases req with
    | error err => exact h
    | ok req =>
      have hregister : ∀ (m : Manager F32 F64) tag m', Keyed m → m.registerTag env tag = some m' →
          Keyed m' := by
        intro m tag m' hm htag
        obtain ⟨e, hregisters⟩ := registers_of_registerTag htag
        rw [Keyed, hregisters.tagDB]
        exact forall_lookup_insert hm (congrArg toUpper hregisters.name.symm)
      have hstored : Keyed (m.storeRequest req) := h
      have htags : Keyed ((m.storeRequest req).registerTags env req.tags).1 :=
        Runs.run_preserves hregister hstored (run_registerTag env (m.storeRequest req) req.tags)
      simp only [handleSubscribe]
      split
      · exact h
      · split
        · exact htags
        · split <;> exact htags
  | unsubscribe req =>
    cases hstep
    cases req with
    | error err => exact h
    | ok subscriberID =>
      simp only [handleUnsubscribe]
      split
      · exact h
      · split <;> exact h
  | message msg schedule =>
    simp only [step] at hstep
    split at hstep
    · cases hstep
      exact h.kept (kept_deliver msg m schedule)
    · cases hstep
  | write tag value =>
    simp only [step] at hstep
    split at hstep
    · cases hstep
      exact h
    next hwrite =>
      cases hstep
      exact h.kept (kept_tagWrite hwrite)

end Registrations

/-! ## Updates and reads -/

theorem forall_lookup_iff {V : Type} {P : String → V → Prop} {m : GoMap String V} :
    (∀ k v, m.lookup k = some v → P k v) ↔ ∀ x ∈ m.entries, P x.1 x.2 := by
  constructor
  · rintro h ⟨k, v⟩ hx
    exact h k v ((mem_entries_iff m k v).mp hx)
  · intro h k v hv
    exact h ⟨k, v⟩ ((mem_entries_iff m k v).mpr hv)

section ReadBack

variable [LetterCase]

/-- `UpdateValue` for each of the updates, in order. -/
def updateAll (m : Manager F32 F64) (updates : List (String × Value F32 F64)) : Manager F32 F64 :=
  { m with tagDB := updates.foldl (fun db u => TagDatabase.updateValue db u.1 u.2) m.tagDB }

/-- The last update under a name that is the same up to letter case, or else the value before. -/
def latest (name : String) (value : Value F32 F64) (updates : List (String × Value F32 F64)) :
    Value F32 F64 :=
  updates.foldl (fun v u => if toUpper u.1 = toUpper name then u.2 else v) value

/-- Whatever the updates, a read under the name of a tag returns the tag's own value. -/
def ReadsBack (m : Manager F32 F64) : Prop :=
  ∀ updates k e, m.tagDB.lookup k = some e →
    (updateAll m updates).tagRead e.name = .ok (latest e.name e.value updates)

def AllScalar (m : Manager F32 F64) : Prop := ∀ k e, m.tagDB.lookup k = some e → e.isUdt = false

/-- Of the updates of a tag the last one counts. -/
theorem lookup_updateAll (m : Manager F32 F64) (updates : List (String × Value F32 F64))
    {k name : String} (hk : k = toUpper name) :
    (updateAll m updates).tagDB.lookup k =
      (m.tagDB.lookup k).map fun e => { e with value := latest name e.value updates } := by
  rw [updateAll]
  dsimp only
  induction updates generalizing m with
  | nil =>
    change m.tagDB.lookup k = (m.tagDB.lookup k).map id
    rw [Option.map_id_fun, id]
  | cons u updates ih =>
    have hrest := ih { m with tagDB := TagDatabase.updateValue m.tagDB u.1 u.2 }
    dsimp only at hrest
    rw [List.foldl_cons, hrest, lookup_updateValue]
    simp only [latest, List.foldl_cons, ← hk]
    by_cases hu : k = toUpper u.1
    · rw [if_pos hu, Option.map_map]
      simp only [if_pos hu.symm]
      rfl
    · rw [if_neg hu]
      simp only [if_neg (Ne.symm hu)]

omit [LetterCase] in
theorem splitDot_of_not_mem {s : String} (h : '.' ∉ s.toList) : splitDot s = (s, none) := by
  have hall : ∀ c ∈ s.toList, decide (c ≠ '.') = true := by
    intro c hc
    simpa using fun he : c = '.' => h (he ▸ hc)
  rw [splitDot, List.takeWhile_eq_self_iff.mpr hall, afterDot,
    List.dropWhile_eq_nil_iff.mpr hall, String.ofList_toList]
  rfl

/-- The part before the dot is shorter, also in upper case. -/
theorem toUpper_base_ne {s : String} (h : '.' ∈ s.toList) :
    toUpper (splitDot s).1 ≠ toUpper s := by
  intro heq
  have hlength : (s.toList.takeWhile (· ≠ '.')).length = s.toList.length := by
    have hchars := congrArg (fun t => t.toList.length) heq
    simpa only [toUpper, splitDot, String.toList_ofList, List.length_map] using hchars
  have hself := (List.takeWhile_prefix (· ≠ '.')).eq_of_length hlength
  have hdot := List.takeWhile_eq_self_iff.mp hself '.' h
  simp at hdot

/-- A scalar tag is read under the part of its name before the first dot. -/
theorem tagRead_of_scalar {m : Manager F32 F64} (h : AllScalar m) (tag : String) :
    m.tagRead tag = match m.tagDB.lookup (toUpper (splitDot tag).1) with
      | none => .error (.tagNotFound tag)
      | some e => .ok e.value := by
  simp only [tagRead, TagDatabase.get]
  cases he : m.tagDB.lookup (toUpper (splitDot tag).1) with
  | none => rfl
  | some e =>
    dsimp only
    rw [if_neg]
    simpa using h _ e he

/-- Updates leave the tags scalar. -/
theorem AllScalar.updateAll {m : Manager F32 F64} (h : AllScalar m)
    (updates : List (String × Value F32 F64)) : AllScalar (updateAll m updates) := by
  rw [EthernetIpServer.updateAll]
  induction updates generalizing m with
  | nil => exact h
  | cons u updates ih =>
    apply ih (m := { m with tagDB := TagDatabase.updateValue m.tagDB u.1 u.2 })
    intro k e he
    obtain ⟨v, hv⟩ := (Writes.updateValue m u.1 u.2).toKept.symm.value he
    have hscalar := h k _ hv
    exact hscalar

/-- A dotted name is read as another tag's, or not at all; two updates tell them apart. -/
theorem not_readsBack_of_dot {m : Manager F32 F64} (hscalar : AllScalar m) {k : String}
    {e : TagEntry F32 F64} (he : m.tagDB.lookup k = some e) (hdot : '.' ∈ e.name.toList) :
    ¬ ReadsBack m := by
  intro hread
  have hne : toUpper (splitDot e.name).1 ≠ toUpper e.name := toUpper_base_ne hdot
  let updates : List (String × Value F32 F64) :=
    [((splitDot e.name).1, .bool false), (e.name, .bool true)]
  have hbase := hread updates k e he
  have howned : latest e.name e.value updates = .bool true := by simp [latest, updates]
  rw [howned, tagRead_of_scalar (hscalar.updateAll updates), lookup_updateAll m updates rfl] at hbase
  cases hother : m.tagDB.lookup (toUpper (splitDot e.name).1) with
  | none =>
    rw [hother] at hbase
    cases hbase
  | some other =>
    have hvalue : latest (splitDot e.name).1 other.value updates = .bool false := by
      simp [latest, updates, hne.symm]
    rw [hother, Option.map_some, hvalue] at hbase
    cases hbase

/-- In every state that the server reaches with scalar tags only, the tags are read back whatever
the updates are, exactly when no name has a dot. -/
theorem readsBack_iff_undotted [GoFloats F32 F64] (env : Env) {as : List (Action F32 F64)}
    {m : Manager F32 F64} (hrun : Runs.run (step env) {} as = some m) (hscalar : AllScalar m) :
    ReadsBack m ↔ ∀ k e, m.tagDB.lookup k = some e → '.' ∉ e.name.toList := by
  have hkeyed : Keyed m := by
    refine Runs.run_preserves (fun _ _ _ h hstep => keyed_step h hstep) ?_ hrun
    intro k e he
    cases he
  constructor
  · intro hread k e he hdot
    exact not_readsBack_of_dot hscalar he hdot hread
  · intro hplain updates k e he
    have hk : k = toUpper e.name := hkeyed k e he
    rw [tagRead_of_scalar (hscalar.updateAll updates), splitDot_of_not_mem (hplain k e he),
      ← hk, lookup_updateAll m updates hk, he]
    rfl

end ReadBack

/-- A request for tags that are all of type `DINT`. -/
def register (names : List String) : List (Action ℚ ℚ) :=
  [.subscribe (.ok {
    subscriberID := "plc", tags := names.map fun name => { name, cipType := "DINT" } })]

def withTags (names : List String) : Manager ℚ ℚ :=
  (Runs.run (step {}) {} (register names)).getD {}

theorem readsBack_iff_undotted_line :
    Runs.run (step {}) {} (register ["Line", "Program:Main"]) =
      some (withTags ["Line", "Program:Main"]) ∧
    AllScalar (withTags ["Line", "Program:Main"]) ∧
    ReadsBack (withTags ["Line", "Program:Main"]) := by
  have hscalar : AllScalar (withTags ["Line", "Program:Main"]) :=
    forall_lookup_iff.mpr (by decide)
  have hrun : Runs.run (step {}) {} (register ["Line", "Program:Main"]) =
      some (withTags ["Line", "Program:Main"]) := rfl
  refine ⟨hrun, hscalar, ?_⟩
  exact (readsBack_iff_undotted {} hrun hscalar).mpr (forall_lookup_iff.mpr (by decide))

/-- The name `Line.Speed` reads the value of `Line`, and nothing is found for a tag of a program. -/
theorem not_readsBack_dotted :
    let m := withTags ["Line", "Line.Speed", "Program:Main.Level"]
    Runs.run (step {}) {} (register ["Line", "Line.Speed", "Program:Main.Level"]) = some m ∧
    AllScalar m ∧
    (updateAll m [("Line", .int .int32 5), ("Line.Speed", .int .int32 7)]).tagRead "Line.Speed" =
      .ok (.int .int32 5) ∧
    m.tagRead "Program:Main.Level" = .error (.tagNotFound "Program:Main.Level") ∧
    ¬ ReadsBack m := by
  refine ⟨rfl, forall_lookup_iff.mpr (by decide), rfl, rfl, ?_⟩
  intro h
  have hread := h [("Line", .int .int32 5), ("Line.Speed", .int .int32 7)] "LINE.SPEED" _ rfl
  cases hread

end EthernetIpServer
