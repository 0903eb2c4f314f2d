import Tentacle.EthernetIpServerTags

/-!
# Messages and the tags of their subject

A message on a subject is to reach every tag that has the subject as its source, with the value in
the tag's CIP type. The manager subscribes once to a subject, for the tag that names it first: the
closure holds that tag and its type. A second tag with the source gets no values, and a tag that is
registered again, with another type, gets them in the old one.

The messages reach the tags along every run in which a tag is registered only with a source that no
subscription is made for yet, or that the tag has already, in a type that is converted alike; and in
which no subscription that is left from an earlier registration of the tag also receives the source.
-/

namespace EthernetIpServer

open GoValues Subjects Manager

variable {F32 F64 : Type}

/-! ## The value that a message stands for -/

/-- `members[path] = value`, for a path of one or two names. -/
def setPath (members : Members F32 F64) (path : String) (value : Value F32 F64) :
    Members F32 F64 :=
  match splitDot path with
  | (_, none) => setMember members path value
  | (member, some subMember) =>
    match members.lookup member with
    | some (.map nested) => setMember members member (.map (setMember nested subMember value))
    | _ => members

section Values

variable [GoFloats F32 F64]

/-- The value in the type of the member at the path, as the type is registered now. -/
def memberValue (udtDB : UdtDatabase F32 F64) (udtType path : String) (value : Value F32 F64) :
    Value F32 F64 :=
  match udtDB.getType udtType with
  | none => value
  | some udt => coerceMember udtDB udt path value

/-- Every field of the message sets the member of its name. -/
def setFields (udtDB : UdtDatabase F32 F64) (udtType : String) (fields : GoMap String (Json F64))
    (order : List String) (members : Members F32 F64) : Members F32 F64 :=
  order.foldl (fun members name =>
    match fields.lookup name with
    | none => members
    | some value => setPath members name (memberValue udtDB udtType name (.ofJson value))) members

/-- The value of a tag after a message on its source: the value in the tag's type, or for a UDT the
members with the fields of the message, each in the type of the member. -/
def valueAfter (m : Manager F32 F64) (k : String) (e : TagEntry F32 F64) (value : Json F64)
    (order : List String) : Value F32 F64 :=
  if e.isUdt then
    match value.members, m.udtDB.instances.lookup k with
    | some fields, some inst => .map (setFields m.udtDB e.udtType fields order inst.members)
    | _, _ => e.value
  else coerceValue e.cipType (.ofJson value)

variable [LetterCase]

/-- Every message on the source of a registered tag, in whatever order the handlers run, changes the
value of the tag to this one and nothing else of it. -/
def FansOut (m : Manager F32 F64) : Prop :=
  ∀ k e, m.tagDB.lookup k = some e → e.source ≠ "" →
    ∀ value schedule, Complete m (some value) schedule →
      ∃ order, (e.source, order) ∈ schedule ∧
        (m.deliver ⟨e.source, some value⟩ schedule).tagDB.lookup k =
          some { e with value := valueAfter m k e value order }

end Values

/-! ## Subscriptions that fit -/

/-- The handler, on the source itself, gives a tag its values. -/
def Serves (cipType : String) (isUdt : Bool) : Handler → Prop
  | .scalar _ made => isUdt = false ∧ knownType made = knownType cipType
  | .udtWhole _ => isUdt = true
  | .udtMember .. => False

/-- A handler of the tag on another pattern does no harm to the messages on the source. -/
def Harmless (source cipType : String) (isUdt : Bool) : Handler → Prop
  | .scalar _ made => isUdt = false ∧ knownType made = knownType cipType
  | .udtWhole _ => False
  | .udtMember _ baseSource =>
    trimPrefix source (baseSource ++ ".") = "" ∨ trimPrefix source (baseSource ++ ".") = source

instance Serves.decidable (cipType : String) (isUdt : Bool) :
    (h : Handler) → Decidable (Serves cipType isUdt h)
  | .scalar .. => inferInstanceAs (Decidable (_ ∧ _))
  | .udtWhole _ => inferInstanceAs (Decidable (_ = _))
  | .udtMember .. => inferInstanceAs (Decidable False)

instance Harmless.decidable (source cipType : String) (isUdt : Bool) :
    (h : Handler) → Decidable (Harmless source cipType isUdt h)
  | .scalar .. => inferInstanceAs (Decidable (_ ∧ _))
  | .udtWhole _ => inferInstanceAs (Decidable False)
  | .udtMember .. => inferInstanceAs (Decidable (_ ∨ _))

section Fits

variable [LetterCase]

/-- There is no subscription to the source yet and the bus takes one, or it is the tag's own and
fits its type; and the other subscriptions of the tag leave the messages on the source alone. -/
def FitsSource (env : Env) (dataSubs : GoMap String Handler) (tag : ServerTag) (isUdt : Bool) :
    Prop :=
  (∀ h ∈ dataSubs.lookup tag.source,
    toUpper h.tagName = toUpper tag.name ∧ Serves tag.cipType isUdt h) ∧
  (dataSubs.lookup tag.source = none →
    env.accepts tag.source ∧ (isUdt →
      dataSubs.lookup (tag.source ++ ".>") = none ∧ env.accepts (tag.source ++ ".>"))) ∧
  ∀ x ∈ dataSubs.entries, x.1 ≠ tag.source → toUpper x.2.tagName = toUpper tag.name →
    matchSubject x.1 tag.source → Harmless tag.source tag.cipType isUdt x.2

instance FitsSource.decidable (env : Env) (dataSubs : GoMap String Handler) (tag : ServerTag)
    (isUdt : Bool) : Decidable (FitsSource env dataSubs tag isUdt) :=
  inferInstanceAs (Decidable (_ ∧ _ ∧ _))

def Fits (env : Env) (m : Manager F32 F64) (tag : ServerTag) : Prop :=
  tag.source = "" ∨ FitsSource env m.dataSubs tag (m.udtDB.getType tag.cipType).isSome

instance Fits.decidable (env : Env) (m : Manager F32 F64) (tag : ServerTag) :
    Decidable (Fits env m tag) := inferInstanceAs (Decidable (_ ∨ _))

variable [GoFloats F32 F64]

/-- Every tag of a request fits when its turn comes. The last subscriber does not leave while a tag
has a source. -/
def StepFits (env : Env) (m : Manager F32 F64) : Action F32 F64 → Prop
  | .subscribe (.ok req) => req.subscriberID ≠ "" →
    Runs.Meets (registerTag env) (Fits env) (m.storeRequest req) req.tags
  | .unsubscribe (.ok subscriberID) =>
    m.subscribers.lookup subscriberID = none ∨ (m.subscribers.erase subscriberID).keys ≠ [] ∨
      ∀ x ∈ m.tagDB.entries, x.2.source = ""
  | .subscribe (.error _) | .unsubscribe (.error _) | .message .. | .write .. => True

instance StepFits.decidable (env : Env) (m : Manager F32 F64) :
    (a : Action F32 F64) → Decidable (StepFits env m a)
  | .subscribe (.ok _) => inferInstanceAs (Decidable (_ → _))
  | .unsubscribe (.ok _) => inferInstanceAs (Decidable (_ ∨ _ ∨ _))
  | .subscribe (.error _) | .unsubscribe (.error _) | .message .. | .write .. => isTrue trivial

end Fits

/-! ## One handler -/

section Handlers

variable [LetterCase]

/-- A member is written under its path in the instance of that name, and nowhere else. -/
theorem lookup_updateMember (db : UdtDatabase F32 F64) (tagName path : String)
    (value : Value F32 F64) :
    ((db.updateMember tagName path value).getD db).instances.lookup (toUpper tagName) =
      (db.instances.lookup (toUpper tagName)).map fun inst =>
        { inst with members := setPath inst.members path value } := by
  cases hinst : db.instances.lookup (toUpper tagName) with
  | none => simp [UdtDatabase.updateMember, hinst]
  | some inst =>
    rcases hsplit : splitDot path with ⟨member, _ | subMember⟩
    · simp [UdtDatabase.updateMember, hinst, setPath, hsplit]
    · cases hmember : inst.members.lookup member with
      | none => simp [UdtDatabase.updateMember, hinst, setPath, hsplit, hmember]
      | some v => cases v <;> simp [UdtDatabase.updateMember, hinst, setPath, hsplit, hmember]

variable [GoFloats F32 F64]

omit [LetterCase] in
/-- Only the types of the database matter for the value of a member. -/
theorem memberValue_congr {db db' : UdtDatabase F32 F64} (h : db'.types = db.types)
    (udtType path : String) (value : Value F32 F64) :
    memberValue db' udtType path value = memberValue db udtType path value := by
  have htype : ∀ name, db'.getType name = db.getType name := by
    intro name
    rw [UdtDatabase.getType, UdtDatabase.getType, h]
  simp only [memberValue, coerceMember, htype]

omit [LetterCase] in
theorem setFields_congr {db db' : UdtDatabase F32 F64} (h : db'.types = db.types)
    (udtType : String) (fields : GoMap String (Json F64)) (order : List String)
    (members : Members F32 F64) :
    setFields db' udtType fields order members = setFields db udtType fields order members := by
  simp only [setFields, memberValue_congr h]

/-- Each field of a message is written to its member, in the order of the loop. -/
theorem lookup_updateFields {m : Manager F32 F64} {tagName : String} {e : TagEntry F32 F64}
    (he : m.tagDB.lookup (toUpper tagName) = some e) (fields : GoMap String (Json F64))
    (order : List String) (db : UdtDatabase F32 F64) :
    (order.foldl (m.updateField tagName fields) db).instances.lookup (toUpper tagName) =
      (db.instances.lookup (toUpper tagName)).map fun inst =>
        { inst with members := setFields m.udtDB e.udtType fields order inst.members } := by
  have hcoerce : ∀ path value, m.coerceUdtMemberValue tagName path value =
      memberValue m.udtDB e.udtType path value := by
    intro path value
    simp only [coerceUdtMemberValue, TagDatabase.get, he]
    rfl
  induction order generalizing db with
  | nil =>
    change _ = (db.instances.lookup (toUpper tagName)).map id
    rw [Option.map_id_fun, id]
    rfl
  | cons name order ih =>
    rw [List.foldl_cons, ih, updateField]
    simp only [setFields, List.foldl_cons]
    cases fields.lookup name with
    | none => rfl
    | some value =>
      dsimp only
      rw [hcoerce, lookup_updateMember, Option.map_map]
      rfl

/-- The handler of a subscription that fits gives the tag its value. -/
theorem handle_serves {m : Manager F32 F64} {k : String} {e : TagEntry F32 F64} {h : Handler}
    (he : m.tagDB.lookup k = some e) (hk : toUpper h.tagName = k)
    (hserves : Serves e.cipType e.isUdt h)
    (hinst : e.isUdt → (m.udtDB.instances.lookup k).isSome) (subject : String) (value : Json F64)
    (order : List String) :
    (m.handle subject value order h).tagDB.lookup k =
      some { e with value := valueAfter m k e value order } := by
  subst hk
  cases h with
  | scalar tagName cipType =>
    obtain ⟨hscalar, htype⟩ := hserves
    have hcoerce : ∀ raw : Value F32 F64, coerceValue cipType raw = coerceValue e.cipType raw := by
      intro raw
      simp only [coerceValue, htype]
    simp only [handle, handleScalarUpdate, Handler.tagName] at he ⊢
    rw [lookup_updateValue, if_pos rfl, he, Option.map_some, hcoerce, valueAfter, if_neg]
    rw [hscalar]
    exact Bool.false_ne_true
  | udtMember tagName baseSource => exact hserves.elim
  | udtWhole tagName =>
    have hudt : e.isUdt = true := hserves
    obtain ⟨inst, hinst⟩ := Option.isSome_iff_exists.mp (hinst hudt)
    simp only [handle, handleUdtWholeUpdate, Handler.tagName, valueAfter, if_pos hudt] at he hinst ⊢
    cases hfields : value.members with
    | none => exact he
    | some fields =>
      have hread := lookup_updateFields he fields order m.udtDB
      rw [hinst, Option.map_some] at hread
      simp only [UdtDatabase.syncToTagDatabase, UdtDatabase.readAll, hread, Option.map_some, hinst]
      rw [lookup_updateValue, if_pos rfl, he, Option.map_some]

/-- Any other handler of the tag leaves it alone, or gives it the value that it is to have. -/
theorem handle_harmless {m : Manager F32 F64} {k : String} {e : TagEntry F32 F64} {h : Handler}
    (hk : toUpper h.tagName = k) (hharmless : Harmless e.source e.cipType e.isUdt h)
    (value : Json F64) (order : List String) :
    m.handle e.source value order h = m ∨ (e.isUdt = false ∧
      (m.handle e.source value order h).tagDB.lookup k = (m.tagDB.lookup k).map fun e' =>
        { e' with value := coerceValue e.cipType (.ofJson value) }) := by
  subst hk
  cases h with
  | scalar tagName cipType =>
    obtain ⟨hscalar, htype⟩ := hharmless
    right
    refine ⟨hscalar, ?_⟩
    simp only [handle, handleScalarUpdate, Handler.tagName]
    rw [lookup_updateValue, if_pos rfl]
    simp only [coerceValue, htype]
  | udtMember tagName baseSource =>
    left
    exact if_pos hharmless
  | udtWhole tagName => exact hharmless.elim

end Handlers

/-! ## One message -/

section Messages

variable [LetterCase]

omit [LetterCase] in
theorem matchSubject_self (subject : String) : matchSubject subject subject = true := by
  rw [matchSubject]
  induction tokens subject with
  | nil => rfl
  | cons token rest ih =>
    rw [matchTokens]
    split
    · rfl
    · simpa using ih

/-- The subscriptions give the tag with this key the messages on its source. -/
structure TunedTo (dataSubs : GoMap String Handler) (k : String) (e : TagEntry F32 F64) : Prop where
  served : ∃ h, dataSubs.lookup e.source = some h ∧ toUpper h.tagName = k ∧
    Serves e.cipType e.isUdt h
  harmless : ∀ p h, dataSubs.lookup p = some h → p ≠ e.source → toUpper h.tagName = k →
    matchSubject p e.source → Harmless e.source e.cipType e.isUdt h

/-- The invariant: every tag with a source is tuned to it, and a UDT has an instance. -/
structure Tuned (m : Manager F32 F64) : Prop where
  tuned : ∀ k e, m.tagDB.lookup k = some e → e.source ≠ "" → TunedTo m.dataSubs k e
  instances : ∀ k e, m.tagDB.lookup k = some e → e.isUdt → (m.udtDB.instances.lookup k).isSome

variable [GoFloats F32 F64]

/-- The turn of another subscription: the tag stays as it is, or it is a scalar and gets the value
already. -/
theorem receive_aside {m : Manager F32 F64} {k : String} {e : TagEntry F32 F64}
    (htuned : TunedTo m.dataSubs k e) (value : Json F64) {turn : String × List String}
    (hturn : turn.1 ≠ e.source) :
    ((receive ⟨e.source, some value⟩ m turn).tagDB.lookup k = m.tagDB.lookup k ∧
      (receive ⟨e.source, some value⟩ m turn).udtDB.instances.lookup k =
        m.udtDB.instances.lookup k) ∨
    (e.isUdt = false ∧ (receive ⟨e.source, some value⟩ m turn).tagDB.lookup k =
      (m.tagDB.lookup k).map fun e' =>
        { e' with value := coerceValue e.cipType (.ofJson value) }) := by
  simp only [receive]
  cases hlookup : m.dataSubs.lookup turn.1 with
  | none => exact .inl ⟨rfl, rfl⟩
  | some h =>
    dsimp only
    split
    next hmatch =>
      by_cases hk : toUpper h.tagName = k
      · have hharmless := htuned.harmless turn.1 h hlookup hturn hk hmatch
        obtain hsame | hvalue := handle_harmless (m := m) hk hharmless value turn.2
        · rw [hsame]
          exact .inl ⟨rfl, rfl⟩
        · exact .inr hvalue
      · have hwrites := writes_handle m e.source value turn.2 h
        exact .inl ⟨hwrites.otherTags k (Ne.symm hk), hwrites.otherInstances k (Ne.symm hk)⟩
    · exact .inl ⟨rfl, rfl⟩

/-- Before the turn of its own subscription a UDT is as it was. -/
theorem deliver_front {m : Manager F32 F64} {k : String} {e : TagEntry F32 F64}
    (htuned : TunedTo m.dataSubs k e) (hudt : e.isUdt = true) (value : Json F64)
    {turns : Schedule} (hturns : ∀ turn ∈ turns, turn.1 ≠ e.source) :
    (m.deliver ⟨e.source, some value⟩ turns).tagDB.lookup k = m.tagDB.lookup k ∧
      (m.deliver ⟨e.source, some value⟩ turns).udtDB.instances.lookup k =
        m.udtDB.instances.lookup k := by
  induction turns generalizing m with
  | nil => exact ⟨rfl, rfl⟩
  | cons turn turns ih =>
    have hkept := kept_receive ⟨e.source, some value⟩ m turn
    have hrest := ih (hkept.dataSubs ▸ htuned) fun t ht => hturns t (.tail _ ht)
    obtain ⟨htag, hinst⟩ | ⟨hscalar, -⟩ := receive_aside htuned value (hturns turn (.head _))
    · exact ⟨hrest.1.trans htag, hrest.2.trans hinst⟩
    · rw [hudt] at hscalar
      cases hscalar

/-- After that turn the tag keeps the value. -/
theorem deliver_back {m : Manager F32 F64} {k : String} {e : TagEntry F32 F64} {v : Value F32 F64}
    (htuned : TunedTo m.dataSubs k e) {value : Json F64}
    (hv : e.isUdt = false → v = coerceValue e.cipType (.ofJson value))
    (he : m.tagDB.lookup k = some { e with value := v }) {turns : Schedule}
    (hturns : ∀ turn ∈ turns, turn.1 ≠ e.source) :
    (m.deliver ⟨e.source, some value⟩ turns).tagDB.lookup k = some { e with value := v } := by
  induction turns generalizing m with
  | nil => exact he
  | cons turn turns ih =>
    have hkept := kept_receive ⟨e.source, some value⟩ m turn
    apply ih (hkept.dataSubs ▸ htuned) _ fun t ht => hturns t (.tail _ ht)
    obtain ⟨htag, -⟩ | ⟨hscalar, htag⟩ := receive_aside htuned value (hturns turn (.head _))
    · exact htag.trans he
    · rw [htag, he, Option.map_some, hv hscalar]

/-- The turns before its own do not change what a tag gets. -/
theorem valueAfter_deliver {m : Manager F32 F64} {k : String} {e : TagEntry F32 F64}
    (htuned : TunedTo m.dataSubs k e) (he : m.tagDB.lookup k = some e) {v : Value F32 F64}
    {value : Json F64} {turns : Schedule}
    (hv : (m.deliver ⟨e.source, some value⟩ turns).tagDB.lookup k = some { e with value := v })
    (order : List String) (hturns : ∀ turn ∈ turns, turn.1 ≠ e.source) :
    valueAfter (m.deliver ⟨e.source, some value⟩ turns) k { e with value := v } value order =
      valueAfter m k e value order := by
  by_cases hudt : e.isUdt = true
  case neg => simp [valueAfter, hudt]
  case pos =>
    obtain ⟨htag, hinst⟩ := deliver_front htuned hudt value hturns
    rw [hv, he, Option.some.injEq] at htag
    rw [htag, valueAfter, valueAfter, if_pos hudt, if_pos hudt, hinst]
    simp only [setFields_congr (kept_deliver ⟨e.source, some value⟩ m turns).types]

/-- Where each entry is tuned to its source, a value fans out to exactly the tags of its source. -/
theorem fansOut_of_tuned {m : Manager F32 F64} (h : Tuned m) : FansOut m := by
  intro k e he hsource value schedule hcomplete
  have htuned := h.tuned k e he hsource
  obtain ⟨handler, hlookup, hk, hserves⟩ := htuned.served
  have hmem : e.source ∈ schedule.map Prod.fst := by
    rw [hcomplete.1.mem_iff]
    exact AList.mem_keys.mp (AList.lookup_isSome.mp (by rw [hlookup, Option.isSome_some]))
  obtain ⟨⟨source, order⟩, hturn, rfl⟩ := List.mem_map.mp hmem
  refine ⟨order, hturn, ?_⟩
  -- The turns before and after the tag's own are those of other subscriptions.
  obtain ⟨front, back, rfl⟩ := List.append_of_mem hturn
  have hnodup : ((front ++ (e.source, order) :: back).map Prod.fst).Nodup :=
    hcomplete.1.nodup_iff.mpr m.dataSubs.nodupKeys
  rw [List.map_append, List.map_cons, List.nodup_append, List.nodup_cons] at hnodup
  obtain ⟨-, ⟨hnotBack, -⟩, hdisjoint⟩ := hnodup
  have hfront : ∀ turn ∈ front, turn.1 ≠ e.source := fun turn ht =>
    hdisjoint turn.1 (List.mem_map_of_mem ht) e.source List.mem_cons_self
  have hback : ∀ turn ∈ back, turn.1 ≠ e.source := by
    intro turn ht heq
    have hmem : turn.1 ∈ back.map Prod.fst := List.mem_map_of_mem ht
    rw [heq] at hmem
    exact hnotBack hmem
  have hkept := kept_deliver ⟨e.source, some value⟩ m front
  obtain ⟨v, hv⟩ := hkept.value he
  have hown : (receive ⟨e.source, some value⟩ (m.deliver ⟨e.source, some value⟩ front)
      (e.source, order)).tagDB.lookup k =
      some { e with value := valueAfter m k e value order } := by
    simp only [receive, hkept.dataSubs, hlookup, matchSubject_self, if_true]
    rw [handle_serves hv hk hserves
      (fun hudt => (hkept.instances k).trans (h.instances k e he hudt))]
    dsimp only
    rw [valueAfter_deliver htuned he hv order hfront]
  have hkept' := hkept.trans (kept_receive ⟨e.source, some value⟩ _ (e.source, order))
  rw [deliver, List.foldl_append, List.foldl_cons]
  refine deliver_back (hkept'.dataSubs ▸ htuned) ?_ hown hback
  intro hscalar
  rw [valueAfter, if_neg (by rw [hscalar]; exact Bool.false_ne_true)]

end Messages

/-! ## Registrations -/

section Registrations

theorem ne_append_wildcard (source : String) : source ≠ source ++ ".>" := by
  intro h
  have hlength := congrArg String.length h
  rw [String.length_append] at hlength
  have : ".>".length = 2 := by decide
  omega

/-- A source is not a member of itself. -/
theorem trimPrefix_self_dot (source : String) : trimPrefix source (source ++ ".") = source := by
  rw [trimPrefix, if_neg]
  intro hprefix
  have hlength := hprefix.length_le
  rw [String.toList_append, List.length_append] at hlength
  have : ".".toList.length = 1 := by decide
  omega

/-- The subscriptions that are there stay. -/
theorem subscribeToSource_keeps (env : Env) {dataSubs : GoMap String Handler} {p : String}
    {h : Handler} (hold : dataSubs.lookup p = some h) (tagName source cipType : String)
    (isUdt : Bool) :
    (subscribeToSource env dataSubs tagName source cipType isUdt).lookup p = some h := by
  have hinsert : ∀ (subs : GoMap String Handler) (q : String) (new : Handler),
      subs.lookup p = some h → subs.lookup q = none → (subs.insert q new).lookup p = some h := by
    intro subs q new hp hq
    rw [AList.lookup_insert_ne, hp]
    rintro rfl
    rw [hp] at hq
    cases hq
  simp only [subscribeToSource]
  split
  · split
    · exact hold
    next hwild =>
      have hwildcard := hinsert dataSubs (source ++ ".>") (.udtMember tagName source) hold
        (by simpa using hwild)
      split
      · split
        next hsource =>
          rw [Bool.and_eq_true, Option.isNone_iff_eq_none] at hsource
          exact hinsert _ source _ hwildcard hsource.1
        · exact hwildcard
      · exact hold
  · split
    next hsource =>
      rw [Bool.and_eq_true, Option.isNone_iff_eq_none] at hsource
      exact hinsert dataSubs source _ hold hsource.1
    · exact hold

/-- What is found after an insertion is the new value or was there before. -/
theorem lookup_insert_cases {V : Type} {m : GoMap String V} {p q : String} {v new : V}
    (h : (m.insert q new).lookup p = some v) :
    (p = q ∧ v = new) ∨ (p ≠ q ∧ m.lookup p = some v) := by
  obtain rfl | hp := eq_or_ne p q
  · rw [AList.lookup_insert, Option.some.injEq] at h
    exact .inl ⟨rfl, h.symm⟩
  · rw [AList.lookup_insert_ne hp] at h
    exact .inr ⟨hp, h⟩

/-- What is new is a subscription of the tag, to its source or to what lies under it. -/
theorem subscribeToSource_cases {env : Env} {dataSubs : GoMap String Handler}
    {tagName source cipType p : String} {isUdt : Bool} {h : Handler}
    (hnew : (subscribeToSource env dataSubs tagName source cipType isUdt).lookup p = some h) :
    dataSubs.lookup p = some h ∨ (h.tagName = tagName ∧
      (p = source ∨ h = .udtMember tagName source)) := by
  have hwildcard : (dataSubs.insert (source ++ ".>") (.udtMember tagName source)).lookup p = some h →
      dataSubs.lookup p = some h ∨ (h.tagName = tagName ∧
        (p = source ∨ h = .udtMember tagName source)) := by
    intro hwild
    obtain ⟨-, rfl⟩ | ⟨-, hold⟩ := lookup_insert_cases hwild
    · exact .inr ⟨rfl, .inr rfl⟩
    · exact .inl hold
  simp only [subscribeToSource] at hnew
  split at hnew
  · split at hnew
    · exact .inl hnew
    · split at hnew
      · split at hnew
        · obtain ⟨hp, rfl⟩ | ⟨-, hwild⟩ := lookup_insert_cases hnew
          · exact .inr ⟨rfl, .inl hp⟩
          · exact hwildcard hwild
        · exact hwildcard hnew
      · exact .inl hnew
  · split at hnew
    · obtain ⟨hp, rfl⟩ | ⟨-, hold⟩ := lookup_insert_cases hnew
      · exact .inr ⟨rfl, .inl hp⟩
      · exact .inl hold
    · exact .inl hnew

/-- A source that is free and that the bus takes is subscribed to for the tag. -/
theorem subscribeToSource_serves {env : Env} {dataSubs : GoMap String Handler} {source : String}
    {isUdt : Bool} (hnone : dataSubs.lookup source = none) (haccepts : env.accepts source = true)
    (hwild : isUdt → dataSubs.lookup (source ++ ".>") = none ∧ env.accepts (source ++ ".>") = true)
    (tagName cipType : String) :
    ∃ h, (subscribeToSource env dataSubs tagName source cipType isUdt).lookup source = some h ∧
      h.tagName = tagName ∧ Serves cipType isUdt h := by
  cases isUdt with
  | false =>
    refine ⟨.scalar tagName cipType, ?_, rfl, rfl, rfl⟩
    simp [subscribeToSource, hnone, haccepts]
  | true =>
    obtain ⟨hfree, htaken⟩ := hwild rfl
    refine ⟨.udtWhole tagName, ?_, rfl, rfl⟩
    simp [subscribeToSource, hfree, htaken, haccepts,
      AList.lookup_insert_ne (ne_append_wildcard source), hnone]

variable [LetterCase]

/-- A tag that fits is tuned to its source once it is registered. -/
theorem FitsSource.tunedTo {env : Env} {dataSubs : GoMap String Handler} {tag : ServerTag}
    {e : TagEntry F32 F64} (h : FitsSource env dataSubs tag e.isUdt)
    (hcipType : e.cipType = tag.cipType) (hsource : e.source = tag.source) :
    TunedTo (subscribeToSource env dataSubs tag.name tag.source tag.cipType e.isUdt)
      (toUpper tag.name) e := by
  obtain ⟨hown, hfree, hothers⟩ := h
  constructor
  · rw [hcipType, hsource]
    cases hlookup : dataSubs.lookup tag.source with
    | none =>
      obtain ⟨haccepts, hwild⟩ := hfree hlookup
      obtain ⟨h, hnew, hname, hserves⟩ :=
        subscribeToSource_serves hlookup haccepts hwild tag.name tag.cipType
      exact ⟨h, hnew, congrArg toUpper hname, hserves⟩
    | some h =>
      obtain ⟨hname, hserves⟩ := hown h hlookup
      exact ⟨h, subscribeToSource_keeps env hlookup _ _ _ _, hname, hserves⟩
  · rw [hcipType, hsource]
    intro p h hnew hp hname hmatch
    obtain hold | ⟨-, hp' | rfl⟩ := subscribeToSource_cases hnew
    · exact hothers ⟨p, h⟩ ((mem_entries_iff dataSubs p h).mpr hold) hp hname hmatch
    · exact absurd hp' hp
    · exact .inr (trimPrefix_self_dot tag.source)

/-- The registration of one tag does not concern the others. -/
theorem TunedTo.subscribeToSource {dataSubs : GoMap String Handler} {k tagName : String}
    {e : TagEntry F32 F64} (h : TunedTo dataSubs k e) (hk : k ≠ toUpper tagName) (env : Env)
    (source cipType : String) (isUdt : Bool) :
    TunedTo (Manager.subscribeToSource env dataSubs tagName source cipType isUdt) k e := by
  obtain ⟨⟨h, hlookup, hname, hserves⟩, hharmless⟩ := h
  refine ⟨⟨h, subscribeToSource_keeps env hlookup _ _ _ _, hname, hserves⟩, ?_⟩
  intro p h' hnew hp hname' hmatch
  obtain hold | ⟨hother, -⟩ := subscribeToSource_cases hnew
  · exact hharmless p h' hold hp hname' hmatch
  · exact absurd (hname'.symm.trans (congrArg toUpper hother)) hk

/-- A registration that fits leaves every entry tuned to its source. -/
theorem Tuned.registers {env : Env} {m m' : Manager F32 F64} {tag : ServerTag}
    {e : TagEntry F32 F64} (h : Tuned m) (hregisters : Registers env m tag e m')
    (hfits : Fits env m tag) : Tuned m' := by
  constructor
  · rw [hregisters.tagDB]
    intro k e' he' hsource
    rw [hregisters.dataSubs]
    obtain ⟨rfl, rfl⟩ | ⟨hk, hold⟩ := lookup_insert_cases he'
    · rw [hregisters.source] at hsource
      rw [if_pos hsource]
      have hfits' := hfits.resolve_left hsource
      rw [← hregisters.isUdt] at hfits'
      exact hfits'.tunedTo hregisters.cipType hregisters.source
    · have htuned := h.tuned k e' hold hsource
      split
      · exact htuned.subscribeToSource hk env _ _ _
      · exact htuned
  · rw [hregisters.tagDB]
    intro k e' he' hudt
    obtain ⟨rfl, rfl⟩ | ⟨-, hold⟩ := lookup_insert_cases he'
    · exact hregisters.ownInstance hudt
    · exact hregisters.instances k (h.instances k e' hold hudt)

variable [GoFloats F32 F64]

omit [LetterCase] [GoFloats F32 F64] in
theorem instances_registerTypes (udts : List ServerUdt) (db : UdtDatabase F32 F64) :
    (udts.foldl UdtDatabase.registerType db).instances = db.instances := by
  induction udts generalizing db with
  | nil => rfl
  | cons udt udts ih => exact ih (db.registerType udt)

/-- A whole request keeps the tags tuned, if each of them fits when its turn comes. -/
theorem Tuned.registerTags {env : Env} {m : Manager F32 F64} (h : Tuned m)
    {req : ServerSubscribeRequest}
    (hfits : Runs.Meets (registerTag env) (Fits env) (m.storeRequest req) req.tags) :
    Tuned ((m.storeRequest req).registerTags env req.tags).1 := by
  have hstored : Tuned (m.storeRequest req) := by
    refine ⟨h.tuned, ?_⟩
    simp only [storeRequest, instances_registerTypes]
    exact h.instances
  refine Runs.run_invariant ?_ hstored hfits (run_registerTag env _ _)
  intro m tag m' hm htag hstep
  obtain ⟨e, hregisters⟩ := registers_of_registerTag hstep
  exact hm.registers hregisters htag

omit [GoFloats F32 F64] in
/-- What neither the tags nor the subscriptions move keeps them tuned. -/
theorem Tuned.kept {m m' : Manager F32 F64} (h : Tuned m) (hkept : Kept m m') : Tuned m' := by
  constructor
  · intro k e he hsource
    obtain ⟨v, hv⟩ := hkept.symm.value he
    have htuned := h.tuned k _ hv hsource
    rw [hkept.dataSubs]
    exact ⟨htuned.served, htuned.harmless⟩
  · intro k e he hudt
    obtain ⟨v, hv⟩ := hkept.symm.value he
    have hinst := h.instances k _ hv hudt
    rw [hkept.instances k]
    exact hinst

/-- One step keeps the tags tuned if it fits. -/
theorem tuned_step {env : Env} {m m' : Manager F32 F64} {a : Action F32 F64} (h : Tuned m)
    (hfits : StepFits env m a) (hstep : step env m a = some m') : Tuned m' := by
  cases a with
  | subscribe req =>
    cases hstep
    cases req with
    | error err => exact h
    | ok req =>
      simp only [handleSubscribe]
      split
      · exact h
      next hid =>
        have htags := h.registerTags (hfits hid)
        split
        · exact htags
        · split
          · exact htags
          · exact ⟨htags.tuned, htags.instances⟩
  | unsubscribe req =>
    cases hstep
    cases req with
    | error err => exact h
    | ok subscriberID =>
      simp only [handleUnsubscribe]
      split
      · exact h
      next hknown =>
        split
        next hempty =>
          have hnone : ∀ x ∈ m.tagDB.entries, x.2.source = "" := by
            obtain hunknown | hothers | hnone := hfits
            · exact absurd (Option.isNone_iff_eq_none.mpr hunknown) hknown
            · exact absurd hempty hothers
            · exact hnone
          refine ⟨?_, h.instances⟩
          intro k e he hsource
          exact absurd (hnone ⟨k, e⟩ ((mem_entries_iff m.tagDB k e).mpr he)) hsource
        · exact ⟨h.tuned, h.instances⟩
  | message msg schedule =>
    simp only [step] at hstep
    split at hstep
    · cases hstep
      exact h.kept (kept_deliver msg m schedule)
    · cases hstep
  | write tag value =>
    simp only [step] at hstep
    split at hstep
    · cases hstep
      exact h
    next hwrite =>
      cases hstep
      exact h.kept (kept_tagWrite hwrite)

/-- In every state of a run whose steps fit, each message on the source of a registered tag gives
the tag its value in the tag's own type. -/
theorem fansOut_of_meets (env : Env) {as : List (Action F32 F64)} {m : Manager F32 F64}
    (hfits : Runs.Meets (step env) (StepFits env) {} as)
    (hrun : Runs.run (step env) {} as = some m) : FansOut m := by
  apply fansOut_of_tuned
  refine Runs.run_invariant (fun _ _ _ hm hok hstep => tuned_step hm hok hstep) ?_ hfits hrun
  constructor
  · intro k e he
    cases he
  · intro k e he
    cases he

end Registrations

/-- A pump and a timer, each with its own subject. The pump is registered again in other letters,
and messages come in between. -/
def pumpAndTimer : List (Action ℚ ℚ) :=
  [.subscribe (.ok {
      subscriberID := "plc"
      tags := [{ name := "Pump", cipType := "DINT", source := "plc.data.pump" },
        { name := "Delay", cipType := "TIMER", source := "plc.data.delay" }]
      udts := [{ name := "TIMER", members := [{ name := "ACC", cipType := "DINT" }] }] }),
    .message ⟨"plc.data.delay", some (.object [("ACC", .number 3)])⟩
      [("plc.data.delay", ["ACC"]), ("plc.data.pump", ["ACC"]), ("plc.data.delay.>", ["ACC"])],
    .subscribe (.ok {
      subscriberID := "plc"
      tags := [{ name := "PUMP", cipType := "DINT", source := "plc.data.pump", writable := true }] })]

theorem fansOut_of_meets_pump : Runs.Meets (step {}) (StepFits {}) {} pumpAndTimer ∧
    ∃ m, Runs.run (step {}) {} pumpAndTimer = some m ∧ FansOut m := by
  have hfits : Runs.Meets (step {}) (StepFits {}) {} pumpAndTimer := by decide +kernel
  have hruns : (Runs.run (step {}) {} pumpAndTimer).isSome := by decide +kernel
  obtain ⟨m, hrun⟩ := Option.isSome_iff_exists.mp hruns
  exact ⟨hfits, m, hrun, fansOut_of_meets {} hfits hrun⟩

/-- Two tags of one source. -/
def shared : List (Action ℚ ℚ) :=
  [.subscribe (.ok {
    subscriberID := "plc"
    tags := [{ name := "Pump", cipType := "DINT", source := "plc.data.pump" },
      { name := "Running", cipType := "BOOL", source := "plc.data.pump" }] })]

def withShared : Manager ℚ ℚ := (Runs.run (step {}) {} shared).getD {}

/-- A message on the shared source does not reach the second tag. -/
theorem not_fansOut_shared : Runs.run (step {}) {} shared = some withShared ∧
    (withShared.deliver ⟨"plc.data.pump", some (.bool true)⟩ [("plc.data.pump", [])]).tagRead
      "Running" = .ok (.bool false) ∧
    ¬ FansOut withShared := by
  refine ⟨rfl, rfl, ?_⟩
  intro h
  have hmessage := h "RUNNING" (newEntry false {}
    { name := "Running", cipType := "BOOL", source := "plc.data.pump" }) rfl (by decide)
    (.bool true) [("plc.data.pump", [])] (by decide +kernel)
  obtain ⟨order, -, hrunning⟩ := hmessage
  have hvalue : (some (.bool false) : Option (Value ℚ ℚ)) = some (.bool true) :=
    congrArg (Option.map TagEntry.value) hrunning
  cases hvalue

end EthernetIpServer
