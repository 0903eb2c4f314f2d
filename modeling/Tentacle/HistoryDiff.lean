import Mathlib.Data.List.Dedup
import Tentacle.ManifestDiff
import Tentacle.IeeeFloat

/-!
# The diff of two commits

`diffResources` compares the resources of two commits. It knows all kinds but one, and it compares
specs twice: by their JSON texts, which are exact, and then field by field as `any`, where numbers
are `float64`. What the second comparison cannot tell apart is reported as unchanged.
-/

namespace HistoryDiff

open GoValues JsonCodec Manifest Std

inductive Action where
  | added
  | removed
  | modified
  | unchanged
  deriving DecidableEq, Repr

structure FieldDiff where
  path : String
  action : Action
  oldValue : Option Doc := none
  newValue : Option Doc := none

structure HistoryDiffChange where
  kind : String
  name : String
  action : Action
  fields : List FieldDiff := []

structure DiffSummary where
  added : Nat
  modified : Nat
  removed : Nat
  unchanged : Nat

structure HistoryDiffResult where
  changes : List HistoryDiffChange
  summary : DiffSummary

/-! ## Decoding to `any` -/

/-- The `float64` next to a number. -/
def toFloat64 (x : ℚ) : ℚ :=
  if x < 0 then -IeeeFloat.binary64.value (IeeeFloat.binary64.round (-x))
  else IeeeFloat.binary64.value (IeeeFloat.binary64.round x)

mutual

/-- What `json.Unmarshal` makes of a text in a value of type `any`. -/
def unmarshalAny : Doc → Doc
  | .number x => .number (toFloat64 x)
  | .array elems => .array (unmarshalElems elems)
  | .object fields => .object (unmarshalFields fields)
  | j => j

def unmarshalElems : List Doc → List Doc
  | [] => []
  | j :: elems => unmarshalAny j :: unmarshalElems elems

def unmarshalFields : List (String × Doc) → List (String × Doc)
  | [] => []
  | (k, j) :: fields => (k, unmarshalAny j) :: unmarshalFields fields

end

/-! ## Fields -/

/-- Large maps and slices are given by their size. -/
def simplifyValue : Doc → Doc
  | .object fields =>
    if fields.length ≤ 3 then .object fields
    else .string ("\x7b" ++ toString fields.length ++ " keys\x7d")
  | .array elems =>
    if elems.length ≤ 3 then .array elems else .string ("[" ++ toString elems.length ++ " items]")
  | v => v

/-- The keys of both maps, sorted. -/
def sortedKeys (a b : List (String × Doc)) : List String :=
  ((a ++ b).map Prod.fst).dedup.insertionSort (· ≤ ·)

def fieldPath (parent k : String) : String := if parent = "" then k else parent ++ "." ++ k

/-- A field that is found is one of the list. -/
theorem mem_of_lookup {fields : List (String × Doc)} {k : String} {j : Doc}
    (h : fields.lookup k = some j) : (k, j) ∈ fields := by
  induction fields with
  | nil => cases h
  | cons f fields ih =>
    obtain ⟨k', j'⟩ := f
    rw [List.lookup_cons] at h
    split at h
    next heq =>
      rw [Option.some.injEq] at h
      rw [h, beq_iff_eq.mp heq]
      exact List.mem_cons_self
    next => exact List.mem_cons_of_mem _ (ih h)

theorem sizeOf_lookup_lt {fields child : List (String × Doc)} {k : String}
    (h : fields.lookup k = some (.object child)) : sizeOf child < sizeOf fields := by
  have hlt := List.sizeOf_lt_of_mem (mem_of_lookup h)
  simp only [Prod.mk.sizeOf_spec, Json.object.sizeOf_spec] at hlt
  omega

/-- Two values that are not both maps are compared by their texts. -/
def diffMaps (a b : List (String × Doc)) (parent : String) : List FieldDiff :=
  (sortedKeys a b).flatMap fun k =>
    match _ha : a.lookup k, b.lookup k with
    | none, bVal =>
      [{ path := fieldPath parent k, action := .added, newValue := bVal.map simplifyValue }]
    | some aVal, none =>
      [{ path := fieldPath parent k, action := .removed, oldValue := some (simplifyValue aVal) }]
    | some (.object aChild), some (.object bChild) => diffMaps aChild bChild (fieldPath parent k)
    | some aVal, some bVal =>
      if aVal ≠ bVal then
        [{ path := fieldPath parent k, action := .modified, oldValue := some (simplifyValue aVal),
           newValue := some (simplifyValue bVal) }]
      else []
termination_by sizeOf a
decreasing_by exact sizeOf_lookup_lt _ha

def deepFieldDiff (a b : Doc) (parent : String) : List FieldDiff :=
  if a = b then []
  else
    match unmarshalAny a, unmarshalAny b with
    | .object aMap, .object bMap => diffMaps aMap bMap parent
    | _, _ =>
      [{ path := if parent = "" then "value" else parent
         action := .modified
         oldValue := some (simplifyValue a)
         newValue := some (simplifyValue b) }]

/-! ## Resources -/

/-- A resource of a PLC has no case. -/
def resourceKind (r : Resource) : String :=
  match r.kind with
  | .plc => ""
  | kind => kind.text

def resourceName (r : Resource) : String :=
  match r.kind with
  | .plc => ""
  | _ => r.name

def resourceKey (r : Resource) : String :=
  if resourceKind r = "" ∨ resourceName r = "" then ""
  else resourceKind r ++ "/" ++ resourceName r

def buildResourceMap (resources : List Resource) : StrMap Resource :=
  writeAll ∅ (resources.filterMap fun r =>
    if resourceKey r = "" then none else some (resourceKey r, r))

/-- `strings.SplitN(key, "/", 2)`. -/
def splitResourceKey (key : String) : String × String :=
  match key.toList.dropWhile (· ≠ '/') with
  | [] => (key, "")
  | _ :: name => (String.ofList (key.toList.takeWhile (· ≠ '/')), String.ofList name)

/-- A round of the loop over the resources of the second list. -/
def diffTo (fromMap : StrMap Resource) (key : String) (toRes : Resource) : HistoryDiffChange :=
  let (kind, name) := splitResourceKey key
  match fromMap[key]? with
  | none => { kind, name, action := .added }
  | some fromRes =>
    let fields := deepFieldDiff fromRes.spec.encode toRes.spec.encode ""
    if fields ≠ [] then { kind, name, action := .modified, fields }
    else { kind, name, action := .unchanged }

/-- A round of the loop over the resources of the first list. -/
def diffFrom (toMap : StrMap Resource) (key : String) : Option HistoryDiffChange :=
  let (kind, name) := splitResourceKey key
  if toMap[key]?.isSome then none else some { kind, name, action := .removed }

def sortChanges (changes : List HistoryDiffChange) : List HistoryDiffChange :=
  changes.insertionSort fun c c' => c.kind < c'.kind ∨ c.kind = c'.kind ∧ c.name ≤ c'.name

def diffResources (fromResources toResources : List Resource) : HistoryDiffResult :=
  let fromMap := buildResourceMap fromResources
  let toMap := buildResourceMap toResources
  let changes := toMap.toList.map (fun e => diffTo fromMap e.1 e.2) ++
    fromMap.toList.filterMap fun e => diffFrom toMap e.1
  { changes := sortChanges changes
    summary :=
      { added := changes.countP (·.action = .added)
        modified := changes.countP (·.action = .modified)
        removed := changes.countP (·.action = .removed)
        unchanged := changes.countP (·.action = .unchanged) } }

/-! ## Maps that have the same fields -/

/-- The fields of a map, each once, sorted by their keys. -/
def Sorted (fields : List (String × Doc)) : Prop :=
  fields.Pairwise fun f f' => compare f.1 f'.1 = .lt

/-- An object is canonical when its keys are sorted and its fields are canonical. -/
theorem canonical_object_iff {fields : List (String × Doc)} :
    Canonical (.object fields) ↔ Sorted fields ∧ ∀ f ∈ fields, Canonical f.2 := by
  constructor
  · intro h
    rw [Canonical, isCanonical, Bool.and_eq_true, decide_eq_true_iff] at h
    obtain ⟨hsorted, hfields⟩ := h
    refine ⟨hsorted, ?_⟩
    clear hsorted
    induction fields with
    | nil =>
      intro f hf
      cases hf
    | cons f fields ih =>
      rw [fieldsCanonical, Bool.and_eq_true] at hfields
      intro f' hf'
      obtain rfl | hf' := List.mem_cons.mp hf'
      · exact hfields.1
      · exact ih hfields.2 f' hf'
  · rintro ⟨hsorted, hfields⟩
    exact canonical_object hsorted hfields

theorem Sorted.nodup {fields : List (String × Doc)} (h : Sorted fields) :
    (fields.map Prod.fst).Nodup := by
  rw [List.Nodup, List.pairwise_map]
  refine h.imp ?_
  intro f f' hlt heq
  rw [heq, ReflOrd.compare_self] at hlt
  cases hlt

/-- In sorted fields each key is found with its own value. -/
theorem Sorted.lookup_iff {fields : List (String × Doc)} (h : Sorted fields) (k : String)
    (j : Doc) : fields.lookup k = some j ↔ (k, j) ∈ fields := by
  refine ⟨mem_of_lookup, ?_⟩
  intro hmem
  induction fields with
  | nil => cases hmem
  | cons f fields ih =>
    obtain ⟨k', j'⟩ := f
    rw [List.lookup_cons]
    obtain hhead | htail := List.mem_cons.mp hmem
    · cases hhead
      rw [beq_self_eq_true]
    · have hne : (k == k') = false := by
        rw [beq_eq_false_iff_ne]
        rintro rfl
        have hnodup := h.nodup
        rw [List.map_cons, List.nodup_cons] at hnodup
        exact hnodup.1 (List.mem_map.mpr ⟨_, htail, rfl⟩)
      rw [hne]
      exact ih (List.pairwise_cons.mp h).2 htail

/-- Two sorted maps in which every key has the same value are the same. -/
theorem Sorted.ext {a b : List (String × Doc)} (ha : Sorted a) (hb : Sorted b)
    (h : ∀ k, a.lookup k = b.lookup k) : a = b := by
  have hmem : ∀ f, f ∈ a ↔ f ∈ b := by
    rintro ⟨k, j⟩
    rw [← ha.lookup_iff, ← hb.lookup_iff, h]
  have hperm : a.Perm b :=
    (List.perm_ext_iff_of_nodup ha.nodup.of_map hb.nodup.of_map).mpr hmem
  refine hperm.eq_of_pairwise ?_ ha hb
  intro f f' _ _ hlt hgt
  rw [OrientedOrd.eq_swap, hlt] at hgt
  cases hgt

theorem mem_sortedKeys {a b : List (String × Doc)} {k : String} :
    k ∈ sortedKeys a b ↔ k ∈ a.map Prod.fst ∨ k ∈ b.map Prod.fst := by
  rw [sortedKeys, List.mem_insertionSort, List.mem_dedup, List.map_append, List.mem_append]

theorem lookup_eq_none_iff {fields : List (String × Doc)} {k : String} :
    fields.lookup k = none ↔ k ∉ fields.map Prod.fst := by
  rw [List.lookup_eq_none_iff]
  simp only [List.mem_map, not_exists, not_and, bne_iff_ne, ne_eq]
  exact ⟨fun h f hf hk => h f hf hk.symm, fun h f hf hk => h f hf hk.symm⟩

theorem unmarshalFields_eq (fields : List (String × Doc)) :
    unmarshalFields fields = fields.map fun f => (f.1, unmarshalAny f.2) := by
  induction fields with
  | nil => rfl
  | cons f fields ih => rw [unmarshalFields, ih, List.map_cons]

theorem sorted_unmarshalFields {fields : List (String × Doc)} (h : Sorted fields) :
    Sorted (unmarshalFields fields) := by
  rw [unmarshalFields_eq, Sorted, List.pairwise_map]
  exact h

mutual

/-- Reading numbers as `float64` leaves a document canonical. -/
theorem isCanonical_unmarshalAny {j : Doc} (h : isCanonical j) : isCanonical (unmarshalAny j) := by
  cases j with
  | array elems =>
    rw [isCanonical] at h
    rw [unmarshalAny, isCanonical]
    exact allCanonical_unmarshalElems h
  | object fields =>
    rw [isCanonical, Bool.and_eq_true, decide_eq_true_iff] at h
    rw [unmarshalAny, isCanonical, Bool.and_eq_true, decide_eq_true_iff]
    exact ⟨sorted_unmarshalFields h.1, fieldsCanonical_unmarshalFields h.2⟩
  | null => rfl
  | bool b => rfl
  | number x => rfl
  | string s => rfl

theorem allCanonical_unmarshalElems {elems : List Doc} (h : allCanonical elems) :
    allCanonical (unmarshalElems elems) := by
  cases elems with
  | nil => rfl
  | cons j elems =>
    rw [allCanonical, Bool.and_eq_true] at h
    rw [unmarshalElems, allCanonical, Bool.and_eq_true]
    exact ⟨isCanonical_unmarshalAny h.1, allCanonical_unmarshalElems h.2⟩

theorem fieldsCanonical_unmarshalFields {fields : List (String × Doc)}
    (h : fieldsCanonical fields) : fieldsCanonical (unmarshalFields fields) := by
  cases fields with
  | nil => rfl
  | cons f fields =>
    obtain ⟨k, j⟩ := f
    rw [fieldsCanonical, Bool.and_eq_true] at h
    rw [unmarshalFields, fieldsCanonical, Bool.and_eq_true]
    exact ⟨isCanonical_unmarshalAny h.1, fieldsCanonical_unmarshalFields h.2⟩

end

theorem canonical_unmarshalAny {j : Doc} (h : Canonical j) : Canonical (unmarshalAny j) :=
  isCanonical_unmarshalAny h

/-- Nothing is reported exactly for maps that are the same. -/
theorem diffMaps_eq_nil_iff {a b : List (String × Doc)} (ha : Canonical (.object a))
    (hb : Canonical (.object b)) (parent : String) : diffMaps a b parent = [] ↔ a = b := by
  obtain ⟨hasorted, hafields⟩ := canonical_object_iff.mp ha
  obtain ⟨hbsorted, hbfields⟩ := canonical_object_iff.mp hb
  rw [diffMaps, List.flatMap_eq_nil_iff]
  constructor
  · intro h
    refine hasorted.ext hbsorted ?_
    intro k
    by_cases hk : k ∈ sortedKeys a b
    · have hround := h k hk
      split at hround
      next => cases hround
      next => cases hround
      next aChild bChild haval hbval =>
        have hacanon := hafields _ (mem_of_lookup haval)
        have hbcanon := hbfields _ (mem_of_lookup hbval)
        rw [haval, hbval, (diffMaps_eq_nil_iff hacanon hbcanon _).mp hround]
      next aVal bVal _ haval hbval =>
        split at hround
        next => cases hround
        next hsame => rw [haval, hbval, not_not.mp hsame]
    · rw [mem_sortedKeys, not_or] at hk
      rw [lookup_eq_none_iff.mpr hk.1, lookup_eq_none_iff.mpr hk.2]
  · rintro rfl k hk
    split
    next bVal haval =>
      rw [mem_sortedKeys, or_self] at hk
      exact absurd hk (lookup_eq_none_iff.mp haval)
    next haval hbval =>
      rw [haval] at hbval
      cases hbval
    next aChild bChild haval hbval =>
      rw [haval] at hbval
      cases hbval
      have hacanon := hafields _ (mem_of_lookup haval)
      exact (diffMaps_eq_nil_iff hacanon hacanon _).mpr rfl
    next aVal bVal _ haval hbval =>
      rw [haval] at hbval
      cases hbval
      rw [if_neg (not_not.mpr rfl)]
termination_by sizeOf a
decreasing_by
  · exact sizeOf_lookup_lt (by assumption)
  · exact sizeOf_lookup_lt (by assumption)

theorem encode_eq_object (spec : Spec) : ∃ fields, spec.encode = .object fields := by
  cases spec <;> exact ⟨_, rfl⟩

/-- A spec is reported as changed exactly when its texts differ as trees of `any`. -/
theorem deepFieldDiff_encode_eq_nil_iff (spec spec' : Spec) (parent : String) :
    deepFieldDiff spec.encode spec'.encode parent = [] ↔
      unmarshalAny spec.encode = unmarshalAny spec'.encode := by
  rw [deepFieldDiff]
  split
  next hsame => rw [hsame]; exact iff_of_true rfl rfl
  next =>
    have hcanon := canonical_unmarshalAny (canonical_encode spec)
    have hcanon' := canonical_unmarshalAny (canonical_encode spec')
    obtain ⟨a, ha⟩ := encode_eq_object spec
    obtain ⟨b, hb⟩ := encode_eq_object spec'
    rw [ha, unmarshalAny] at hcanon ⊢
    rw [hb, unmarshalAny] at hcanon' ⊢
    dsimp only
    rw [diffMaps_eq_nil_iff hcanon hcanon', Json.object.injEq]

/-! ## The resources of a list -/

/-- The resource has a kind that the diff knows, and a name. -/
def Visible (r : Resource) : Prop := r.kind ≠ .plc ∧ r.name ≠ ""

/-- The resource that is reported under a kind and a name. -/
def Is (kind name : String) (r : Resource) : Prop := r.kind.text = kind ∧ r.name = name

theorem Is.visible {kind name : String} {r r' : Resource} (h : Is kind name r)
    (h' : Is kind name r') (hvisible : Visible r) : Visible r' := by
  have hkind : r'.kind = r.kind := Option.some.inj (by
    rw [← knownKind_text, ← knownKind_text, h'.1, h.1])
  have hname : r'.name = r.name := h'.2.trans h.2.symm
  rw [Visible, hkind, hname]
  exact hvisible

theorem Visible.resourceKey {r : Resource} (h : Visible r) :
    resourceKey r = r.kind.text ++ "/" ++ r.name := by
  obtain ⟨hkind, hname⟩ := h
  cases hk : r.kind with
  | plc => exact absurd hk hkind
  | _ => simp [HistoryDiff.resourceKey, resourceKind, resourceName, hk, hname, Kind.text]

/-- The empty key is that of the resources that the diff does not see. -/
theorem resourceKey_ne_empty_iff (r : Resource) : resourceKey r ≠ "" ↔ Visible r := by
  constructor
  · intro h
    constructor
    · intro hkind
      exact h (by simp [resourceKey, resourceKind, hkind])
    · intro hname
      exact h (by cases hk : r.kind <;> simp [resourceKey, resourceName, hk, hname])
  · intro h hempty
    rw [h.resourceKey, String.append_eq_empty_iff] at hempty
    exact h.2 hempty.2

/-- A key is split at its first slash, and no kind has one. -/
theorem splitResourceKey_eq (kind : Kind) (name : String) :
    splitResourceKey (kind.text ++ "/" ++ name) = (kind.text, name) := by
  have hchars : (kind.text ++ "/" ++ name).toList = kind.text.toList ++ '/' :: name.toList := by
    simp
  have hne : ∀ c ∈ kind.text.toList, decide (c ≠ '/') = true := by
    intro c hc
    rw [decide_eq_true_iff]
    rintro rfl
    exact kind.text_not_slash hc
  rw [splitResourceKey, hchars, List.dropWhile_append_of_pos hne, List.takeWhile_append_of_pos hne]
  simp

/-- A key names the kind and the name of its resource, and nothing else. -/
theorem resourceKey_eq_iff {r : Resource} (h : Visible r) (kind : Kind) (name : String) :
    resourceKey r = kind.text ++ "/" ++ name ↔ Is kind.text name r := by
  rw [h.resourceKey]
  constructor
  · intro heq
    have hsplit := congrArg splitResourceKey heq
    rw [splitResourceKey_eq, splitResourceKey_eq, Prod.mk.injEq] at hsplit
    exact hsplit
  · rintro ⟨hkind, hname⟩
    rw [hkind, hname]

/-- No two resources of the list have the same kind and name. -/
def DistinctIds (resources : List Resource) : Prop :=
  (resources.map fun r => (r.kind, r.name)).Nodup

theorem DistinctIds.eq_of_is {resources : List Resource} (h : DistinctIds resources)
    {kind name : String} {r r' : Resource} (hr : r ∈ resources) (hr' : r' ∈ resources)
    (his : Is kind name r) (his' : Is kind name r') : r = r' := by
  refine List.inj_on_of_nodup_map h hr hr' ?_
  have hkind : r.kind = r'.kind := Option.some.inj (by
    rw [← knownKind_text, ← knownKind_text, his'.1, his.1])
  rw [hkind, his.2, his'.2]

/-- The map holds each visible resource under its key. -/
theorem getElem?_buildResourceMap {resources : List Resource} (h : DistinctIds resources)
    (key : String) (r : Resource) :
    (buildResourceMap resources)[key]? = some r ↔
      r ∈ resources ∧ Visible r ∧ key = resourceKey r := by
  have hwrite : ∀ w, w ∈ (resources.filterMap fun r =>
      if resourceKey r = "" then none else some (resourceKey r, r)) ↔
        w.2 ∈ resources ∧ Visible w.2 ∧ w.1 = resourceKey w.2 := by
    rintro ⟨key, r⟩
    dsimp only
    rw [List.mem_filterMap]
    constructor
    · rintro ⟨r', hr', heq⟩
      split at heq
      next => cases heq
      next hkey =>
        cases heq
        exact ⟨hr', (resourceKey_ne_empty_iff r).mp hkey, rfl⟩
    · rintro ⟨hr, hvisible, rfl⟩
      exact ⟨r, hr, if_neg ((resourceKey_ne_empty_iff r).mpr hvisible)⟩
  have hconsistent : Consistent (resources.filterMap fun r =>
      if resourceKey r = "" then none else some (resourceKey r, r)) := by
    intro w hw w' hw' hkey
    obtain ⟨hr, hvisible, hw⟩ := (hwrite w).mp hw
    obtain ⟨hr', hvisible', hw'⟩ := (hwrite w').mp hw'
    have hsame : resourceKey w.2 = w'.2.kind.text ++ "/" ++ w'.2.name := by
      rw [← hvisible'.resourceKey, ← hw, ← hw', hkey]
    exact h.eq_of_is hr hr' ((resourceKey_eq_iff hvisible _ _).mp hsame) ⟨rfl, rfl⟩
  rw [buildResourceMap, hconsistent.getElem?_writeAll_empty, hwrite]

/-! ## What is reported -/

/-- What is to be said of one kind and name, by the resources that two lists have for it. -/
def Expected (old new : Resource → Prop) (same : Resource → Resource → Prop) : Action → Prop
  | .added => (∃ r, new r) ∧ ¬∃ r, old r
  | .removed => (∃ r, old r) ∧ ¬∃ r, new r
  | .unchanged => ∃ r r', old r ∧ new r' ∧ same r r'
  | .modified => ∃ r r', old r ∧ new r' ∧ ¬same r r'

def Reports (changes : List HistoryDiffChange) (kind name : String) (action : Action) : Prop :=
  ∃ c ∈ changes, c.kind = kind ∧ c.name = name ∧ c.action = action

/-- The resource is in the list, and the diff sees it there. -/
def Listed (resources : List Resource) (kind name : String) (r : Resource) : Prop :=
  r ∈ resources ∧ Visible r ∧ Is kind name r

/-- The specs have the same text as trees of `any`. -/
def SameAny (r r' : Resource) : Prop := unmarshalAny r.spec.encode = unmarshalAny r'.spec.encode

instance (r r' : Resource) : Decidable (SameAny r r') := inferInstanceAs (Decidable (_ = _))

section Reporting

variable {fromResources toResources : List Resource}

/-- A key that is missing is that of a resource that the other list does not have. -/
theorem getElem?_eq_none_iff (h : DistinctIds fromResources) {r' : Resource} (hr' : Visible r') :
    (buildResourceMap fromResources)[resourceKey r']? = none ↔
      ¬∃ r, Listed fromResources r'.kind.text r'.name r := by
  rw [Option.eq_none_iff_forall_ne_some, not_exists]
  refine forall_congr' fun r => not_congr ?_
  rw [getElem?_buildResourceMap h, Listed, hr'.resourceKey]
  refine and_congr_right fun _ => and_congr_right fun hr => ?_
  rw [eq_comm]
  exact resourceKey_eq_iff hr r'.kind r'.name

theorem listed_of_getElem? (h : DistinctIds fromResources) {r r' : Resource} (hr' : Visible r')
    (hlookup : (buildResourceMap fromResources)[resourceKey r']? = some r) :
    Listed fromResources r'.kind.text r'.name r := by
  obtain ⟨hmem, hr, hkey⟩ := (getElem?_buildResourceMap h _ r).mp hlookup
  rw [hr'.resourceKey] at hkey
  exact ⟨hmem, hr, (resourceKey_eq_iff hr _ _).mp hkey.symm⟩

theorem getElem?_of_listed (h : DistinctIds fromResources) {r r' : Resource} (hr' : Visible r')
    (hr : Listed fromResources r'.kind.text r'.name r) :
    (buildResourceMap fromResources)[resourceKey r']? = some r := by
  obtain ⟨hmem, hvisible, his⟩ := hr
  refine (getElem?_buildResourceMap h _ r).mpr ⟨hmem, hvisible, ?_⟩
  rw [hr'.resourceKey]
  exact ((resourceKey_eq_iff hvisible _ _).mpr his).symm

/-- A resource of the new list is added, unchanged or modified, by what stands under its key. -/
theorem diffTo_spec (fromMap : StrMap Resource) {r' : Resource} (h : Visible r') :
    (diffTo fromMap (resourceKey r') r').kind = r'.kind.text ∧
      (diffTo fromMap (resourceKey r') r').name = r'.name ∧
      (diffTo fromMap (resourceKey r') r').action =
        match fromMap[resourceKey r']? with
        | none => .added
        | some r => if SameAny r r' then .unchanged else .modified := by
  have hsplit : splitResourceKey (resourceKey r') = (r'.kind.text, r'.name) := by
    rw [h.resourceKey, splitResourceKey_eq]
  rw [diffTo, hsplit]
  cases fromMap[resourceKey r']? with
  | none => exact ⟨rfl, rfl, rfl⟩
  | some r =>
    have hiff := deepFieldDiff_encode_eq_nil_iff r.spec r'.spec ""
    by_cases hsame : SameAny r r'
    · simp only [hiff.mpr hsame, ne_eq, not_true_eq_false, if_false, hsame, if_true, and_self]
    · have hne := mt hiff.mp hsame
      simp only [ne_eq, hne, not_false_eq_true, if_true, hsame, if_false, and_self]

/-- A resource of the old list is reported where the new one has no such key. -/
theorem diffFrom_eq_some_iff (toMap : StrMap Resource) {r : Resource} (h : Visible r)
    (c : HistoryDiffChange) :
    diffFrom toMap (resourceKey r) = some c ↔
      toMap[resourceKey r]? = none ∧
        c = { kind := r.kind.text, name := r.name, action := .removed } := by
  have hsplit : splitResourceKey (resourceKey r) = (r.kind.text, r.name) := by
    rw [h.resourceKey, splitResourceKey_eq]
  rw [diffFrom, hsplit]
  cases toMap[resourceKey r]? with
  | none => simp [eq_comm]
  | some r' => simp

/-- The changes are those of the new list and the removals of the old one. -/
theorem mem_changes_iff (hfrom : DistinctIds fromResources) (hto : DistinctIds toResources)
    (c : HistoryDiffChange) :
    c ∈ (diffResources fromResources toResources).changes ↔
      (∃ r' ∈ toResources, Visible r' ∧
        c = diffTo (buildResourceMap fromResources) (resourceKey r') r') ∨
      ∃ r ∈ fromResources, Visible r ∧
        diffFrom (buildResourceMap toResources) (resourceKey r) = some c := by
  rw [diffResources, sortChanges, List.mem_insertionSort, List.mem_append, List.mem_map,
    List.mem_filterMap]
  simp only [Prod.exists, ExtTreeMap.mem_toList_iff_getElem?_eq_some,
    getElem?_buildResourceMap hfrom, getElem?_buildResourceMap hto]
  refine or_congr ?_ ?_
  · constructor
    · rintro ⟨_, r', ⟨hmem, hvisible, rfl⟩, rfl⟩
      exact ⟨r', hmem, hvisible, rfl⟩
    · rintro ⟨r', hmem, hvisible, rfl⟩
      exact ⟨_, r', ⟨hmem, hvisible, rfl⟩, rfl⟩
  · constructor
    · rintro ⟨_, r, ⟨hmem, hvisible, rfl⟩, hc⟩
      exact ⟨r, hmem, hvisible, hc⟩
    · rintro ⟨r, hmem, hvisible, hc⟩
      exact ⟨_, r, ⟨hmem, hvisible, rfl⟩, hc⟩

/-- The diff says what is to be said of the resources that it sees, and takes specs to be the same
when their trees of `any` are. -/
theorem reports_iff (hfrom : DistinctIds fromResources) (hto : DistinctIds toResources)
    (kind name : String) (action : Action) :
    Reports (diffResources fromResources toResources).changes kind name action ↔
      Expected (Listed fromResources kind name) (Listed toResources kind name) SameAny action := by
  constructor
  · rintro ⟨c, hc, rfl, rfl, rfl⟩
    obtain ⟨r', hmem', hr', rfl⟩ | ⟨r, hmem, hr, hc⟩ := (mem_changes_iff hfrom hto c).mp hc
    · obtain ⟨hkind, hname, haction⟩ := diffTo_spec (buildResourceMap fromResources) hr'
      rw [hkind, hname, haction]
      have hnew : Listed toResources r'.kind.text r'.name r' := ⟨hmem', hr', rfl, rfl⟩
      cases hlookup : (buildResourceMap fromResources)[resourceKey r']? with
      | none => exact ⟨⟨r', hnew⟩, (getElem?_eq_none_iff hfrom hr').mp hlookup⟩
      | some r =>
        have hold := listed_of_getElem? hfrom hr' hlookup
        dsimp only
        split
        next hsame => exact ⟨r, r', hold, hnew, hsame⟩
        next hsame => exact ⟨r, r', hold, hnew, hsame⟩
    · obtain ⟨hnone, rfl⟩ := (diffFrom_eq_some_iff _ hr c).mp hc
      exact ⟨⟨r, hmem, hr, rfl, rfl⟩, (getElem?_eq_none_iff hto hr).mp hnone⟩
  · -- the change is the one that the loop over the second list makes, or else over the first
    have hreport : ∀ {r' : Resource}, Listed toResources kind name r' →
        ∀ {lookup : Option Resource}, (buildResourceMap fromResources)[resourceKey r']? = lookup →
        (match lookup with
          | none => Action.added
          | some r => if SameAny r r' then .unchanged else .modified) = action →
        Reports (diffResources fromResources toResources).changes kind name action := by
      rintro r' ⟨hmem', hr', rfl, rfl⟩ lookup hlookup haction
      obtain ⟨hkind, hname, hspec⟩ := diffTo_spec (buildResourceMap fromResources) hr'
      refine ⟨_, (mem_changes_iff hfrom hto _).mpr (.inl ⟨r', hmem', hr', rfl⟩), hkind, hname, ?_⟩
      rw [hspec, hlookup]
      exact haction
    intro h
    cases action with
    | added =>
      obtain ⟨⟨r', hnew⟩, hold⟩ := h
      refine hreport hnew ((getElem?_eq_none_iff hfrom hnew.2.1).mpr ?_) rfl
      rw [hnew.2.2.1, hnew.2.2.2]
      exact hold
    | removed =>
      obtain ⟨⟨r, hmem, hr, rfl, rfl⟩, hnew⟩ := h
      exact ⟨_, (mem_changes_iff hfrom hto _).mpr (.inr ⟨r, hmem, hr,
        (diffFrom_eq_some_iff _ hr _).mpr ⟨(getElem?_eq_none_iff hto hr).mpr hnew, rfl⟩⟩),
        rfl, rfl, rfl⟩
    | unchanged =>
      obtain ⟨r, r', hold, hnew, hsame⟩ := h
      refine hreport hnew (getElem?_of_listed hfrom hnew.2.1 ?_) (if_pos hsame)
      rw [hnew.2.2.1, hnew.2.2.2]
      exact hold
    | modified =>
      obtain ⟨r, r', hold, hnew, hsame⟩ := h
      refine hreport hnew (getElem?_of_listed hfrom hnew.2.1 ?_) (if_neg hsame)
      rw [hnew.2.2.1, hnew.2.2.2]
      exact hold

/-- A change carries the kind and the name of its key. -/
theorem diffTo_id (fromMap : StrMap Resource) (key : String) (toRes : Resource) :
    ((diffTo fromMap key toRes).kind, (diffTo fromMap key toRes).name) = splitResourceKey key := by
  rw [diffTo]
  obtain ⟨kind, name⟩ := splitResourceKey key
  cases fromMap[key]? with
  | none => rfl
  | some fromRes =>
    dsimp only
    split
    next => rfl
    next => rfl

theorem map_diffFrom_id (toMap : StrMap Resource) (key : String) :
    (diffFrom toMap key).map (fun c => (c.kind, c.name)) =
      if toMap[key]?.isNone then some (splitResourceKey key) else none := by
  cases hlookup : toMap[key]? with
  | none => simp [diffFrom, hlookup]
  | some r => simp [diffFrom, hlookup]

/-- The kinds and names of the changes are those of the keys that the two loops go over. -/
theorem changes_ids (fromResources toResources : List Resource) :
    ((diffResources fromResources toResources).changes.map fun c => (c.kind, c.name)).Perm
      (((buildResourceMap toResources).toList.map Prod.fst ++
        ((buildResourceMap fromResources).toList.map Prod.fst).filter fun key =>
          (buildResourceMap toResources)[key]?.isNone).map splitResourceKey) := by
  refine ((List.perm_insertionSort _ _).map _).trans (List.Perm.of_eq ?_)
  rw [List.map_append, List.map_append, List.map_map, List.map_map, List.map_filterMap]
  congr 1
  · refine List.map_congr_left fun e _ => ?_
    exact diffTo_id _ e.1 e.2
  · rw [← List.filterMap_eq_filter, List.map_filterMap, List.filterMap_map]
    refine List.filterMap_congr fun e _ => ?_
    rw [map_diffFrom_id]
    simp only [Function.comp_apply, Option.guard]
    split <;> rfl

/-- The key of a visible resource is put together again from its parts. -/
theorem join_splitResourceKey {resources : List Resource} (h : DistinctIds resources)
    {key : String} (hkey : key ∈ (buildResourceMap resources).toList.map Prod.fst) :
    (splitResourceKey key).1 ++ "/" ++ (splitResourceKey key).2 = key := by
  obtain ⟨⟨_, r⟩, he, rfl⟩ := List.mem_map.mp hkey
  obtain ⟨-, hr, rfl⟩ := (getElem?_buildResourceMap h _ r).mp
    (ExtTreeMap.mem_toList_iff_getElem?_eq_some.mp he)
  dsimp only
  rw [hr.resourceKey, splitResourceKey_eq]

/-- No kind and name is reported twice. -/
theorem nodup_changes (hfrom : DistinctIds fromResources) (hto : DistinctIds toResources) :
    ((diffResources fromResources toResources).changes.map fun c => (c.kind, c.name)).Nodup := by
  rw [(changes_ids fromResources toResources).nodup_iff]
  refine List.Nodup.map_on ?_ ?_
  · intro key hkey key' hkey' hsame
    have hjoin : ∀ key, key ∈ (buildResourceMap toResources).toList.map Prod.fst ++
        ((buildResourceMap fromResources).toList.map Prod.fst).filter (fun key =>
          (buildResourceMap toResources)[key]?.isNone) →
        (splitResourceKey key).1 ++ "/" ++ (splitResourceKey key).2 = key := by
      intro key hkey
      obtain hkey | hkey := List.mem_append.mp hkey
      · exact join_splitResourceKey hto hkey
      · exact join_splitResourceKey hfrom (List.mem_of_mem_filter hkey)
    rw [← hjoin key hkey, ← hjoin key' hkey', hsame]
  · rw [List.nodup_append]
    refine ⟨nodup_keys_toList _, (nodup_keys_toList _).filter _, ?_⟩
    rintro key hto' _ hfrom' rfl
    obtain ⟨⟨_, r'⟩, he', rfl⟩ := List.mem_map.mp hto'
    have hnone := (List.mem_filter.mp hfrom').2
    rw [ExtTreeMap.mem_toList_iff_getElem?_eq_some.mp he'] at hnone
    cases hnone

/-- Every kind and name of either list is reported once, and as what it is. -/
structure Exact (fromResources toResources : List Resource) (changes : List HistoryDiffChange) :
    Prop where
  once : (changes.map fun c => (c.kind, c.name)).Nodup
  reports : ∀ kind name action, Reports changes kind name action ↔
    Expected (fun r => r ∈ fromResources ∧ Is kind name r)
      (fun r => r ∈ toResources ∧ Is kind name r) (fun r r' => r.spec = r'.spec) action

/-- Two specs of one kind and name that differ also differ when their numbers are `float64`. -/
def Distinguished (fromResources toResources : List Resource) : Prop :=
  ∀ r ∈ fromResources, ∀ r' ∈ toResources, r.kind = r'.kind → r.name = r'.name → SameAny r r' →
    r.spec = r'.spec

theorem listed_iff (h : ∀ r ∈ fromResources, Visible r) (kind name : String) (r : Resource) :
    Listed fromResources kind name r ↔ r ∈ fromResources ∧ Is kind name r := by
  constructor
  · rintro ⟨hmem, -, his⟩
    exact ⟨hmem, his⟩
  · rintro ⟨hmem, his⟩
    exact ⟨hmem, h r hmem, his⟩

theorem Is.kind_eq {kind name : String} {r r' : Resource} (h : Is kind name r)
    (h' : Is kind name r') : r.kind = r'.kind := Option.some.inj (by
  rw [← knownKind_text, ← knownKind_text, h'.1, h.1])

/-- On visible resources with distinct names the diff is exact. -/
theorem exact_of_visible (hfrom : DistinctIds fromResources) (hto : DistinctIds toResources)
    (hvfrom : ∀ r ∈ fromResources, Visible r) (hvto : ∀ r ∈ toResources, Visible r)
    (hspecs : Distinguished fromResources toResources) :
    Exact fromResources toResources (diffResources fromResources toResources).changes where
  once := nodup_changes hfrom hto
  reports kind name action := by
    rw [reports_iff hfrom hto]
    have hsame : ∀ {r r' : Resource}, Listed fromResources kind name r →
        Listed toResources kind name r' → (SameAny r r' ↔ r.spec = r'.spec) := by
      intro r r' hr hr'
      refine ⟨hspecs r hr.1 r' hr'.1 (hr.2.2.kind_eq hr'.2.2) (hr.2.2.2.trans hr'.2.2.2.symm), ?_⟩
      intro heq
      rw [SameAny, heq]
    have hold := listed_iff hvfrom kind name
    have hnew := listed_iff hvto kind name
    cases action with
    | added => simp only [Expected, hold, hnew]
    | removed => simp only [Expected, hold, hnew]
    | unchanged =>
      simp only [Expected, ← hold, ← hnew]
      refine exists₂_congr fun r r' => and_congr_right fun hr => and_congr_right fun hr' => ?_
      exact hsame hr hr'
    | modified =>
      simp only [Expected, ← hold, ← hnew]
      refine exists₂_congr fun r r' => and_congr_right fun hr => and_congr_right fun hr' => ?_
      exact not_congr (hsame hr hr')

/-- Something is to be said of every resource of either list. -/
theorem exists_expected {old new : Resource → Prop} (same : Resource → Resource → Prop)
    (h : (∃ r, old r) ∨ ∃ r, new r) : ∃ action, Expected old new same action := by
  by_cases hold : ∃ r, old r
  · by_cases hnew : ∃ r, new r
    · obtain ⟨r, hr⟩ := hold
      obtain ⟨r', hr'⟩ := hnew
      by_cases hsame : same r r'
      · exact ⟨.unchanged, r, r', hr, hr', hsame⟩
      · exact ⟨.modified, r, r', hr, hr', hsame⟩
    · exact ⟨.removed, hold, hnew⟩
  · exact ⟨.added, h.resolve_left hold, hold⟩

/-- What must be reported is in one of the lists. -/
theorem exists_listed_of_expected {kind name : String} {action : Action}
    (h : Expected (Listed fromResources kind name) (Listed toResources kind name) SameAny action) :
    ∃ r, Visible r ∧ Is kind name r := by
  cases action with
  | added =>
    obtain ⟨⟨r, -, hr⟩, -⟩ := h
    exact ⟨r, hr⟩
  | removed =>
    obtain ⟨⟨r, -, hr⟩, -⟩ := h
    exact ⟨r, hr⟩
  | unchanged =>
    obtain ⟨r, -, ⟨-, hr⟩, -⟩ := h
    exact ⟨r, hr⟩
  | modified =>
    obtain ⟨r, -, ⟨-, hr⟩, -⟩ := h
    exact ⟨r, hr⟩

/-- What is in a list and is to be reported is seen. -/
theorem Exact.visible (hfrom : DistinctIds fromResources) (hto : DistinctIds toResources)
    (h : Exact fromResources toResources (diffResources fromResources toResources).changes)
    {r : Resource} (hr : r ∈ fromResources ∨ r ∈ toResources) : Visible r := by
  have his : Is r.kind.text r.name r := ⟨rfl, rfl⟩
  have hsome : (∃ r₀, r₀ ∈ fromResources ∧ Is r.kind.text r.name r₀) ∨
      ∃ r₀, r₀ ∈ toResources ∧ Is r.kind.text r.name r₀ :=
    hr.imp (fun hmem => ⟨r, hmem, his⟩) (fun hmem => ⟨r, hmem, his⟩)
  obtain ⟨action, haction⟩ := exists_expected (fun r r' : Resource => r.spec = r'.spec) hsome
  have hreports := (reports_iff hfrom hto _ _ _).mp ((h.reports _ _ action).mpr haction)
  obtain ⟨r', hr', his'⟩ := exists_listed_of_expected hreports
  exact his'.visible his hr'

/-- The diff is exact exactly when no resource is a PLC's or without a name, and no two specs that
are compared differ only in what `float64` does not hold. -/
theorem diffResources_exact_iff (fromResources toResources : List Resource)
    (hfrom : DistinctIds fromResources) (hto : DistinctIds toResources) :
    Exact fromResources toResources (diffResources fromResources toResources).changes ↔
      (∀ r ∈ fromResources ++ toResources, r.kind ≠ .plc ∧ r.name ≠ "") ∧
        Distinguished fromResources toResources := by
  constructor
  · intro h
    have hvisible : ∀ r ∈ fromResources ++ toResources, Visible r := by
      intro r hr
      exact h.visible hfrom hto (List.mem_append.mp hr)
    refine ⟨hvisible, ?_⟩
    intro r hr r' hr' hkind hname hsame
    have hrv := hvisible r (List.mem_append_left _ hr)
    have hr'v := hvisible r' (List.mem_append_right _ hr')
    have his : Is r.kind.text r.name r := ⟨rfl, rfl⟩
    have his' : Is r.kind.text r.name r' := ⟨by rw [hkind], hname.symm⟩
    have hreports := (h.reports _ _ .unchanged).mp ((reports_iff hfrom hto _ _ .unchanged).mpr
      ⟨r, r', ⟨hr, hrv, his⟩, ⟨hr', hr'v, his'⟩, hsame⟩)
    obtain ⟨r₀, r₀', ⟨hr₀, his₀⟩, ⟨hr₀', his₀'⟩, hspec⟩ := hreports
    rwa [hfrom.eq_of_is hr hr₀ his his₀, hto.eq_of_is hr' hr₀' his' his₀']
  · rintro ⟨hvisible, hspecs⟩
    exact exact_of_visible hfrom hto (fun r hr => hvisible r (List.mem_append_left _ hr))
      (fun r hr => hvisible r (List.mem_append_right _ hr)) hspecs

end Reporting

/-- A gateway with one device that is scanned at the given rate. -/
def scanned (scanRate : Int) : Resource :=
  ⟨"gateway", .gateway
    { devices := some ((∅ : StrMap GatewayDeviceConfig).insert "plc" { scanRate := scanRate }) }⟩

/-- Next to `2 ^ 53` two rates are one `float64`, and a change from one to the other is lost. -/
theorem not_distinguished_scanned :
    ¬Distinguished [scanned 9007199254740993] [scanned 9007199254740992] := by
  intro h
  have hspec := h _ (.head _) _ (.head _) rfl rfl (by decide +kernel)
  exact absurd hspec (by decide +kernel)

/-- A service that stays as it is, and the config of a module that is new. -/
def mqttService : Resource := ⟨"mqtt", .service { version := "1.0.0", running := true }⟩

def mqttConfig : Resource := ⟨"mqtt", .moduleConfig {}⟩

theorem diffResources_exact_mqtt :
    DistinctIds [mqttService] ∧ DistinctIds [mqttService, mqttConfig] ∧
      Exact [mqttService] [mqttService, mqttConfig]
        (diffResources [mqttService] [mqttService, mqttConfig]).changes := by
  have hfrom : DistinctIds [mqttService] := by simp [DistinctIds]
  have hto : DistinctIds [mqttService, mqttConfig] := by
    simp [DistinctIds, mqttService, mqttConfig, Resource.kind, Spec.kind]
  refine ⟨hfrom, hto, (diffResources_exact_iff _ _ hfrom hto).mpr ⟨?_, ?_⟩⟩
  · simp [mqttService, mqttConfig, Resource.kind, Spec.kind]
  · simp [Distinguished, mqttService, mqttConfig, Resource.kind, Spec.kind]

/-- A PLC that is new is not reported. -/
theorem diffResources_plc_not_exact :
    ¬∀ fromResources toResources : List Resource, DistinctIds fromResources →
      DistinctIds toResources →
      Exact fromResources toResources (diffResources fromResources toResources).changes := by
  intro h
  have hfrom : DistinctIds [] := List.nodup_nil
  have hto : DistinctIds [⟨"line1", .plc {}⟩] := by simp [DistinctIds]
  have hvisible := (h [] [⟨"line1", .plc {}⟩] hfrom hto).visible hfrom hto (.inr (.head _))
  exact hvisible.1 rfl

end HistoryDiff
