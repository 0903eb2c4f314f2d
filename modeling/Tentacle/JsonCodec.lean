import Mathlib.Data.List.Nodup
import Tentacle.GoValues

/-!
# JSON documents of typed records

A record type is given by a table of its fields: the key, how the value is written, whether
it is left out when empty, and how it is read from and put into a record. From the table
come `json.Marshal` and `json.Unmarshal` for the type, and the law that reading gives back
what was written. Objects have no order of their own; they are listed by their keys.
-/

namespace JsonCodec

open GoValues Std

abbrev StrMap (V : Type) := ExtTreeMap String V

/-- A JSON tree; a finite floating-point number is given by its value. -/
abbrev Doc := Json ℚ

/-! ## Trees -/

mutual

def sameDoc : Doc → Doc → Bool
  | .null, .null => true
  | .bool b, .bool b' => b = b'
  | .number x, .number x' => x = x'
  | .string s, .string s' => s = s'
  | .array elems, .array elems' => sameElems elems elems'
  | .object fields, .object fields' => sameFields fields fields'
  | _, _ => false

def sameElems : List Doc → List Doc → Bool
  | [], [] => true
  | e :: elems, e' :: elems' => sameDoc e e' && sameElems elems elems'
  | _, _ => false

def sameFields : List (String × Doc) → List (String × Doc) → Bool
  | [], [] => true
  | (k, j) :: fields, (k', j') :: fields' => k = k' && (sameDoc j j' && sameFields fields fields')
  | _, _ => false

end

mutual

theorem sameDoc_iff (j j' : Doc) : sameDoc j j' ↔ j = j' := by
  cases j with
  | array elems =>
    cases j' with
    | array elems' => rw [sameDoc, sameElems_iff, Json.array.injEq]
    | _ => simp [sameDoc]
  | object fields =>
    cases j' with
    | object fields' => rw [sameDoc, sameFields_iff, Json.object.injEq]
    | _ => simp [sameDoc]
  | _ => cases j' <;> simp [sameDoc]

theorem sameElems_iff (elems elems' : List Doc) : sameElems elems elems' ↔ elems = elems' := by
  cases elems with
  | nil => cases elems' <;> simp [sameElems]
  | cons e elems =>
    cases elems' with
    | nil => simp [sameElems]
    | cons e' elems' =>
      rw [sameElems, Bool.and_eq_true, sameDoc_iff, sameElems_iff, List.cons.injEq]

theorem sameFields_iff (fields fields' : List (String × Doc)) :
    sameFields fields fields' ↔ fields = fields' := by
  cases fields with
  | nil => cases fields' <;> simp [sameFields]
  | cons f fields =>
    cases fields' with
    | nil => simp [sameFields]
    | cons f' fields' =>
      obtain ⟨k, j⟩ := f
      obtain ⟨k', j'⟩ := f'
      rw [sameFields, Bool.and_eq_true, Bool.and_eq_true, sameDoc_iff, sameFields_iff,
        List.cons.injEq, Prod.mk.injEq, decide_eq_true_iff, and_assoc]

end

instance : DecidableEq Doc := fun j j' => decidable_of_iff _ (sameDoc_iff j j')

mutual

/-- All objects of the tree are listed by strictly increasing keys. -/
def isCanonical : Doc → Bool
  | .array elems => allCanonical elems
  | .object fields =>
    decide (fields.Pairwise fun a b => compare a.1 b.1 = .lt) && fieldsCanonical fields
  | _ => true

def allCanonical : List Doc → Bool
  | [] => true
  | e :: elems => isCanonical e && allCanonical elems

def fieldsCanonical : List (String × Doc) → Bool
  | [] => true
  | (_, j) :: fields => isCanonical j && fieldsCanonical fields

end

def Canonical (j : Doc) : Prop := isCanonical j

instance : DecidablePred Canonical := fun j => inferInstanceAs (Decidable (isCanonical j = true))

theorem canonical_array {elems : List Doc} (h : ∀ e ∈ elems, Canonical e) :
    Canonical (.array elems) := by
  rw [Canonical, isCanonical]
  induction elems with
  | nil => rfl
  | cons e elems ih =>
    rw [allCanonical, Bool.and_eq_true]
    exact ⟨h e (.head _), ih fun e' he' => h e' (.tail _ he')⟩

/-- An object with sorted keys and canonical fields is canonical. -/
theorem canonical_object {fields : List (String × Doc)}
    (hkeys : fields.Pairwise fun a b => compare a.1 b.1 = .lt)
    (h : ∀ f ∈ fields, Canonical f.2) : Canonical (.object fields) := by
  rw [Canonical, isCanonical, Bool.and_eq_true, decide_eq_true_iff]
  refine ⟨hkeys, ?_⟩
  clear hkeys
  induction fields with
  | nil => rfl
  | cons f fields ih =>
    rw [fieldsCanonical, Bool.and_eq_true]
    exact ⟨h f (.head _), ih fun f' hf' => h f' (.tail _ hf')⟩

theorem canonical_toList {m : StrMap Doc} (h : ∀ (k : String) j, m[k]? = some j → Canonical j) :
    Canonical (.object m.toList) := by
  apply canonical_object ExtTreeMap.ordered_keys_toList
  intro f hf
  exact h f.1 f.2 (ExtTreeMap.mem_toList_iff_getElem?_eq_some.mp hf)

/-! ## Maps -/

section

variable {V : Type}

theorem getElem?_insert (m : StrMap V) (k : String) (v : V) (a : String) :
    (m.insert k v)[a]? = if k = a then some v else m[a]? := by
  rw [ExtTreeMap.getElem?_insert]
  exact if_congr Std.compare_eq_iff_eq rfl rfl

theorem getElem?_insert_self (m : StrMap V) (k : String) (v : V) :
    (m.insert k v)[k]? = some v := by
  rw [getElem?_insert, if_pos rfl]

theorem isSome_insert_of_isSome {m : StrMap V} {a : String} (h : m[a]?.isSome) (k : String)
    (v : V) : (m.insert k v)[a]?.isSome := by
  rw [getElem?_insert]
  split
  next => rfl
  next => exact h

theorem getElem?_erase (m : StrMap V) (k a : String) :
    (m.erase k)[a]? = if k = a then none else m[a]? := by
  rw [ExtTreeMap.getElem?_erase]
  exact if_congr Std.compare_eq_iff_eq rfl rfl

theorem getElem?_filter_eq_some {m : StrMap V} {f : String → V → Bool} {k : String} {v : V} :
    (m.filter f)[k]? = some v ↔ m[k]? = some v ∧ f k v := by
  rw [ExtTreeMap.getElem?_filter', Option.filter_eq_some_iff]

theorem mem_keys_iff (m : StrMap V) (k : String) : k ∈ m.keys ↔ m[k]?.isSome := by
  rw [ExtTreeMap.mem_keys, ExtTreeMap.isSome_getElem?_iff_mem]

/-- A map that is not empty has an entry. -/
theorem exists_getElem?_of_ne_empty {m : StrMap V} (h : m ≠ ∅) : ∃ (k : String) (v : V),
    m[k]? = some v := by
  by_contra hnone
  refine h (ExtTreeMap.ext_getElem? ?_)
  intro k
  cases hk : m[k]? with
  | none => rw [ExtTreeMap.getElem?_empty]
  | some v => exact absurd ⟨k, v, hk⟩ hnone

/-- Maps with the same keys list them alike. -/
theorem keys_eq_of_isSome {W : Type} {m : StrMap V} {m' : StrMap W}
    (h : ∀ k : String, m[k]?.isSome = m'[k]?.isSome) : m.keys = m'.keys := by
  have hunit : m.map (fun _ _ => ()) = m'.map (fun _ _ => ()) := by
    refine ExtTreeMap.ext_getElem? ?_
    intro k
    have hk := h k
    rw [ExtTreeMap.getElem?_map, ExtTreeMap.getElem?_map]
    cases hm : m[k]? with
    | none =>
      rw [hm] at hk
      rw [Option.isSome_eq_false_iff.mp hk.symm |> Option.isNone_iff_eq_none.mp]
      rfl
    | some v =>
      rw [hm] at hk
      obtain ⟨v', hv'⟩ := Option.isSome_iff_exists.mp hk.symm
      rw [hv']
      rfl
  rw [← ExtTreeMap.keys_map (f := fun _ _ => ()), hunit, ExtTreeMap.keys_map]

/-- Two maps have one image exactly if they do at each key. -/
theorem map_eq_iff {W : Type} {f : V → W} {m m' : StrMap V} :
    m.map (fun _ => f) = m'.map (fun _ => f) ↔ ∀ k : String, m[k]?.map f = m'[k]?.map f := by
  constructor
  · intro h k
    rw [← ExtTreeMap.getElem?_map (f := fun _ => f), h, ExtTreeMap.getElem?_map]
  · intro h
    refine ExtTreeMap.ext_getElem? ?_
    intro k
    rw [ExtTreeMap.getElem?_map, ExtTreeMap.getElem?_map]
    exact h k

/-- The map of a list with distinct keys has the entries of the list. -/
theorem mem_toList_ofList {l : List (String × V)} (hkeys : (l.map Prod.fst).Nodup)
    (e : String × V) : e ∈ (ExtTreeMap.ofList l : StrMap V).toList ↔ e ∈ l := by
  have hdistinct : l.Pairwise fun a b => ¬compare a.1 b.1 = .eq := by
    rw [List.Nodup, List.pairwise_map] at hkeys
    apply hkeys.imp
    intro a b hne heq
    exact hne (LawfulEqCmp.eq_of_compare heq)
  rw [← Prod.mk.eta (p := e), ExtTreeMap.mem_toList_iff_getElem?_eq_some]
  constructor
  · intro h
    obtain ⟨v, hv⟩ : ∃ v, (e.1, v) ∈ l := by
      by_contra hnone
      rw [ExtTreeMap.getElem?_ofList_of_contains_eq_false] at h
      · cases h
      · rw [List.contains_eq_mem, decide_eq_false_iff_not, List.mem_map]
        rintro ⟨e', he', hkey⟩
        refine hnone ⟨e'.2, ?_⟩
        rw [← hkey]
        exact he'
    rw [ExtTreeMap.getElem?_ofList_of_mem (ReflCmp.compare_self) hdistinct hv,
      Option.some.injEq] at h
    rw [← h]
    exact hv
  · intro h
    exact ExtTreeMap.getElem?_ofList_of_mem ReflCmp.compare_self hdistinct h

theorem nodup_keys_toList (m : StrMap V) : (m.toList.map Prod.fst).Nodup := by
  rw [List.Nodup, List.pairwise_map]
  apply ExtTreeMap.distinct_keys_toList.imp
  intro a b hne hkey
  rw [hkey] at hne
  exact hne ReflCmp.compare_self

theorem ofList_toList (m : StrMap V) : (ExtTreeMap.ofList m.toList : StrMap V) = m := by
  refine ExtTreeMap.ext_getElem? ?_
  intro k
  apply Option.ext
  intro v
  rw [← ExtTreeMap.mem_toList_iff_getElem?_eq_some, mem_toList_ofList (nodup_keys_toList m),
    ExtTreeMap.mem_toList_iff_getElem?_eq_some]

end

/-! ## Writes to a map -/

section

variable {V W : Type}

/-- The map after a list of writes, in their order. -/
def writeAll (m : StrMap V) (writes : List (String × V)) : StrMap V :=
  writes.foldl (fun m w => m.insert w.1 w.2) m

def lastWrite (writes : List (String × V)) (k : String) : Option V :=
  (writes.reverse.find? fun w => w.1 = k).map Prod.snd

theorem writeAll_append (m : StrMap V) (writes writes' : List (String × V)) :
    writeAll m (writes ++ writes') = writeAll (writeAll m writes) writes' := List.foldl_append

theorem lastWrite_append (writes writes' : List (String × V)) (k : String) :
    lastWrite (writes ++ writes') k = (lastWrite writes' k).or (lastWrite writes k) := by
  rw [lastWrite, List.reverse_append, List.find?_append]
  cases hfind : writes'.reverse.find? fun w => w.1 = k with
  | none => simp [lastWrite, hfind]
  | some w => simp [lastWrite, hfind]

/-- The last write under a key is the image of the last one. -/
theorem lastWrite_map (g : String → V → W) (writes : List (String × V)) (k : String) :
    lastWrite (writes.map fun w => (w.1, g w.1 w.2)) k = (lastWrite writes k).map (g k) := by
  induction writes using List.reverseRecOn with
  | nil => rfl
  | append_singleton writes w ih =>
    rw [List.map_append, lastWrite_append, lastWrite_append, ih]
    by_cases hkey : w.1 = k
    · simp [lastWrite, hkey]
    · simp [lastWrite, hkey]

theorem lastWrite_eq_none_iff {writes : List (String × V)} {k : String} :
    lastWrite writes k = none ↔ ∀ w ∈ writes, w.1 ≠ k := by
  simp [lastWrite]

theorem mem_of_lastWrite {writes : List (String × V)} {k : String} {v : V}
    (h : lastWrite writes k = some v) : (k, v) ∈ writes := by
  rw [lastWrite, Option.map_eq_some_iff] at h
  obtain ⟨w, hfind, rfl⟩ := h
  have hkey : w.1 = k := by simpa using List.find?_some hfind
  rw [← hkey]
  exact List.mem_reverse.mp (List.mem_of_find?_eq_some hfind)

/-- A key has the value that was last written to it, or the one that it had. -/
theorem getElem?_writeAll (m : StrMap V) (writes : List (String × V)) (k : String) :
    (writeAll m writes)[k]? = (lastWrite writes k).or m[k]? := by
  induction writes using List.reverseRecOn with
  | nil => rfl
  | append_singleton writes w ih =>
    rw [writeAll_append, lastWrite_append]
    change ((writeAll m writes).insert w.1 w.2)[k]? = _
    rw [getElem?_insert]
    by_cases hkey : w.1 = k
    · simp [lastWrite, hkey]
    · rw [if_neg hkey, ih]
      simp [lastWrite, hkey]

theorem isSome_writeAll_iff {m : StrMap V} {writes : List (String × V)} {k : String} :
    (writeAll m writes)[k]?.isSome ↔ m[k]?.isSome ∨ ∃ w ∈ writes, w.1 = k := by
  rw [getElem?_writeAll, Option.isSome_or, Bool.or_eq_true, or_comm]
  apply or_congr_right
  rw [Option.isSome_iff_ne_none, ne_eq, lastWrite_eq_none_iff]
  simp

/-- All writes to a key are the same. -/
def Consistent (writes : List (String × V)) : Prop :=
  ∀ w ∈ writes, ∀ w' ∈ writes, w.1 = w'.1 → w.2 = w'.2

theorem Consistent.lastWrite {writes : List (String × V)} (h : Consistent writes) {w : String × V}
    (hw : w ∈ writes) : lastWrite writes w.1 = some w.2 := by
  cases hlast : JsonCodec.lastWrite writes w.1 with
  | none => exact absurd rfl (lastWrite_eq_none_iff.mp hlast w hw)
  | some v => exact congrArg some (h _ (mem_of_lastWrite hlast) w hw rfl)

theorem Consistent.getElem?_writeAll_empty {writes : List (String × V)} (h : Consistent writes)
    (k : String) (v : V) : (writeAll ∅ writes)[k]? = some v ↔ (k, v) ∈ writes := by
  rw [getElem?_writeAll, ExtTreeMap.getElem?_empty, Option.or_none]
  exact ⟨mem_of_lastWrite, fun hw => h.lastWrite hw⟩

/-- Writes leave a view of the map as it is when each writes what the view has. -/
theorem map_writeAll_of_same {f : V → W} {m : StrMap V} {writes : List (String × V)}
    (h : ∀ w ∈ writes, m[w.1]?.map f = some (f w.2)) :
    (writeAll m writes).map (fun _ => f) = m.map (fun _ => f) := by
  rw [map_eq_iff]
  intro k
  rw [getElem?_writeAll]
  cases hlast : lastWrite writes k with
  | none => rfl
  | some v =>
    rw [Option.some_or, Option.map_some, h _ (mem_of_lastWrite hlast)]

/-- Consistent writes change nothing that `f` sees exactly if each of them is there already. -/
theorem map_writeAll_eq_iff {f : V → W} {m : StrMap V} {writes : List (String × V)}
    (hwrites : Consistent writes) :
    (writeAll m writes).map (fun _ => f) = m.map (fun _ => f) ↔
      ∀ w ∈ writes, m[w.1]?.map f = some (f w.2) := by
  refine ⟨?_, map_writeAll_of_same⟩
  intro h w hw
  have hkey := map_eq_iff.mp h w.1
  rw [getElem?_writeAll, hwrites.lastWrite hw] at hkey
  exact hkey.symm

end

/-! ## Codecs -/

/-- How the values of a type are written and read. Reading `null` leaves the zero value. -/
structure Codec (α : Type) where
  zero : α
  encode : α → Doc
  decode : Doc → Option α
  decode_encode : ∀ a, decode (encode a) = some a
  canonical : ∀ a, Canonical (encode a)

def Codec.string : Codec String where
  zero := ""
  encode := .string
  decode
    | .string s => some s
    | .null => some ""
    | _ => none
  decode_encode _ := rfl
  canonical _ := rfl

def Codec.bool : Codec Bool where
  zero := false
  encode := .bool
  decode
    | .bool b => some b
    | .null => some false
    | _ => none
  decode_encode _ := rfl
  canonical _ := rfl

def Codec.int : Codec Int where
  zero := 0
  encode n := .number n
  decode
    | .number x => if x.den = 1 then some x.num else none
    | .null => some 0
    | _ => none
  decode_encode n := by simp
  canonical _ := rfl

def Codec.float : Codec ℚ where
  zero := 0
  encode := .number
  decode
    | .number x => some x
    | .null => some 0
    | _ => none
  decode_encode _ := rfl
  canonical _ := rfl

/-- A value of type `any`. -/
abbrev GoAny := { j : Doc // Canonical j }

def GoAny.null : GoAny := ⟨.null, rfl⟩

def Codec.any : Codec GoAny where
  zero := .null
  encode := Subtype.val
  decode j := if h : Canonical j then some ⟨j, h⟩ else none
  decode_encode a := by simp [a.property]
  canonical := Subtype.property

/-- A slice; nil and the empty slice are one value. -/
def Codec.slice {α : Type} (c : Codec α) : Codec (List α) where
  zero := []
  encode l := .array (l.map c.encode)
  decode
    | .array elems => elems.mapM c.decode
    | .null => some []
    | _ => none
  decode_encode l := by
    induction l with
    | nil => rfl
    | cons a l ih =>
      dsimp only at ih ⊢
      rw [List.map_cons, List.mapM_cons, c.decode_encode, ih]
      rfl
  canonical l := by
    apply canonical_array
    intro e he
    obtain ⟨a, -, rfl⟩ := List.mem_map.mp he
    exact c.canonical a

/-- A list of encoded values is decoded to the list. -/
theorem Codec.mapM_decode_encode {α : Type} (c : Codec α) (l : List (String × α)) :
    (l.map fun e => (e.1, c.encode e.2)).mapM (fun f => (c.decode f.2).map (Prod.mk f.1)) =
      some l := by
  induction l with
  | nil => rfl
  | cons e l ih =>
    rw [List.map_cons, List.mapM_cons, ih, c.decode_encode]
    rfl

/-- A map with string keys; nil and the empty map are one value. -/
def Codec.map {α : Type} (c : Codec α) : Codec (StrMap α) where
  zero := ∅
  encode m := .object (m.map fun _ a => c.encode a).toList
  decode
    | .object fields =>
      (fields.mapM fun f => (c.decode f.2).map (Prod.mk f.1)).map (ExtTreeMap.ofList ·)
    | .null => some ∅
    | _ => none
  decode_encode m := by
    dsimp only
    rw [ExtTreeMap.toList_map, c.mapM_decode_encode, Option.map_some, ofList_toList]
  canonical m := by
    apply canonical_toList
    intro k j hj
    rw [ExtTreeMap.getElem?_map, Option.map_eq_some_iff] at hj
    obtain ⟨a, -, rfl⟩ := hj
    exact c.canonical a

/-- A pointer, or a map or slice that may be nil. -/
def Codec.nilable {α : Type} (c : Codec α) (h : ∀ a, c.encode a ≠ .null) : Codec (Option α) where
  zero := none
  encode
    | none => .null
    | some a => c.encode a
  decode
    | .null => some none
    | j => (c.decode j).map some
  decode_encode a := by
    cases a with
    | none => rfl
    | some a =>
      have hnull := h a
      have hdecode := c.decode_encode a
      dsimp only
      cases hj : c.encode a with
      | null => exact absurd hj hnull
      | _ =>
        rw [hj] at hdecode
        dsimp only
        rw [hdecode, Option.map_some]
  canonical a := by
    cases a with
    | none => rfl
    | some a => exact c.canonical a

/-! ## Records -/

/-- The folding by which `json.Unmarshal` compares a key with the names of the fields. All
names are ASCII; the Kelvin sign and the long s fold to letters of it. -/
def foldChar (c : Char) : Char :=
  if c.toNat = 0x212A then 'k' else if c.toNat = 0x17F then 's' else c.toLower

def foldKey (key : String) : List Char := key.toList.map foldChar

/-- The value of the last key that matches the name. -/
def findKey (name : String) (fields : List (String × Doc)) : Option Doc :=
  (fields.reverse.find? fun f => foldKey f.1 = foldKey name).map Prod.snd

theorem findKey_eq_none {name : String} {fields : List (String × Doc)}
    (h : ∀ f ∈ fields, foldKey f.1 ≠ foldKey name) : findKey name fields = none := by
  rw [findKey, Option.map_eq_none_iff, List.find?_eq_none]
  intro f hf
  simpa using h f (List.mem_reverse.mp hf)

/-- A key is found if no other one is the same to the decoder. -/
theorem findKey_eq_some {name : String} {fields : List (String × Doc)} {j : Doc}
    (hmem : (name, j) ∈ fields)
    (h : ∀ f ∈ fields, foldKey f.1 = foldKey name → f = (name, j)) :
    findKey name fields = some j := by
  rw [findKey]
  cases hfind : fields.reverse.find? fun f => foldKey f.1 = foldKey name with
  | none =>
    rw [List.find?_eq_none] at hfind
    have hnot := hfind (name, j) (List.mem_reverse.mpr hmem)
    simp at hnot
  | some f =>
    have hf := h f (List.mem_reverse.mp (List.mem_of_find?_eq_some hfind))
      (by simpa using List.find?_some hfind)
    rw [hf, Option.map_some]

/-- A field of a record. -/
structure RecordField (σ : Type) where
  α : Type
  name : String
  codec : Codec α
  omits : α → Bool
  get : σ → α
  set : α → σ → σ
  eq_zero_of_omits : ∀ a, omits a → a = codec.zero

/-- A field that is always written. -/
def RecordField.always {σ α : Type} (name : String) (codec : Codec α) (get : σ → α)
    (set : α → σ → σ) : RecordField σ where
  α := α
  name := name
  codec := codec
  omits _ := false
  get := get
  set := set
  eq_zero_of_omits := by simp

/-- A field with `omitempty`. -/
def RecordField.omitEmpty {σ α : Type} [DecidableEq α] (name : String) (codec : Codec α)
    (get : σ → α) (set : α → σ → σ) : RecordField σ where
  α := α
  name := name
  codec := codec
  omits a := a = codec.zero
  get := get
  set := set
  eq_zero_of_omits _ h := of_decide_eq_true h

/-- A pointer with `omitempty`. -/
def RecordField.omitNil {σ α : Type} (name : String) (codec : Codec α)
    (h : ∀ a, codec.encode a ≠ .null) (get : σ → Option α) (set : Option α → σ → σ) :
    RecordField σ where
  α := Option α
  name := name
  codec := codec.nilable h
  omits := Option.isNone
  get := get
  set := set
  eq_zero_of_omits _ h := Option.isNone_iff_eq_none.mp h

/-- A map with `omitempty`. -/
def RecordField.omitEmptyMap {σ α : Type} (name : String) (codec : Codec α) (get : σ → StrMap α)
    (set : StrMap α → σ → σ) : RecordField σ where
  α := StrMap α
  name := name
  codec := codec.map
  omits := ExtTreeMap.isEmpty
  get := get
  set := set
  eq_zero_of_omits _ h := ExtTreeMap.isEmpty_iff.mp h

variable {σ : Type}

def RecordField.entry (s : σ) (f : RecordField σ) : Option (String × Doc) :=
  if f.omits (f.get s) then none else some (f.name, f.codec.encode (f.get s))

/-- What a key that is not there, or one that is, leaves in the field. -/
def RecordField.read (f : RecordField σ) (fields : List (String × Doc)) : Option f.α :=
  match findKey f.name fields with
  | none => some f.codec.zero
  | some j => f.codec.decode j

def recordEntries (table : List (RecordField σ)) (s : σ) : StrMap Doc :=
  .ofList (table.filterMap (RecordField.entry s))

def encodeRecord (table : List (RecordField σ)) (s : σ) : Doc :=
  .object (recordEntries table s).toList

/-- Records with the same values in all fields are written alike. -/
theorem encodeRecord_congr {table : List (RecordField σ)} {s s' : σ}
    (h : ∀ f ∈ table, f.get s = f.get s') : encodeRecord table s = encodeRecord table s' := by
  have hentries : table.filterMap (RecordField.entry s) =
      table.filterMap (RecordField.entry s') := by
    apply List.filterMap_congr
    intro f hf
    rw [RecordField.entry, RecordField.entry, h f hf]
  rw [encodeRecord, encodeRecord, recordEntries, recordEntries, hentries]

def decodeRecord (zero : σ) (table : List (RecordField σ)) : Doc → Option σ
  | .object fields => table.foldlM (fun s f => (f.read fields).map (f.set · s)) zero
  | .null => some zero
  | _ => none

/-- The record with the values of all its fields put into the zero value. -/
def rebuild (zero : σ) (table : List (RecordField σ)) (s : σ) : σ :=
  table.foldl (fun t f => f.set (f.get s) t) zero

/-- No two fields match one key. -/
def Distinct (table : List (RecordField σ)) : Prop := (table.map fun f => foldKey f.name).Nodup

instance (table : List (RecordField σ)) : Decidable (Distinct table) :=
  inferInstanceAs (Decidable (List.Nodup _))

/-- An entry of the encoded record is that of a field that is not omitted. -/
theorem mem_entries {table : List (RecordField σ)} {s : σ} {e : String × Doc}
    (h : e ∈ table.filterMap (RecordField.entry s)) :
    ∃ f ∈ table, f.omits (f.get s) = false ∧ e = (f.name, f.codec.encode (f.get s)) := by
  obtain ⟨f, hf, he⟩ := List.mem_filterMap.mp h
  refine ⟨f, hf, ?_⟩
  rw [RecordField.entry] at he
  split at he
  next => cases he
  next homits => exact ⟨by simpa using homits, (Option.some.inj he).symm⟩

theorem Distinct.eq {table : List (RecordField σ)} (h : Distinct table) {f g : RecordField σ}
    (hf : f ∈ table) (hg : g ∈ table) (hname : foldKey f.name = foldKey g.name) : f = g :=
  List.inj_on_of_nodup_map h hf hg hname

/-- The keys of the encoded record stand in the order of the table. -/
theorem keys_sublist (table : List (RecordField σ)) (s : σ) :
    ((table.filterMap (RecordField.entry s)).map Prod.fst).Sublist
      (table.map RecordField.name) := by
  induction table with
  | nil => exact .slnil
  | cons f table ih =>
    rw [List.filterMap_cons, RecordField.entry]
    split_ifs
    next => exact ih.cons _
    next => exact ih.cons_cons _

theorem Distinct.nodup_keys {table : List (RecordField σ)} (h : Distinct table) (s : σ) :
    ((table.filterMap (RecordField.entry s)).map Prod.fst).Nodup := by
  have hnames : (table.map RecordField.name).Nodup := by
    apply List.Nodup.of_map foldKey
    rw [List.map_map]
    exact h
  exact (keys_sublist table s).nodup hnames

theorem mem_recordEntries {table : List (RecordField σ)} (h : Distinct table) (s : σ)
    (e : String × Doc) :
    e ∈ (recordEntries table s).toList ↔ e ∈ table.filterMap (RecordField.entry s) :=
  mem_toList_ofList (h.nodup_keys s) e

/-- Each field is read as it was written. -/
theorem Distinct.read {table : List (RecordField σ)} (h : Distinct table) (s : σ)
    {f : RecordField σ} (hf : f ∈ table) :
    f.read (recordEntries table s).toList = some (f.get s) := by
  have hsame : ∀ e ∈ (recordEntries table s).toList,
      foldKey e.1 = foldKey f.name →
        f.omits (f.get s) = false ∧ e = (f.name, f.codec.encode (f.get s)) := by
    intro e he hkey
    obtain ⟨g, hg, homits, rfl⟩ := mem_entries ((mem_recordEntries h s e).mp he)
    rw [h.eq hg hf hkey] at homits ⊢
    exact ⟨homits, rfl⟩
  rw [RecordField.read]
  cases homits : f.omits (f.get s) with
  | true =>
    rw [findKey_eq_none, f.eq_zero_of_omits _ homits]
    intro e he hkey
    rw [(hsame e he hkey).1] at homits
    cases homits
  | false =>
    have hmem : (f.name, f.codec.encode (f.get s)) ∈ (recordEntries table s).toList := by
      rw [mem_recordEntries h, List.mem_filterMap]
      exact ⟨f, hf, if_neg (by simp [homits])⟩
    rw [findKey_eq_some hmem fun e he hkey => (hsame e he hkey).2]
    exact f.codec.decode_encode (f.get s)

/-- Reading what was written rebuilds the record from its fields. -/
theorem decodeRecord_encodeRecord {table : List (RecordField σ)} (h : Distinct table) (zero s : σ) :
    decodeRecord zero table (encodeRecord table s) = some (rebuild zero table s) := by
  rw [encodeRecord, decodeRecord]
  have hread : ∀ f ∈ table, f.read (recordEntries table s).toList = some (f.get s) :=
    fun f hf => h.read s hf
  generalize (recordEntries table s).toList = fields at hread
  rw [rebuild]
  clear h
  induction table generalizing zero with
  | nil => rfl
  | cons f table ih =>
    rw [List.foldlM_cons, hread f (.head _), List.foldl_cons]
    exact ih _ fun g hg => hread g (.tail _ hg)

/-- A record with distinct field names is encoded to a canonical document. -/
theorem canonical_encodeRecord {table : List (RecordField σ)} (h : Distinct table) (s : σ) :
    Canonical (encodeRecord table s) := by
  apply canonical_toList
  intro k j hj
  rw [← ExtTreeMap.mem_toList_iff_getElem?_eq_some, mem_recordEntries h] at hj
  obtain ⟨f, -, -, he⟩ := mem_entries hj
  cases he
  exact f.codec.canonical (f.get s)

/-- The codec of a record type all of whose fields are in the table. -/
def Codec.record (zero : σ) (table : List (RecordField σ)) (h : Distinct table)
    (hrebuild : ∀ s, rebuild zero table s = s) : Codec σ where
  zero := zero
  encode := encodeRecord table
  decode := decodeRecord zero table
  decode_encode s := by rw [decodeRecord_encodeRecord h, hrebuild]
  canonical := canonical_encodeRecord h

end JsonCodec
