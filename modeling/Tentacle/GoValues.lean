import Mathlib.Data.List.Induction
import Mathlib.Data.List.AList
import Mathlib.Data.List.Sort
import Mathlib.Data.Rat.Floor

/-!
# Go values

What the model takes from the language and its standard library: maps, byte
slices, floating-point numbers, and the values that `encoding/json` decodes an
`interface{}` to. Floating-point numbers are a parameter with the operations
that Go provides for them; the rationals stand for exact arithmetic.
-/

namespace GoValues

abbrev Bytes := List UInt8

/-- A Go map: finite, one value for each key, listed in an arbitrary order. -/
abbrev GoMap (K V : Type) := AList (fun _ : K => V)

theorem toNat_of_isDigit {c : Char} (h : c.isDigit = true) : 48 ≤ c.toNat ∧ c.toNat ≤ 57 := by
  simp only [Char.isDigit, Bool.and_eq_true, decide_eq_true_eq] at h
  exact ⟨UInt32.le_iff_toNat_le.mp h.1, UInt32.le_iff_toNat_le.mp h.2⟩

/-- What stands at a position after one more value was appended. -/
theorem getElem?_snoc_iff {α : Type} {l : List α} {a b : α} {i : Nat} :
    (l ++ [a])[i]? = some b ↔ l[i]? = some b ∨ (i = l.length ∧ b = a) := by
  rcases Nat.lt_trichotomy i l.length with hi | rfl | hi
  · rw [List.getElem?_append_left hi]
    simp [Nat.ne_of_lt hi]
  · rw [List.getElem?_concat_length, List.getElem?_eq_none (Nat.le_refl _)]
    simp [eq_comm]
  · have hlen : (l ++ [a]).length ≤ i := by
      rw [List.length_append, List.length_singleton]
      exact hi
    rw [List.getElem?_eq_none hlen, List.getElem?_eq_none (Nat.le_of_lt hi)]
    simp [Nat.ne_of_gt hi]

theorem mem_entries_iff {K V : Type} [DecidableEq K] (m : GoMap K V) (k : K) (v : V) :
    (⟨k, v⟩ : Sigma fun _ : K => V) ∈ m.entries ↔ m.lookup k = some v := by
  rw [← Option.mem_def, AList.mem_lookup_iff]

theorem eq_of_lookup_singleton {V : Type} {k k' : String} {v v' : V}
    (h : (AList.singleton k v : GoMap String V).lookup k' = some v') : k' = k ∧ v' = v := by
  have hmem := (mem_entries_iff _ k' v').mpr h
  rw [AList.singleton_entries, List.mem_singleton] at hmem
  cases hmem
  exact ⟨rfl, rfl⟩

/-- Looking the keys up in order gives the values in order. -/
theorem filterMap_lookup_keys {V : Type} (m : GoMap String V) :
    m.keys.filterMap m.lookup = m.entries.map (·.2) := by
  rw [AList.keys, List.keys, List.filterMap_map, ← List.filterMap_eq_map]
  apply List.filterMap_congr
  intro e he
  exact (mem_entries_iff m e.1 e.2).mp he

/-- Every value of a map is replaced in place. -/
def mapValues {V W : Type} (f : V → W) (m : GoMap String V) : GoMap String W :=
  ⟨m.entries.map (.map id fun _ => f), m.nodupKeys.map₂ (fun _ => f) _⟩

@[simp] theorem lookup_mapValues {V W : Type} (f : V → W) (m : GoMap String V) (k : String) :
    (mapValues f m).lookup k = (m.lookup k).map f := List.dlookup_map₂ k

@[simp] theorem keys_mapValues {V W : Type} (f : V → W) (m : GoMap String V) :
    (mapValues f m).keys = m.keys := List.map₂_keys (fun _ => f) _

/-- The entries that a filter leaves keep their keys and their order. -/
theorem keys_filterMap_sublist {V W : Type} (f : V → Option W)
    (es : List (Sigma fun _ : String => V)) :
    List.Sublist (es.filterMap (fun e =>
      (f e.2).map (fun w => (⟨e.1, w⟩ : Sigma fun _ : String => W)))).keys es.keys := by
  induction es with
  | nil => exact .slnil
  | cons e es ih =>
    rw [List.filterMap_cons]
    cases f e.2 with
    | none => exact ih.cons _
    | some w => exact ih.cons_cons _

/-- The entries whose values `f` maps to something. -/
def filterMapValues {V W : Type} (f : V → Option W) (m : GoMap String V) : GoMap String W :=
  ⟨m.entries.filterMap (fun e => (f e.2).map (fun w => ⟨e.1, w⟩)),
    List.Nodup.sublist (keys_filterMap_sublist f m.entries) m.nodupKeys⟩

/-- Mapping and filtering the values acts on each of them alone. -/
@[simp] theorem lookup_filterMapValues {V W : Type} (f : V → Option W) (m : GoMap String V)
    (k : String) : (filterMapValues f m).lookup k = (m.lookup k).bind f := by
  ext w
  rw [← mem_entries_iff]
  simp only [filterMapValues, List.mem_filterMap, Option.map_eq_some_iff, Sigma.mk.injEq,
    heq_eq_eq, Option.bind_eq_some_iff]
  constructor
  · rintro ⟨⟨k', v⟩, hmem, w', hw, rfl, rfl⟩
    exact ⟨v, (mem_entries_iff _ _ _).mp hmem, hw⟩
  · rintro ⟨v, hv, hw⟩
    exact ⟨⟨k, v⟩, (mem_entries_iff _ _ _).mpr hv, w, hw, rfl, rfl⟩

/-- A loop over a map that ends at the first value that passes the test; Go
leaves the order of the keys open. -/
def firstMatch {V : Type} (m : GoMap String V) (order : List String) (test : V → Bool) : Option V :=
  order.findSome? (fun k => (m.lookup k).filter test)

/-- Whatever the order, nothing is found exactly if no value passes. -/
theorem firstMatch_eq_none_iff {V : Type} {m : GoMap String V} {order : List String}
    (horder : order.Perm m.keys) (test : V → Bool) :
    firstMatch m order test = none ↔ ∀ k v, m.lookup k = some v → test v = false := by
  rw [firstMatch, List.findSome?_eq_none_iff]
  constructor
  · intro h k v hv
    have hk : k ∈ m.keys := AList.mem_keys.mp (AList.lookup_isSome.mp (by simp [hv]))
    have hnone := h k (horder.mem_iff.mpr hk)
    simpa [hv] using hnone
  · intro h k _
    cases hv : m.lookup k with
    | none => rfl
    | some v => simp [h k v hv]

theorem firstMatch_eq_some {V : Type} {m : GoMap String V} {order : List String} {test : V → Bool}
    {v : V} (h : firstMatch m order test = some v) :
    test v = true ∧ ∃ k, m.lookup k = some v := by
  obtain ⟨k, -, hk⟩ := List.exists_of_findSome?_eq_some h
  rw [Option.filter_eq_some_iff] at hk
  exact ⟨hk.2, k, hk.1⟩

/-- Every value that passes the test may come first. -/
theorem exists_order_firstMatch {V : Type} {m : GoMap String V} {test : V → Bool} {k : String}
    {v : V} (hv : m.lookup k = some v) (htest : test v = true) :
    ∃ order : List String, order.Perm m.keys ∧ firstMatch m order test = some v := by
  have hk : k ∈ m.keys := AList.mem_keys.mp (AList.lookup_isSome.mp (by simp [hv]))
  refine ⟨k :: m.keys.erase k, (List.perm_cons_erase hk).symm, ?_⟩
  simp [firstMatch, hv, htest]

/-- What holds of all entries of a map holds after an insertion of such an entry. -/
theorem forall_lookup_insert {K V : Type} [DecidableEq K] {P : K → V → Prop} {m : GoMap K V}
    (hm : ∀ k v, m.lookup k = some v → P k v) {k : K} {v : V} (hv : P k v) :
    ∀ k' v', (m.insert k v).lookup k' = some v' → P k' v' := by
  intro k' v' hv'
  by_cases hk : k' = k
  · subst hk
    rw [AList.lookup_insert, Option.some.injEq] at hv'
    exact hv' ▸ hv
  · rw [AList.lookup_insert_ne hk] at hv'
    exact hm k' v' hv'

theorem keys_insert_ne_nil {K V : Type} [DecidableEq K] (m : GoMap K V) (k : K) (v : V) :
    (m.insert k v).keys ≠ [] := by
  rw [AList.keys_insert]
  exact List.cons_ne_nil _ _

/-- Putting back what is there changes no look-up. -/
theorem lookup_insert_self {K V : Type} [DecidableEq K] {m : GoMap K V} {k : K} {v : V}
    (h : m.lookup k = some v) (k' : K) : (m.insert k v).lookup k' = m.lookup k' := by
  by_cases hk : k' = k
  · rw [hk, AList.lookup_insert, h]
  · rw [AList.lookup_insert_ne hk]

/-- A key of the map is still one after an insertion. -/
theorem exists_lookup_insert {K V : Type} [DecidableEq K] {m : GoMap K V} {k' : K} {v' : V}
    (h : m.lookup k' = some v') (k : K) (v : V) : ∃ w, (m.insert k v).lookup k' = some w := by
  by_cases hk : k' = k
  · exact ⟨v, by rw [hk, AList.lookup_insert]⟩
  · exact ⟨v', (AList.lookup_insert_ne hk).trans h⟩

theorem erase_of_lookup_none {K V : Type} [DecidableEq K] {m : GoMap K V} {k : K}
    (h : m.lookup k = none) : m.erase k = m :=
  AList.ext (List.kerase_of_notMem_keys (AList.lookup_eq_none.mp h))

theorem lookup_erase_some {K V : Type} [DecidableEq K] {m : GoMap K V} {k k' : K} {v : V}
    (h : (m.erase k).lookup k' = some v) : k' ≠ k ∧ m.lookup k' = some v := by
  by_cases hk : k' = k
  · rw [hk, AList.lookup_erase] at h
    cases h
  · rw [AList.lookup_erase_ne hk] at h
    exact ⟨hk, h⟩

theorem forall_lookup_erase {K V : Type} [DecidableEq K] {P : K → V → Prop} {m : GoMap K V}
    (hm : ∀ k v, m.lookup k = some v → P k v) (k : K) :
    ∀ k' v', (m.erase k).lookup k' = some v' → P k' v' := by
  intro k' v' hv'
  exact hm k' v' (lookup_erase_some hv').2

/-- What a fold of insertions keeps of all entries of a map. -/
theorem forall_lookup_foldl_insert {K V W : Type} [DecidableEq K] {P : K → V → Prop}
    (key : W → K) (value : W → V) (ws : List W) (m : GoMap K V)
    (hm : ∀ k v, m.lookup k = some v → P k v) (hws : ∀ w ∈ ws, P (key w) (value w)) :
    ∀ k v, (ws.foldl (fun m w => m.insert (key w) (value w)) m).lookup k = some v → P k v := by
  induction ws generalizing m with
  | nil => exact hm
  | cons w ws ih =>
    exact ih (m.insert (key w) (value w)) (forall_lookup_insert hm (hws w (.head _)))
      (fun w hw => hws w (.tail _ hw))

/-- Entries under different keys are all found after their insertion. -/
theorem lookup_foldl_insert {K V W : Type} [DecidableEq K] (key : W → K) (value : W → V)
    {ws : List W} (hnodup : (ws.map key).Nodup) (m : GoMap K V) {w : W} (hw : w ∈ ws) :
    (ws.foldl (fun m w => m.insert (key w) (value w)) m).lookup (key w) = some (value w) := by
  induction ws using List.reverseRecOn with
  | nil => cases hw
  | append_singleton ws w' ih =>
    rw [List.map_append, List.map_singleton, List.nodup_append] at hnodup
    rw [List.foldl_append, List.foldl_cons, List.foldl_nil]
    obtain hw | hw := List.mem_append.mp hw
    · have hne : key w ≠ key w' := hnodup.2.2 _ (List.mem_map_of_mem hw) _ (by simp)
      rw [AList.lookup_insert_ne hne]
      exact ih hnodup.1 hw
    · rw [List.mem_singleton.mp hw, AList.lookup_insert]

/-- Deleting a list of keys removes exactly those keys. -/
theorem lookup_foldl_erase {V : Type} (ks : List String) (m : GoMap String V) (k : String) :
    (ks.foldl (fun m k => m.erase k) m).lookup k = if k ∈ ks then none else m.lookup k := by
  induction ks generalizing m with
  | nil => simp
  | cons a ks ih =>
    rw [List.foldl_cons, ih]
    by_cases hk : k ∈ ks
    · simp [hk]
    · by_cases ha : k = a
      · subst ha
        simp
      · simp [hk, ha, AList.lookup_erase_ne ha]

/-- Go's conversions between `float32`, `float64` and integers, its test for
zero (true of both zeros) and its test for a finite number. -/
class GoFloats (F32 F64 : Type) where
  isZero32 : F32 → Bool
  isZero64 : F64 → Bool
  narrow : F64 → F32
  widen : F32 → F64
  ofInt32 : Int → F32
  ofInt64 : Int → F64
  trunc32 : F32 → Int
  trunc64 : F64 → Int
  finite64 : F64 → Bool

/-- Exact arithmetic: both floating-point types are the rationals. -/
instance : GoFloats ℚ ℚ where
  isZero32 x := x == 0
  isZero64 x := x == 0
  narrow := id
  widen := id
  ofInt32 n := n
  ofInt64 n := n
  trunc32 x := if x < 0 then ⌈x⌉ else ⌊x⌋
  trunc64 x := if x < 0 then ⌈x⌉ else ⌊x⌋
  finite64 _ := true

/-- The arithmetic and the comparisons of `float64`, and how `%v` prints one. -/
class GoFloat64 (F64 : Type) where
  zero : F64
  one : F64
  sub : F64 → F64 → F64
  abs : F64 → F64
  eq : F64 → F64 → Bool
  gt : F64 → F64 → Bool
  format : F64 → String

instance : GoFloat64 ℚ where
  zero := 0
  one := 1
  sub x y := x - y
  abs x := |x|
  eq x y := x == y
  gt x y := decide (y < x)
  format x := toString x

/-- What `json.Unmarshal` stores in an `interface{}`. Of two fields with one
name the first is the one in the map. -/
inductive Json (F64 : Type) where
  | null
  | bool (b : Bool)
  | number (x : F64)
  | string (s : String)
  | array (elems : List (Json F64))
  | object (fields : List (String × Json F64))

variable {F64 : Type}

/-- The type assertion to `map[string]interface{}`. -/
def Json.members : Json F64 → Option (GoMap String (Json F64))
  | .object fields => some (fields.map (fun f => ⟨f.1, f.2⟩)).toAList
  | _ => none

/-- What `%T` prints for the value. -/
def Json.goType : Json F64 → String
  | .null => "<nil>"
  | .bool _ => "bool"
  | .number _ => "float64"
  | .string _ => "string"
  | .array _ => "[]interface {}"
  | .object _ => "map[string]interface {}"

/-- The first of the fields of each name, sorted by name. -/
def sortedFields (fields : List (String × String)) : List (String × String) :=
  (fields.reverse.pwFilter (fun f g => f.1 ≠ g.1)).insertionSort (fun f g => f.1 ≤ g.1)

mutual

/-- `fmt.Sprintf("%v", v)`; maps are printed in the order of their keys. -/
def Json.sprint [GoFloat64 F64] : Json F64 → String
  | .null => "<nil>"
  | .bool b => if b then "true" else "false"
  | .number x => GoFloat64.format x
  | .string s => s
  | .array elems => "[" ++ String.intercalate " " (sprintElems elems) ++ "]"
  | .object fields =>
    "map[" ++ String.intercalate " "
      ((sortedFields (sprintFields fields)).map (fun f => f.1 ++ ":" ++ f.2)) ++ "]"

def sprintElems [GoFloat64 F64] : List (Json F64) → List String
  | [] => []
  | v :: vs => v.sprint :: sprintElems vs

def sprintFields [GoFloat64 F64] : List (String × Json F64) → List (String × String)
  | [] => []
  | (name, v) :: fields => (name, v.sprint) :: sprintFields fields

end

end GoValues
