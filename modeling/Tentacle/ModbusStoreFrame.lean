import Tentacle.CodecAgreement
import Tentacle.ModbusReadBlocks
import Tentacle.ModbusServerWrites

/-!
# The register store and its tags

Tags that share no register do not disturb each other: an update of one variable is read
back at its tag, and what every other tag reads stays as it is. The tags of a store are
found by a string that is made of function code and address; no two addresses make the
same string.
-/

namespace ModbusServer

open GoValues GoSlices BigEndian IeeeFloat ModbusCodec CodecAgreement
open ModbusScanner (ModbusTagConfig)
open ModbusReadBlocks (int64)

/-! ## The key of a tag -/

/-- The loop of `intToString`: it fills the buffer from its end. -/
def fillDigits (n : Nat) (buf : List Char) : List Char :=
  if n = 0 then buf else fillDigits (n / 10) (Nat.digitChar (n % 10) :: buf)

/-- The negation wraps for the smallest integer, which then has no digits at all. -/
def intToString (n : Int) : String :=
  if n = 0 then "0"
  else if n < 0 then String.ofList ('-' :: fillDigits (int64 (-n)).toNat [])
  else String.ofList (fillDigits n.toNat [])

def fcAddressKey (fc : String) (address : Int) : String := fc ++ ":" ++ intToString address

/-- The digits are filled in from the back, in front of what is there. -/
theorem fillDigits_eq {n : Nat} (h : 0 < n) (buf : List Char) :
    fillDigits n buf = Nat.toDigits 10 n ++ buf := by
  induction n using Nat.strongRecOn generalizing buf with
  | ind n ih =>
    rw [fillDigits, if_neg (by omega)]
    by_cases hsmall : n < 10
    · have hzero : n / 10 = 0 := by omega
      rw [hzero, fillDigits, if_pos rfl, Nat.toDigits_of_lt_base hsmall,
        Nat.mod_eq_of_lt hsmall]
      rfl
    · rw [ih (n / 10) (by omega) (by omega), Nat.toDigits_of_base_le (by decide) (not_lt.mp hsmall),
        List.append_assoc]
      rfl

/-- The integers that an `int` can be. -/
def IsInt64 (n : Int) : Prop := -2 ^ 63 ≤ n ∧ n < 2 ^ 63

/-- The text of a number is its digits and a sign, but for the least number, which has none. -/
theorem toList_intToString {n : Int} (h : IsInt64 n) :
    (intToString n).toList =
      if 0 ≤ n then Nat.toDigits 10 n.toNat
      else if n = -2 ^ 63 then ['-']
      else '-' :: Nat.toDigits 10 (-n).toNat := by
  obtain ⟨hlow, hhigh⟩ := h
  rw [intToString]
  by_cases hzero : n = 0
  · rw [hzero, if_pos rfl, if_pos le_rfl]
    rfl
  rw [if_neg hzero]
  by_cases hneg : n < 0
  · rw [if_pos hneg, if_neg (by omega), String.toList_ofList]
    by_cases hmin : n = -2 ^ 63
    · have hwrap : int64 (-n) = -2 ^ 63 := by rw [hmin]; decide
      rw [if_pos hmin, hwrap, fillDigits, if_pos (by decide)]
    · have hwrap : int64 (-n) = -n := Int.bmod_eq_of_le (by omega) (by omega)
      rw [if_neg hmin, hwrap, fillDigits_eq (by omega), List.append_nil]
  · rw [if_neg hneg, if_pos (by omega), String.toList_ofList, fillDigits_eq (by omega),
      List.append_nil]

/-- The integer that the characters stand for. -/
def readInt : List Char → Int
  | ['-'] => -2 ^ 63
  | '-' :: digits => -(Nat.ofDigitChars 10 digits 0 : Int)
  | digits => Nat.ofDigitChars 10 digits 0

/-- The digits of a number are read back. -/
theorem readInt_toDigits (n : Nat) : readInt (Nat.toDigits 10 n) = n := by
  have hdigits : ∀ c ∈ Nat.toDigits 10 n, c.isDigit = true := fun c hc =>
    Nat.isDigit_of_mem_toDigits (by decide) (by decide) hc
  have hvalue : Nat.ofDigitChars 10 (Nat.toDigits 10 n) 0 = n :=
    Nat.ofDigitChars_toDigits (by decide) (by decide)
  unfold readInt
  split
  next heq => simpa [heq] using hdigits '-'
  next digits hne heq =>
    have := hdigits '-' (by simp [heq])
    simp at this
  next => rw [hvalue]

/-- Every number of 64 bits is read back from its text. -/
theorem readInt_intToString {n : Int} (h : IsInt64 n) : readInt (intToString n).toList = n := by
  rw [toList_intToString h]
  by_cases hpos : 0 ≤ n
  · rw [if_pos hpos, readInt_toDigits]
    omega
  rw [if_neg hpos]
  by_cases hmin : n = -2 ^ 63
  · rw [if_pos hmin, hmin]
    rfl
  · have hvalue : Nat.ofDigitChars 10 (Nat.toDigits 10 (-n).toNat) 0 = (-n).toNat :=
      Nat.ofDigitChars_toDigits (by decide) (by decide)
    rw [if_neg hmin]
    cases hdigits : Nat.toDigits 10 (-n).toNat with
    | nil => exact absurd hdigits Nat.toDigits_ne_nil
    | cons d digits =>
      rw [hdigits] at hvalue
      change -(Nat.ofDigitChars 10 (d :: digits) 0 : Int) = n
      rw [hvalue]
      omega

/-- The text of a number has no colon. -/
theorem colon_notMem_intToString {n : Int} (h : IsInt64 n) : ':' ∉ (intToString n).toList := by
  have hdigits : ∀ m : Nat, ':' ∉ Nat.toDigits 10 m := by
    intro m hm
    have := Nat.isDigit_of_mem_toDigits (by decide) (by decide) hm
    simp at this
  rw [toList_intToString h]
  split
  · exact hdigits _
  split
  · decide
  · simp [hdigits]

/-- Nothing that follows a colon and holds none can be confused with what precedes it. -/
theorem append_cons_inj {α : Type} {a : α} {xs ys ds es : List α} (hds : a ∉ ds) (hes : a ∉ es)
    (h : xs ++ a :: ds = ys ++ a :: es) : xs = ys ∧ ds = es := by
  obtain ⟨as, rfl, hrest⟩ | ⟨bs, rfl, hrest⟩ := List.append_eq_append_iff.mp h
  · cases as with
    | nil => simpa using hrest
    | cons b as =>
      obtain ⟨-, rfl⟩ := List.cons.inj hrest
      simp at hds
  · cases bs with
    | nil => simpa [eq_comm] using hrest
    | cons b bs =>
      obtain ⟨-, rfl⟩ := List.cons.inj hrest
      simp at hes

/-- A key gives back its function code and its address. -/
theorem fcAddressKey_injective {fc fc' : String} {a a' : Int} (ha : IsInt64 a) (ha' : IsInt64 a')
    (h : fcAddressKey fc a = fcAddressKey fc' a') : fc = fc' ∧ a = a' := by
  have hlist : fc.toList ++ ':' :: (intToString a).toList =
      fc'.toList ++ ':' :: (intToString a').toList := by
    simpa [fcAddressKey, String.toList_append] using congrArg String.toList h
  obtain ⟨hfc, hdigits⟩ := append_cons_inj (colon_notMem_intToString ha)
    (colon_notMem_intToString ha') hlist
  refine ⟨String.toList_injective hfc, ?_⟩
  rw [← readInt_intToString ha, hdigits, readInt_intToString ha']

/-- The map from keys to tags as the code keeps it. -/
def addressIndex (tags : List ModbusTagConfig) : GoMap String ModbusTagConfig :=
  tags.foldl (fun m tag => m.insert (fcAddressKey tag.functionCode tag.address) tag) ∅

/-- The strings find the tags that the pairs of function code and address find. -/
theorem lookup_addressIndex (values : RegisterStore) {tags : List ModbusTagConfig}
    (h : ∀ tag ∈ tags, IsInt64 tag.address) {fc : String} {a : Int} (ha : IsInt64 a) :
    (addressIndex tags).lookup (fcAddressKey fc a) =
      (deviceStore values tags).tagsByAddress.lookup (fc, a) := by
  rw [lookup_deviceStore]
  induction tags using List.reverseRecOn with
  | nil => rfl
  | append_singleton tags tag ih =>
    rw [addressIndex, List.foldl_append, List.foldl_cons, List.foldl_nil, ← addressIndex, keptTag,
      List.reverse_append, List.reverse_singleton, List.singleton_append, List.find?_cons]
    by_cases htag : tag.functionCode = fc ∧ tag.address = a
    · obtain ⟨rfl, rfl⟩ := htag
      simp
    · have hkey : fcAddressKey fc a ≠ fcAddressKey tag.functionCode tag.address := by
        intro heq
        obtain ⟨rfl, rfl⟩ := fcAddressKey_injective ha (h tag (by simp)) heq
        exact htag ⟨rfl, rfl⟩
      simp only [htag, decide_false, AList.lookup_insert_ne hkey]
      exact ih fun t ht => h t (by simp [ht])

/-! ## The registers of a tag -/

/-- The tags share no coil and no register. -/
def Separate (t u : ModbusTagConfig) : Prop :=
  spaceOf t = spaceOf u →
    t.address + tagCount t ≤ u.address ∨ u.address + tagCount u ≤ t.address

/-- Two stores hold the same at an address of a space. -/
def SameCell (s s' : RegisterStore) (a : Int) : Space → Prop
  | .coils => s.coils a = s'.coils a
  | .discretes => s.discretes a = s'.discretes a
  | .holding => s.holding a = s'.holding a
  | .input => s.input a = s'.input a

theorem tagCount_pos (tag : ModbusTagConfig) : 0 < tagCount tag := by
  have hcount : ∀ datatype, 0 < registerCount datatype := by
    intro datatype
    cases datatype <;> simp [registerCount]
  rw [tagCount]
  cases spaceOf tag with
  | coils | discretes => exact Nat.one_pos
  | holding | input => exact hcount _

theorem readWords_congr {store store' : Int → UInt16} {address : Int} {count : Nat}
    (h : ∀ a, address ≤ a → a < address + count → store a = store' a) :
    readWords store address count = readWords store' address count := by
  refine List.map_congr_left fun i hi => ?_
  rw [List.mem_range] at hi
  exact h _ (by omega) (by omega)

/-- What a tag reads depends on its own coils or registers. -/
theorem typedValue_congr {s s' : RegisterStore} {tag : ModbusTagConfig}
    (h : ∀ a, tag.address ≤ a → a < tag.address + tagCount tag → SameCell s s' a (spaceOf tag)) :
    typedValue s tag = typedValue s' tag := by
  have hpos := tagCount_pos tag
  rw [typedValue, typedValue]
  cases hspace : spaceOf tag with
  | coils =>
    have hcell := h tag.address (by omega) (by omega)
    rw [hspace] at hcell
    exact congrArg GoValue.bool hcell
  | discretes =>
    have hcell := h tag.address (by omega) (by omega)
    rw [hspace] at hcell
    exact congrArg GoValue.bool hcell
  | holding =>
    rw [hspace] at h
    dsimp only
    rw [readWords_congr h]
  | input =>
    rw [hspace] at h
    dsimp only
    rw [readWords_congr h]

theorem length_toWords (bs : Bytes) (h : bs.length % 2 = 0) :
    (toWords bs).length = bs.length / 2 := by
  have hbytes := congrArg List.length (toBytes_toWords bs h)
  rw [toBytes, List.length_flatMap] at hbytes
  simp at hbytes
  omega

theorem arrangeWords_toWords {bs : Bytes} (h : bs.length % 2 = 0) (order : ByteOrder) :
    arrangeWords (toWords bs) order = toWords (serverBytes bs order) := by
  cases order with
  | ABCD | other => rfl
  | DCBA | BADC | CDAB =>
    rw [arrangeWords, toBytes_toWords bs h]
    rfl

/-- A value takes the registers of its type. -/
theorem length_encodeToRegisters [Platform] (x : Double) (datatype : Datatype) (order : ByteOrder) :
    (encodeToRegisters x datatype order).length = registerCount datatype := by
  have hlength : ∀ w n : Nat, w % 2 = 0 →
      (arrangeWords (toWords (putUint w n)) order).length = w / 2 := by
    intro w n hw
    rw [arrangeWords_toWords (by rwa [length_putUint]),
      length_toWords _ (by rwa [length_serverBytes, length_putUint]), length_serverBytes,
      length_putUint]
  cases datatype with
  | boolean | int16 | uint16 | other => exact hlength 2 _ rfl
  | int32 | uint32 | float32 => exact hlength 4 _ rfl
  | float64 => exact hlength 8 _ rfl

/-! ## An update -/

/-- The words that an update writes to the registers of a tag. -/
def wordsOf [Platform] (tag : ModbusTagConfig) (value : Json Double) : List UInt16 :=
  encodeToRegisters (toFloat64 value) (.ofString tag.datatype) (byteOrderOf tag)

/-- What the update of a variable with a tag does, space by space. -/
theorem updateFromVariable_eq [Platform] {s : RegisterStore} {tag : ModbusTagConfig}
    (hfound : s.tagsByVariable.lookup tag.id = some tag) (value : Json Double) :
    updateFromVariable s tag.id value =
      match spaceOf tag with
      | .coils => { s with coils := Function.update s.coils tag.address (toBool value) }
      | .discretes => { s with discretes := Function.update s.discretes tag.address (toBool value) }
      | .holding => { s with holding := writeWords s.holding tag.address (wordsOf tag value) }
      | .input => { s with input := writeWords s.input tag.address (wordsOf tag value) } := by
  rw [updateFromVariable, hfound]
  dsimp only
  rw [spaceOf]
  by_cases hcoil : tag.functionCode = "coil"
  · rw [if_pos hcoil, if_pos hcoil]
  rw [if_neg hcoil, if_neg hcoil]
  by_cases hdiscrete : tag.functionCode = "discrete"
  · rw [if_pos hdiscrete, if_pos hdiscrete]
  rw [if_neg hdiscrete, if_neg hdiscrete]
  by_cases hinput : tag.functionCode = "input"
  · rw [if_pos hinput, if_pos hinput]
    rfl
  · rw [if_neg hinput, if_neg hinput]
    rfl

theorem update_tagsByAddress [Platform] {s : RegisterStore} {tag : ModbusTagConfig}
    (hfound : s.tagsByVariable.lookup tag.id = some tag) (value : Json Double) :
    (updateFromVariable s tag.id value).tagsByAddress = s.tagsByAddress := by
  rw [updateFromVariable_eq hfound]
  cases spaceOf tag <;> rfl

/-- An update changes nothing outside the registers of its tag. -/
theorem update_sameCell [Platform] {s : RegisterStore} {tag : ModbusTagConfig}
    (hfound : s.tagsByVariable.lookup tag.id = some tag) (value : Json Double) {a : Int}
    {space : Space}
    (h : spaceOf tag = space → a < tag.address ∨ tag.address + tagCount tag ≤ a) :
    SameCell (updateFromVariable s tag.id value) s a space := by
  have hwords : (wordsOf tag value).length = registerCount (.ofString tag.datatype) :=
    length_encodeToRegisters _ _ _
  rw [updateFromVariable_eq hfound]
  rw [tagCount] at h
  cases hspace : spaceOf tag with
  | coils =>
    simp only [hspace] at h
    cases space with
    | coils => exact Function.update_of_ne (by have := h rfl; omega) _ _
    | discretes | holding | input => rfl
  | discretes =>
    simp only [hspace] at h
    cases space with
    | discretes => exact Function.update_of_ne (by have := h rfl; omega) _ _
    | coils | holding | input => rfl
  | holding =>
    rw [hspace] at h
    cases space with
    | holding => exact writeWords_other _ (by rw [hwords]; exact h rfl)
    | coils | discretes | input => rfl
  | input =>
    rw [hspace] at h
    cases space with
    | input => exact writeWords_other _ (by rw [hwords]; exact h rfl)
    | coils | discretes | holding => rfl

theorem readWords_writeWords (store : Int → UInt16) (address : Int) (ws : List UInt16) :
    readWords (writeWords store address ws) address ws.length = ws := by
  refine List.ext_getElem (by simp [readWords]) fun i hi hi' => ?_
  simp only [readWords, List.getElem_map, List.getElem_range]
  exact writeWords_apply _ _ hi'

/-! ## The values of a tag -/

/-- A value of the type of the tag, and the value that a read returns for it. -/
inductive ValueOf (tag : ModbusTagConfig) : Json Double → GoValue → Prop where
  | bit (b : Bool) : tag.functionCode = "coil" ∨ tag.functionCode = "discrete" →
      ValueOf tag (.bool b) (.bool b)
  | int (v : Value) (n : Int) : tag.functionCode = "holding" ∨ tag.functionCode = "input" →
      Datatype.ofString tag.datatype = v.datatype → v.int? = some n →
      ValueOf tag (.number (.ofInt n)) (.float64 (.ofInt n))

/-- The server's arrangement of two or four bytes undoes itself. -/
theorem serverBytes_serverBytes {bs : Bytes} (h : bs.length = 2 ∨ bs.length = 4)
    (order : ByteOrder) : serverBytes (serverBytes bs order) order = bs := by
  obtain h | h := h
  · obtain ⟨a, b, rfl⟩ := List.length_eq_two.mp h
    cases order <;> simp [serverBytes, swapBytes, swapWords]
  · obtain ⟨a, b, c, d, rfl⟩ := List.length_eq_four.mp h
    cases order <;> simp [serverBytes, swapBytes, swapWords]

/-- An integer is read back from the registers that the server encodes it to. -/
theorem decode_encode [Platform] {v : Value} {n : Int} (h : v.int? = some n) (order : ByteOrder) :
    decodeFromRegisters (encodeToRegisters (.ofInt n) v.datatype order) v.datatype order =
      .float64 (.ofInt n) := by
  have hnumber : v.number = .ofInt n := by
    cases v <;> simp_all [Value.number, Value.int?]
  have hlength : (raw v).length = 2 ∨ (raw v).length = 4 := by
    rw [length_raw]
    cases v <;> simp_all [Value.int?, Value.datatype, registerCount]
  have hraw : toBytes (arrangeWords (arrangeWords (toWords (raw v)) order) order) = raw v := by
    rw [arrangeWords_toWords (by omega), toBytes_arrangeWords _ (by rw [length_serverBytes]; omega),
      serverBytes_serverBytes hlength]
  rw [← hnumber, encodeToRegisters_eq]
  simp only [decodeFromRegisters, hraw, hnumber]
  cases v with
  | boolean | float32 | float64 => cases h
  | int16 n =>
    cases h
    rw [Value.datatype, uint_take_raw (.int16 n) 2 rfl, bits,
      toSigned_toUint (by norm_num) n.le_toInt n.toInt_lt]
  | uint16 n =>
    cases h
    rw [Value.datatype, uint_take_raw (.uint16 n) 2 rfl, bits, toUint_toNat n.toNat_lt]
  | int32 n =>
    cases h
    rw [Value.datatype, uint_take_raw (.int32 n) 4 rfl, bits,
      toSigned_toUint (by norm_num) n.le_toInt n.toInt_lt]
  | uint32 n =>
    cases h
    rw [Value.datatype, uint_take_raw (.uint32 n) 4 rfl, bits, toUint_toNat n.toNat_lt]

/-- After the update the tag holds the value. -/
theorem update_typedValue [Platform] {s : RegisterStore} {tag : ModbusTagConfig}
    (hfound : s.tagsByVariable.lookup tag.id = some tag) {value : Json Double} {result : GoValue}
    (hvalue : ValueOf tag value result) :
    typedValue (updateFromVariable s tag.id value) tag = result := by
  rw [updateFromVariable_eq hfound]
  cases hvalue with
  | bit b hfc =>
    obtain hfc | hfc := hfc
    · have hspace : spaceOf tag = .coils := by simp [spaceOf, hfc]
      simp [typedValue, hspace, toBool]
    · have hspace : spaceOf tag = .discretes := by simp [spaceOf, hfc]
      simp [typedValue, hspace, toBool]
  | int v n hfc hdatatype hn =>
    have hwords : (wordsOf tag (.number (.ofInt n))).length =
        registerCount (.ofString tag.datatype) := length_encodeToRegisters _ _ _
    have hdecode : decodeFromRegisters (wordsOf tag (.number (.ofInt n)))
        (.ofString tag.datatype) (byteOrderOf tag) = .float64 (.ofInt n) := by
      rw [wordsOf, hdatatype]
      exact decode_encode hn _
    obtain hfc | hfc := hfc
    · have hspace : spaceOf tag = .holding := by simp [spaceOf, hfc]
      simp only [typedValue, tagCount, hspace]
      rw [← hwords, readWords_writeWords, hdecode]
    · have hspace : spaceOf tag = .input := by simp [spaceOf, hfc]
      simp only [typedValue, tagCount, hspace]
      rw [← hwords, readWords_writeWords, hdecode]

/-! ## The tags of a device -/

section Device

variable {tags : List ModbusTagConfig}

def functionCodes : List String := ["coil", "discrete", "holding", "input"]

/-- The tags of a device: distinct IDs, the four function codes, no register in two tags,
and addresses that are values of an `int`. -/
structure TagMap (tags : List ModbusTagConfig) : Prop where
  ids : (tags.map (·.id)).Nodup
  codes : ∀ tag ∈ tags, tag.functionCode ∈ functionCodes
  ints : ∀ tag ∈ tags, -2 ^ 63 ≤ tag.address ∧ tag.address + tagCount tag ≤ 2 ^ 63
  separate : ∀ t ∈ tags, ∀ u ∈ tags, t ≠ u → Separate t u

theorem TagMap.isInt64 (h : TagMap tags) : ∀ tag ∈ tags, IsInt64 tag.address := by
  intro tag htag
  obtain ⟨hlow, hhigh⟩ := h.ints tag htag
  have hpos := tagCount_pos tag
  exact ⟨hlow, by omega⟩

/-- Of several tags of one variable the last one is registered. -/
theorem lookup_foldl_byVariable (s : RegisterStore) (id : String) :
    (tags.foldl registerTag s).tagsByVariable.lookup id =
      (tags.reverse.find? (·.id = id)).or (s.tagsByVariable.lookup id) := by
  induction tags using List.reverseRecOn with
  | nil => rfl
  | append_singleton tags tag ih =>
    rw [List.foldl_append, List.foldl_cons, List.foldl_nil, registerTag, List.reverse_append,
      List.reverse_singleton, List.singleton_append, List.find?_cons]
    by_cases htag : tag.id = id
    · subst htag
      simp
    · simp only [htag, decide_false, AList.lookup_insert_ne (Ne.symm htag), ih]

/-- In a map of tags each is registered under its variable. -/
theorem TagMap.lookup_id (h : TagMap tags) (values : RegisterStore) {tag : ModbusTagConfig}
    (htag : tag ∈ tags) : (deviceStore values tags).tagsByVariable.lookup tag.id = some tag := by
  rw [deviceStore, lookup_foldl_byVariable]
  cases hfind : tags.reverse.find? (·.id = tag.id) with
  | none =>
    have hnone := List.find?_eq_none.mp hfind tag (List.mem_reverse.mpr htag)
    simp at hnone
  | some found =>
    have hmem := List.mem_reverse.mp (List.mem_of_find?_eq_some hfind)
    have hid : found.id = tag.id := by simpa using List.find?_some hfind
    rw [Option.some_or, List.inj_on_of_nodup_map h.ids hmem htag hid]

theorem TagMap.lookup_address (h : TagMap tags) (values : RegisterStore) {tag : ModbusTagConfig}
    (htag : tag ∈ tags) :
    (deviceStore values tags).tagsByAddress.lookup (tag.functionCode, tag.address) =
      some tag := by
  rw [lookup_deviceStore]
  cases hkept : keptTag tags tag.functionCode tag.address with
  | none =>
    have hnone := List.find?_eq_none.mp hkept tag (List.mem_reverse.mpr htag)
    simp at hnone
  | some found =>
    obtain ⟨hmem, hfc, haddress⟩ := keptTag_spec hkept
    -- Two tags at one address would share the register there.
    by_contra hne
    have hseparate := h.separate found hmem tag htag (fun heq => hne (congrArg some heq))
      (by rw [spaceOf, spaceOf, hfc])
    have hfound := tagCount_pos found
    have hcount := tagCount_pos tag
    omega

/-- A read at the address of a tag returns what the registers of the tag hold. -/
theorem readTypedValue_tag {s : RegisterStore} {tag : ModbusTagConfig}
    (hcode : tag.functionCode ∈ functionCodes)
    (hlookup : s.tagsByAddress.lookup (tag.functionCode, tag.address) = some tag) :
    readTypedValue s tag.functionCode tag.address = some
      { variableID := tag.id
        value := typedValue s tag
        writable := tag.writable } := by
  rw [readTypedValue, hlookup, Option.map_some]
  simp only [functionCodes, List.mem_cons, List.not_mem_nil, or_false] at hcode
  obtain hfc | hfc | hfc | hfc := hcode
  · have hspace : spaceOf tag = .coils := by simp [spaceOf, hfc]
    simp [typedValue, hspace, hfc]
  · have hspace : spaceOf tag = .discretes := by simp [spaceOf, hfc]
    simp [typedValue, hspace, hfc]
  · have hspace : spaceOf tag = .holding := by simp [spaceOf, hfc]
    simp [typedValue, tagCount, hspace, hfc]
  · have hspace : spaceOf tag = .input := by simp [spaceOf, hfc]
    simp [typedValue, tagCount, hspace, hfc]

/-- An update of the variable of one tag is read back at that tag and leaves the reads of
all other tags as they were, whatever the store holds and whatever the byte orders are;
and the keys of the code find the tags. -/
theorem updateFromVariable_frame [Platform] (values : RegisterStore) (h : TagMap tags)
    {tag : ModbusTagConfig} (htag : tag ∈ tags) {value : Json Double} {result : GoValue}
    (hvalue : ValueOf tag value result) :
    (∀ t ∈ tags, (addressIndex tags).lookup (fcAddressKey t.functionCode t.address) =
      (deviceStore values tags).tagsByAddress.lookup (t.functionCode, t.address)) ∧
    readTypedValue (updateFromVariable (deviceStore values tags) tag.id value)
      tag.functionCode tag.address = some
        { variableID := tag.id
          value := result
          writable := tag.writable } ∧
    ∀ other ∈ tags, other ≠ tag →
      readTypedValue (updateFromVariable (deviceStore values tags) tag.id value)
        other.functionCode other.address =
      readTypedValue (deviceStore values tags) other.functionCode other.address := by
  have hfound := h.lookup_id values htag
  have hlookup : ∀ t ∈ tags,
      (updateFromVariable (deviceStore values tags) tag.id value).tagsByAddress.lookup
        (t.functionCode, t.address) = some t := by
    intro t ht
    rw [update_tagsByAddress hfound, h.lookup_address values ht]
  refine ⟨fun t ht => lookup_addressIndex values h.isInt64 (h.isInt64 t ht), ?_, ?_⟩
  · rw [readTypedValue_tag (h.codes tag htag) (hlookup tag htag), update_typedValue hfound hvalue]
  · intro other hother hne
    rw [readTypedValue_tag (h.codes other hother) (hlookup other hother),
      readTypedValue_tag (h.codes other hother) (h.lookup_address values hother)]
    have hsame : typedValue (updateFromVariable (deviceStore values tags) tag.id value) other =
        typedValue (deviceStore values tags) other := by
      refine typedValue_congr fun a hlow hhigh => update_sameCell hfound value fun hspace => ?_
      have hseparate := h.separate other hother tag htag hne hspace.symm
      omega
    rw [hsame]

end Device

/-- A level in two registers whose bytes are in the order CDAB. -/
def level : ModbusTagConfig where
  id := "level"
  address := 10
  functionCode := "holding"
  datatype := "int32"
  byteOrder := "CDAB"
  writable := true

/-- A level of -5 is read back, and the alarm keeps its state. -/
theorem updateFromVariable_frame_level :
    letI := wrapping
    (∀ t ∈ [level, alarm], (addressIndex [level, alarm]).lookup
        (fcAddressKey t.functionCode t.address) =
      (deviceStore {} [level, alarm]).tagsByAddress.lookup (t.functionCode, t.address)) ∧
    readTypedValue (updateFromVariable (deviceStore {} [level, alarm]) "level"
      (.number (.ofInt (-5)))) "holding" 10 = some ⟨"level", .float64 (.ofInt (-5)), true⟩ ∧
    ∀ other ∈ [level, alarm], other ≠ level →
      readTypedValue (updateFromVariable (deviceStore {} [level, alarm]) "level"
        (.number (.ofInt (-5)))) other.functionCode other.address =
      readTypedValue (deviceStore {} [level, alarm]) other.functionCode other.address := by
  let _ := wrapping
  have htags : TagMap [level, alarm] := by
    refine ⟨by decide, by decide, by decide, ?_⟩
    have hspace : spaceOf level ≠ spaceOf alarm := by decide
    intro t ht u hu hne hsame
    simp only [List.mem_cons, List.not_mem_nil, or_false] at ht hu
    obtain rfl | rfl := ht <;> obtain rfl | rfl := hu
    · exact absurd rfl hne
    · exact absurd hsame hspace
    · exact absurd hsame.symm hspace
    · exact absurd rfl hne
  have hmem : level ∈ [level, alarm] := by simp
  have hvalue : ValueOf level (.number (.ofInt (-5))) (.float64 (.ofInt (-5))) :=
    .int (.int32 (-5)) (-5) (.inl rfl) rfl rfl
  exact updateFromVariable_frame {} htags hmem hvalue

end ModbusServer
