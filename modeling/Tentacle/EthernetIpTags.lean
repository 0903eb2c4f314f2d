import Mathlib.Data.List.TakeWhile
import Mathlib.Data.String.Basic
import Tentacle.BigEndian
import Tentacle.GoValues

/-!
# Tag values of the EtherNet/IP scanner

`writeTagValue` stores the text of a command in the buffer of a tag and `readByKnownType` reads
the buffer. The accessors belong to the PLC library, which says of them: a number is read and
stored with its least significant byte first, and a store beyond the end of the buffer has no
effect. What a read beyond the end returns, and floating-point numbers, are left to the library.
-/

namespace EthernetIpTags

open GoValues

/-! ## Accessors -/

def littleEndian (bytes : Bytes) : Nat := BigEndian.uint bytes.reverse

def putLittleEndian (w n : Nat) : Bytes := (BigEndian.putUint w n).reverse

/-- The unsigned numbers of `w` bytes that the library reads at the start of a buffer. -/
class UintAccess where
  getUint : Nat → Bytes → Nat
  getUint_eq : ∀ w buf, w ≤ buf.length → getUint w buf = littleEndian (buf.take w)

/-- The accessors of the library, for numbers of `w` bytes and for bit 0. A store of a
floating-point number scans the text of the value with `%f`. -/
structure PlcTag (F64 : Type) extends UintAccess where
  getInt : Nat → Bytes → Int
  setInt32 : Bytes → Int → Bytes
  getBit : Bytes → Bool
  setBit : Bytes → Bool → Bytes
  getFloat32 : Bytes → F64
  getFloat64 : Bytes → F64
  setFloat32 : Bytes → String → Bytes
  setFloat64 : Bytes → String → Bytes
  getInt_eq : ∀ w buf, w ≤ buf.length →
    getInt w buf = Int.bmod (littleEndian (buf.take w)) (256 ^ w)
  setInt32_eq : ∀ buf val, setInt32 buf val =
    if buf.length < 4 then buf else putLittleEndian 4 (val % 256 ^ 4).toNat ++ buf.drop 4
  getBit_cons : ∀ b rest, getBit (b :: rest) = (b &&& 1 ≠ 0 : Bool)
  setBit_cons : ∀ b rest val,
    setBit (b :: rest) val = (if val then b ||| 1 else b &&& 254) :: rest

/-- A length in four bytes, and the characters behind it. -/
def getString {F64 : Type} (lib : PlcTag F64) (buf : Bytes) : Bytes :=
  let strLen := lib.getInt 4 buf
  if strLen ≤ 0 ∨ 1000 < strLen then []
  else (List.range strLen.toNat).map fun i => UInt8.ofNat (lib.getUint 1 (buf.drop (4 + i)))

/-! ## Texts -/

def blanks : List Char :=
  ['\t', '\x0b', '\x0c', '\r', ' ', '\u0085', '\u00a0', '\u1680', '\u2028', '\u2029', '\u202f',
    '\u205f', '\u3000']

/-- `isSpace` of `fmt`, but for the line feed, which ends a scan. -/
def isBlank (c : Char) : Bool := c ∈ blanks || (0x2000 ≤ c.toNat && c.toNat ≤ 0x200a)

def scanSign : List Char → Bool × List Char
  | '-' :: cs => (true, cs)
  | '+' :: cs => (false, cs)
  | cs => (false, cs)

/-- The digits behind the sign; a number beyond an `int64` is an error. -/
def scanDigits (negative : Bool) (cs : List Char) : Int :=
  let digits := cs.takeWhile Char.isDigit
  let n : Int := Nat.ofDigitChars 10 digits 0
  let n := if negative then -n else n
  if digits = [] ∨ n < -2 ^ 63 ∨ 2 ^ 63 ≤ n then 0 else n

/-- The number that `fmt.Sscanf(s, "%d", &n)` leaves in a zero `int64`. -/
def sscanfInt (s : String) : Int :=
  let signed := scanSign (s.toList.dropWhile isBlank)
  scanDigits signed.1 signed.2

inductive TagValue (F64 : Type) where
  | bool (b : Bool)
  | int (n : Int)
  | float (x : F64)
  | string (s : Bytes)
  deriving DecidableEq

variable {F64 : Type}

/-- The text of a boolean or an integer in a command. -/
def TagValue.text : TagValue F64 → String
  | .bool b => if b then "true" else "false"
  | .int n => toString n
  | .float _ | .string _ => ""

/-! ## Reading and writing -/

variable (lib : PlcTag F64)

def readByKnownType (buf : Bytes) (cipType : String) : Except String (TagValue F64 × String) :=
  if cipType = "BOOL" then .ok (.bool (lib.getBit buf), "BOOL")
  else if cipType = "SINT" then .ok (.int (lib.getInt 1 buf), "SINT")
  else if cipType = "INT" then .ok (.int (lib.getInt 2 buf), "INT")
  else if cipType = "DINT" then .ok (.int (lib.getInt 4 buf), "DINT")
  else if cipType = "LINT" then .ok (.int (lib.getInt 8 buf), "LINT")
  else if cipType = "USINT" then .ok (.int (lib.getUint 1 buf), "USINT")
  else if cipType = "UINT" then .ok (.int (lib.getUint 2 buf), "UINT")
  else if cipType = "UDINT" then .ok (.int (lib.getUint 4 buf), "UDINT")
  else if cipType = "REAL" then .ok (.float (lib.getFloat32 buf), "REAL")
  else if cipType = "LREAL" then .ok (.float (lib.getFloat64 buf), "LREAL")
  else if cipType = "STRING" then .ok (.string (getString lib buf), "STRING")
  else if buf.length = 4 then .ok (.int (lib.getInt 4 buf), cipType)
  else .error ("unsupported CIP type: " ++ cipType)

/-- The switch of `writeTagValue`: the buffer with the value stored. -/
def store (buf : Bytes) (cipType valueStr : String) : Option Bytes :=
  if cipType = "BOOL" then some (lib.setBit buf (valueStr = "true" ∨ valueStr = "1"))
  else if cipType = "SINT" then some (lib.setInt32 buf (Int.bmod (sscanfInt valueStr) (2 ^ 8)))
  else if cipType = "INT" then some (lib.setInt32 buf (Int.bmod (sscanfInt valueStr) (2 ^ 16)))
  else if cipType = "DINT" ∨ cipType = "LINT" then
    some (lib.setInt32 buf (Int.bmod (sscanfInt valueStr) (2 ^ 32)))
  else if cipType = "REAL" then some (lib.setFloat32 buf valueStr)
  else if cipType = "LREAL" then some (lib.setFloat64 buf valueStr)
  else none

/-- What the controller answers: the buffer that the read before the write fetches, and the
outcome of the write. -/
structure Controller where
  read : Except String Bytes
  write : Except String Unit

/-- The buffer that was written. -/
def writeTagValue (tag : Controller) (cipType valueStr : String) : Except String Bytes :=
  match tag.read with
  | .error err => .error ("pre-read failed: " ++ err)
  | .ok buf =>
    match store lib buf cipType valueStr with
    | none => .error ("unsupported write type: " ++ cipType)
    | some buf =>
      match tag.write with
      | .error err => .error err
      | .ok () => .ok buf

/-! ## Round trips of the accessors -/

@[simp] theorem length_putLittleEndian (w n : Nat) : (putLittleEndian w n).length = w := by
  rw [putLittleEndian, List.length_reverse, BigEndian.length_putUint]

theorem littleEndian_putLittleEndian (w n : Nat) :
    littleEndian (putLittleEndian w n) = n % 256 ^ w := by
  rw [littleEndian, putLittleEndian, List.reverse_reverse, BigEndian.uint_putUint]

theorem littleEndian_append (xs ys : Bytes) :
    littleEndian (xs ++ ys) = littleEndian xs + 256 ^ xs.length * littleEndian ys := by
  rw [littleEndian, List.reverse_append, BigEndian.uint_append, List.length_reverse, Nat.add_comm]
  rfl

theorem littleEndian_lt (bytes : Bytes) : littleEndian bytes < 256 ^ bytes.length := by
  have hlt := BigEndian.uint_lt bytes.reverse
  rwa [List.length_reverse] at hlt

section Accessors

variable {lib : PlcTag F64}

theorem getInt_of_length {w : Nat} {buf : Bytes} (h : buf.length = w) :
    lib.getInt w buf = Int.bmod (littleEndian buf) (256 ^ w) := by
  rw [lib.getInt_eq w buf h.ge, ← h, List.take_length]

@[simp] theorem length_setInt32 (buf : Bytes) (val : Int) :
    (lib.setInt32 buf val).length = buf.length := by
  rw [lib.setInt32_eq]
  split
  next => rfl
  next h =>
    rw [List.length_append, length_putLittleEndian, List.length_drop]
    omega

/-- A short buffer keeps its bytes. -/
theorem setInt32_of_lt {buf : Bytes} (h : buf.length < 4) (val : Int) :
    lib.setInt32 buf val = buf := by
  rw [lib.setInt32_eq, if_pos h]

/-- The four low bytes are the new ones and the rest is what was there. -/
theorem littleEndian_setInt32 {buf : Bytes} (h : 4 ≤ buf.length) (val : Int) :
    littleEndian (lib.setInt32 buf val) =
      (val % 2 ^ 32).toNat + 2 ^ 32 * littleEndian (buf.drop 4) := by
  rw [lib.setInt32_eq, if_neg (by omega), littleEndian_append, littleEndian_putLittleEndian,
    length_putLittleEndian]
  have hlt : (val % 2 ^ 32).toNat < 2 ^ 32 := by omega
  have hpow : (256 : Int) ^ 4 = 2 ^ 32 := by norm_num
  rw [hpow, show 256 ^ 4 = 2 ^ 32 by norm_num, Nat.mod_eq_of_lt hlt]

/-- What fits four bytes is read back from them. -/
theorem getInt_setInt32 {buf : Bytes} (h : buf.length = 4) {n : Int} (hlo : -2 ^ 31 ≤ n)
    (hhi : n < 2 ^ 31) : lib.getInt 4 (lib.setInt32 buf n) = n := by
  have hnil : littleEndian (buf.drop 4) = 0 := by
    rw [List.drop_of_length_le (by omega)]
    rfl
  rw [getInt_of_length ((length_setInt32 buf n).trans h), littleEndian_setInt32 (by omega), hnil,
    Int.bmod_def]
  split <;> omega

/-- Eight bytes of which the lower four were stored. -/
theorem getInt_setInt32_iff {buf : Bytes} (h : buf.length = 8) {n : Int} (hlo : -2 ^ 63 ≤ n)
    (hhi : n < 2 ^ 63) :
    lib.getInt 8 (lib.setInt32 buf (Int.bmod n (2 ^ 32))) = n ↔
      lib.getInt 8 buf / 2 ^ 32 = n / 2 ^ 32 := by
  have hlow : littleEndian (buf.take 4) < 2 ^ 32 := by
    have hlt := littleEndian_lt (buf.take 4)
    rwa [List.length_take, h] at hlt
  have hhigh : littleEndian (buf.drop 4) < 2 ^ 32 := by
    have hlt := littleEndian_lt (buf.drop 4)
    rwa [List.length_drop, h] at hlt
  have hbuf : littleEndian buf =
      littleEndian (buf.take 4) + 2 ^ 32 * littleEndian (buf.drop 4) := by
    conv_lhs => rw [← List.take_append_drop 4 buf, littleEndian_append, List.length_take, h]
    rfl
  have hsame : Int.bmod n (2 ^ 32) % 2 ^ 32 = n % 2 ^ 32 := Int.bmod_emod
  rw [getInt_of_length h, getInt_of_length ((length_setInt32 buf _).trans h),
    littleEndian_setInt32 (by omega), hsame, hbuf, Int.bmod_def, Int.bmod_def]
  split <;> split <;> omega

/-- The bit that is written is read back. -/
theorem getBit_setBit {buf : Bytes} (h : buf.length = 1) (val : Bool) :
    lib.getBit (lib.setBit buf val) = val := by
  obtain ⟨b, rfl⟩ := List.length_eq_one_iff.mp h
  rw [lib.setBit_cons, lib.getBit_cons]
  cases val with
  | false =>
    have hzero : (b &&& 254) &&& 1 = 0 := by
      rw [UInt8.and_assoc]
      exact UInt8.and_zero
    simp [hzero]
  | true =>
    have hone : (b ||| 1) &&& 1 = 1 := by
      apply UInt8.toNat_inj.mp
      rw [UInt8.toNat_and, UInt8.toNat_or]
      change (b.toNat ||| 1) &&& 1 = 1
      rw [Nat.and_one_is_mod, Nat.or_mod_two_eq_one]
      exact .inr rfl
    simp [hone]

end Accessors

/-! ## The scan of a decimal text -/

theorem takeWhile_toDigits (n : Nat) :
    (Nat.toDigits 10 n).takeWhile Char.isDigit = Nat.toDigits 10 n := by
  apply List.takeWhile_eq_self_iff.mpr
  intro c hc
  exact Nat.isDigit_of_mem_toDigits (by decide) (by decide) hc

/-- The digits of a number in range are scanned to it. -/
theorem scanDigits_toDigits (negative : Bool) (n : Nat) (hlo : negative = true → n ≤ 2 ^ 63)
    (hhi : negative = false → n < 2 ^ 63) :
    scanDigits negative (Nat.toDigits 10 n) = if negative then -(n : Int) else n := by
  have hvalue : Nat.ofDigitChars 10 (Nat.toDigits 10 n) 0 = n :=
    Nat.ofDigitChars_toDigits (by decide) (by decide)
  rw [scanDigits, takeWhile_toDigits, hvalue]
  apply if_neg
  cases negative with
  | false =>
    have hhi := hhi rfl
    simp only [Nat.toDigits_ne_nil, false_or, Bool.false_eq_true, if_false]
    omega
  | true =>
    have hlo := hlo rfl
    simp only [Nat.toDigits_ne_nil, false_or, if_true]
    omega

theorem isBlank_of_isDigit {c : Char} (h : c.isDigit = true) : isBlank c = false := by
  have hblanks : blanks.all (fun d => !d.isDigit) = true := by decide
  have hnine : c.toNat ≤ 57 := (toNat_of_isDigit h).2
  rw [isBlank, Bool.or_eq_false_iff, Bool.and_eq_false_iff]
  refine ⟨decide_eq_false ?_, .inl (decide_eq_false ?_)⟩
  · intro hmem
    have hno := List.all_eq_true.mp hblanks c hmem
    rw [h] at hno
    cases hno
  · omega

/-- Digits stand for themselves: no blank and no sign is in front of them. -/
theorem scanSign_toDigits (n : Nat) :
    scanSign ((Nat.toDigits 10 n).dropWhile isBlank) = (false, Nat.toDigits 10 n) := by
  cases hcs : Nat.toDigits 10 n with
  | nil => exact absurd hcs Nat.toDigits_ne_nil
  | cons c cs =>
    have hdigit : c.isDigit = true := by
      apply Nat.isDigit_of_mem_toDigits (by decide : 0 < 10) (by decide : 10 ≤ 10)
      rw [hcs]
      exact List.mem_cons_self
    rw [List.dropWhile_cons_of_neg (by simp [isBlank_of_isDigit hdigit])]
    unfold scanSign
    split
    next heq =>
      cases heq
      exact absurd hdigit (by decide)
    next heq =>
      cases heq
      exact absurd hdigit (by decide)
    next => rfl

/-- The text of a number in range is scanned to it. -/
theorem sscanfInt_toString {n : Int} (hlo : -2 ^ 63 ≤ n) (hhi : n < 2 ^ 63) :
    sscanfInt (toString n) = n := by
  rw [sscanfInt, Int.toString_eq_repr, Int.repr_eq_if]
  by_cases hpos : 0 ≤ n
  · rw [if_pos hpos, Nat.toList_repr, scanSign_toDigits]
    have hscan := scanDigits_toDigits false n.toNat nofun (by omega)
    exact hscan.trans (Int.toNat_of_nonneg hpos)
  · have hlist : ("-" ++ (-n).toNat.repr).toList = '-' :: Nat.toDigits 10 (-n).toNat := by
      rw [String.toList_append, Nat.toList_repr]
      rfl
    rw [if_neg hpos, hlist, List.dropWhile_cons_of_neg (by decide)]
    have hscan := scanDigits_toDigits true (-n).toNat (by omega) nofun
    apply hscan.trans
    rw [if_pos rfl]
    omega

/-! ## Agreement of reads and writes -/

/-- The size of a tag of the type; of a type without a case of its own only tags of four bytes
are read. -/
def cipSize (cipType : String) : Nat :=
  if cipType ∈ ["BOOL", "SINT", "USINT"] then 1
  else if cipType ∈ ["INT", "UINT"] then 2
  else if cipType ∈ ["LINT", "LREAL"] then 8
  else 4

/-- The bounds of an integer type, the upper one excluded. -/
def intRange (cipType : String) : Option (Int × Int) :=
  if cipType ∈ ["BOOL", "REAL", "LREAL", "STRING"] then none
  else if cipType = "SINT" then some (-2 ^ 7, 2 ^ 7)
  else if cipType = "INT" then some (-2 ^ 15, 2 ^ 15)
  else if cipType = "LINT" then some (-2 ^ 63, 2 ^ 63)
  else if cipType = "USINT" then some (0, 2 ^ 8)
  else if cipType = "UINT" then some (0, 2 ^ 16)
  else if cipType = "UDINT" then some (0, 2 ^ 32)
  else some (-2 ^ 31, 2 ^ 31)

def InRange (cipType : String) : TagValue F64 → Prop
  | .bool _ => cipType = "BOOL"
  | .int n => ∃ lo hi, intRange cipType = some (lo, hi) ∧ lo ≤ n ∧ n < hi
  | .float _ | .string _ => False

/-- A write that succeeds leaves a buffer of the type's size from which the value is read. -/
def Agrees (tag : Controller) (cipType : String) (v : TagValue F64) : Prop :=
  ∀ buf, writeTagValue lib tag cipType v.text = .ok buf →
    buf.length = cipSize cipType ∧ readByKnownType lib buf cipType = .ok (v, cipType)

/-- Four bytes do not fit into a tag of one or two, which must have the value already, and are
half of a tag of eight, which must have the upper half of the value already. -/
def Fits (buf : Bytes) (cipType : String) (v : TagValue F64) : Prop :=
  (cipType = "SINT" ∨ cipType = "INT" → readByKnownType lib buf cipType = .ok (v, cipType)) ∧
    (cipType = "LINT" → ∀ n, v = .int n → lib.getInt 8 buf / 2 ^ 32 = n / 2 ^ 32)

/-- A write succeeds when the read and the write of the library do and the value can be stored. -/
theorem writeTagValue_ok_iff {tag : Controller} {cipType valueStr : String} {buf' : Bytes} :
    writeTagValue lib tag cipType valueStr = .ok buf' ↔
      ∃ buf, tag.read = .ok buf ∧ tag.write = .ok () ∧
        store lib buf cipType valueStr = some buf' := by
  rw [writeTagValue]
  cases tag.read with
  | error err => simp
  | ok buf =>
    cases hstore : store lib buf cipType valueStr with
    | none => simp [hstore]
    | some b =>
      cases tag.write with
      | error err => simp [hstore]
      | ok => simp [hstore]

/-- A bool is read back from its byte. -/
theorem store_bool_agrees {buf : Bytes} (hlen : buf.length = 1) (b : Bool) :
    ∀ buf', store lib buf "BOOL" (TagValue.bool b : TagValue F64).text = some buf' →
      buf'.length = 1 ∧ readByKnownType lib buf' "BOOL" = .ok (.bool b, "BOOL") := by
  intro buf' hstore
  have hval : decide ((TagValue.bool b : TagValue F64).text = "true" ∨
      (TagValue.bool b : TagValue F64).text = "1") = b := by
    cases b <;> simp [TagValue.text]
  have hbuf : buf' = lib.setBit buf b := by
    simpa [store, hval] using hstore.symm
  subst hbuf
  constructor
  · obtain ⟨x, rfl⟩ := List.length_eq_one_iff.mp hlen
    rw [lib.setBit_cons]
    rfl
  · rw [readByKnownType, if_pos rfl, getBit_setBit hlen]

theorem fits_of_ne {cipType : String} (buf : Bytes) (v : TagValue F64) (hsint : cipType ≠ "SINT")
    (hint : cipType ≠ "INT") (hlint : cipType ≠ "LINT") : Fits lib buf cipType v :=
  ⟨fun h => (h.elim hsint hint).elim, fun h => (hlint h).elim⟩

/-- A number of four bytes is read back whole. -/
theorem store_dint_agrees {buf : Bytes} (hlen : buf.length = 4) {n : Int} (hlo : -2 ^ 31 ≤ n)
    (hhi : n < 2 ^ 31) :
    ∀ buf', store lib buf "DINT" (toString n) = some buf' →
      buf'.length = 4 ∧ readByKnownType lib buf' "DINT" = .ok (.int n, "DINT") := by
  intro buf' hstore
  have hscan : sscanfInt (toString n) = n := sscanfInt_toString (by omega) (by omega)
  have hbmod : Int.bmod n (2 ^ 32) = n := Int.bmod_eq_of_le (by omega) (by omega)
  change some (lib.setInt32 buf (Int.bmod (sscanfInt (toString n)) (2 ^ 32))) = some buf' at hstore
  rw [hscan, hbmod] at hstore
  cases hstore
  refine ⟨(length_setInt32 buf n).trans hlen, ?_⟩
  change Except.ok (TagValue.int (lib.getInt 4 (lib.setInt32 buf n)), "DINT") = _
  rw [getInt_setInt32 hlen hlo hhi]

/-- Of eight bytes only four are written, so the upper ones must be right before. -/
theorem store_lint_agrees_iff {buf : Bytes} (hlen : buf.length = 8) {n : Int} (hlo : -2 ^ 63 ≤ n)
    (hhi : n < 2 ^ 63) :
    (∀ buf', store lib buf "LINT" (toString n) = some buf' →
      buf'.length = 8 ∧ readByKnownType lib buf' "LINT" = .ok (.int n, "LINT")) ↔
      lib.getInt 8 buf / 2 ^ 32 = n / 2 ^ 32 := by
  have hstore : store lib buf "LINT" (toString n) =
      some (lib.setInt32 buf (Int.bmod n (2 ^ 32))) := by
    change some (lib.setInt32 buf (Int.bmod (sscanfInt (toString n)) (2 ^ 32))) = _
    rw [sscanfInt_toString hlo hhi]
  have hlength : (lib.setInt32 buf (Int.bmod n (2 ^ 32))).length = 8 := by
    rw [length_setInt32, hlen]
  rw [← getInt_setInt32_iff hlen hlo hhi]
  constructor
  · intro h
    have hread := (h _ hstore).2
    change Except.ok (TagValue.int (lib.getInt 8 _), "LINT") = _ at hread
    simpa using hread
  · intro hread buf' hstore'
    cases hstore.symm.trans hstore'
    refine ⟨hlength, ?_⟩
    change Except.ok (TagValue.int (lib.getInt 8 _), "LINT") = _
    rw [hread]

/-- Four bytes do not fit into the buffer, which stays as it is. -/
theorem store_short_agrees_iff {buf : Bytes} {cipType : String} {n : Int}
    (htype : cipType = "SINT" ∨ cipType = "INT") (hlen : buf.length = cipSize cipType) :
    (∀ buf', store lib buf cipType (TagValue.int n : TagValue F64).text = some buf' →
      buf'.length = cipSize cipType ∧ readByKnownType lib buf' cipType = .ok (.int n, cipType)) ↔
      Fits lib buf cipType (.int n) := by
  have hshort : buf.length < 4 := by
    rw [hlen]
    obtain rfl | rfl := htype <;> decide
  obtain rfl | rfl := htype
  · simp [store, Fits, setInt32_of_lt hshort, hlen]
  · simp [store, Fits, setInt32_of_lt hshort, hlen]

/-- An integer is read back exactly if the bytes that the store leaves fit it. -/
theorem store_int_agrees_iff {buf : Bytes} {cipType : String} {n : Int}
    (hrange : InRange cipType (.int n : TagValue F64)) (hlen : buf.length = cipSize cipType) :
    (∀ buf', store lib buf cipType (TagValue.int n : TagValue F64).text = some buf' →
      buf'.length = cipSize cipType ∧ readByKnownType lib buf' cipType = .ok (.int n, cipType)) ↔
      Fits lib buf cipType (.int n) := by
  obtain ⟨lo, hi, hbounds, hlo, hhi⟩ := hrange
  by_cases hshort : cipType = "SINT" ∨ cipType = "INT"
  · exact store_short_agrees_iff lib hshort hlen
  obtain ⟨hsint, hint⟩ := not_or.mp hshort
  by_cases hdint : cipType = "DINT"
  · subst hdint
    cases hbounds
    exact iff_of_true (store_dint_agrees lib hlen hlo hhi)
      (fits_of_ne lib buf _ (by decide) (by decide) (by decide))
  by_cases hlint : cipType = "LINT"
  · subst hlint
    cases hbounds
    apply (store_lint_agrees_iff lib hlen hlo hhi).trans
    simp [Fits]
  · have hnone : store lib buf cipType (TagValue.int n : TagValue F64).text = none := by
      have hother : cipType ∉ ["BOOL", "REAL", "LREAL", "STRING"] := by
        intro hmem
        rw [intRange, if_pos hmem] at hbounds
        cases hbounds
      simp only [List.mem_cons, List.not_mem_nil, or_false, not_or] at hother
      simp [store, hsint, hint, hdint, hlint, hother]
    refine iff_of_true ?_ (fits_of_ne lib buf _ hsint hint hlint)
    intro buf' hstore
    cases hnone.symm.trans hstore

/-- The text of a value is written so that the value is read back exactly when the buffer that
the controller sent has already what the four stored bytes leave out, or the read or the write
fails. -/
theorem writeTagValue_agrees_iff (tag : Controller) (cipType : String) (v : TagValue F64)
    (hv : InRange cipType v) (hsize : ∀ buf, tag.read = .ok buf → buf.length = cipSize cipType) :
    Agrees lib tag cipType v ↔
      ∀ buf, tag.read = .ok buf → tag.write = .ok () → Fits lib buf cipType v := by
  have hstored : ∀ buf, buf.length = cipSize cipType →
      ((∀ buf', store lib buf cipType v.text = some buf' → buf'.length = cipSize cipType ∧
        readByKnownType lib buf' cipType = .ok (v, cipType)) ↔ Fits lib buf cipType v) := by
    intro buf hlen
    cases v with
    | bool b =>
      cases hv
      exact iff_of_true (store_bool_agrees lib hlen b)
        (fits_of_ne lib buf _ (by decide) (by decide) (by decide))
    | int n => exact store_int_agrees_iff lib hv hlen
    | float | string => exact hv.elim
  constructor
  · intro h buf hread hwrite
    apply (hstored buf (hsize buf hread)).mp
    intro buf' hstore
    exact h buf' ((writeTagValue_ok_iff lib).mpr ⟨buf, hread, hwrite, hstore⟩)
  · intro h buf' hok
    obtain ⟨buf, hread, hwrite, hstore⟩ := (writeTagValue_ok_iff lib).mp hok
    exact (hstored buf (hsize buf hread)).mpr (h buf hread hwrite) buf' hstore

/-- Accessors that know no floating-point numbers, and read zeros beyond the end of a buffer. -/
def noFloats : PlcTag ℚ where
  getUint w buf := littleEndian (buf.take w)
  getInt w buf := Int.bmod (littleEndian (buf.take w)) (256 ^ w)
  setInt32 buf val :=
    if buf.length < 4 then buf else putLittleEndian 4 (val % 256 ^ 4).toNat ++ buf.drop 4
  getBit buf := buf.headD 0 &&& 1 ≠ 0
  setBit buf val := buf.modifyHead fun b => if val then b ||| 1 else b &&& 254
  getFloat32 _ := 0
  getFloat64 _ := 0
  setFloat32 buf _ := buf
  setFloat64 buf _ := buf
  getUint_eq := by simp
  getInt_eq := by simp
  setInt32_eq := by simp
  getBit_cons := by simp
  setBit_cons := by simp

theorem writeTagValue_agrees_dint :
    Agrees noFloats ⟨.ok [0, 0, 0, 0], .ok ()⟩ "DINT" (.int (-70000)) := by
  apply (writeTagValue_agrees_iff noFloats ⟨.ok [0, 0, 0, 0], .ok ()⟩ "DINT" (.int (-70000))
    ⟨-2 ^ 31, 2 ^ 31, rfl, by decide, by decide⟩ ?_).mpr
  · intro buf _ _
    exact fits_of_ne noFloats buf _ (by decide) (by decide) (by decide)
  · intro buf hread
    cases hread
    rfl

/-- Five is written to a tag of one byte: the write succeeds, and the tag keeps its zero. -/
theorem writeTagValue_not_agrees :
    ¬ ∀ (tag : Controller) (cipType : String) (v : TagValue ℚ), InRange cipType v →
      (∀ buf, tag.read = .ok buf → buf.length = cipSize cipType) →
        Agrees noFloats tag cipType v := by
  intro h
  have hagrees := h ⟨.ok [0], .ok ()⟩ "SINT" (.int 5) ⟨-2 ^ 7, 2 ^ 7, rfl, by decide, by decide⟩ (by
    intro buf hread
    cases hread
    rfl)
  obtain ⟨-, hread⟩ := hagrees [0] (by decide)
  exact absurd hread (by decide)

end EthernetIpTags
