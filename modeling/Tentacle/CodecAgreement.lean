import Tentacle.ModbusCodec

/-!
# Agreement of the two register codecs

A value that one side encodes is read by the other. Both reduce to the bytes of
the value, arranged once by each side: the arrangements cancel for every
datatype and byte order but one. For four registers in the order CDAB the client
reverses the words and the server swaps them in pairs, so the halves of a
float64 change places.
-/

namespace CodecAgreement

open GoValues BigEndian IeeeFloat ModbusCodec

/-- A value of a datatype; the types keep it in range. -/
inductive Value where
  | boolean (b : Bool)
  | int16 (n : Int16)
  | uint16 (n : UInt16)
  | int32 (n : Int32)
  | uint32 (n : UInt32)
  | float32 (x : Single)
  | float64 (x : Double)

namespace Value

def datatype : Value → Datatype
  | .boolean _ => .boolean
  | .int16 _ => .int16
  | .uint16 _ => .uint16
  | .int32 _ => .int32
  | .uint32 _ => .uint32
  | .float32 _ => .float32
  | .float64 _ => .float64

def int? : Value → Option Int
  | .int16 n => some n.toInt
  | .uint16 n => some n.toNat
  | .int32 n => some n.toInt
  | .uint32 n => some n.toNat
  | _ => none

def float? : Value → Option Double
  | .float32 x => some (x.convert binary64)
  | .float64 x => some x
  | _ => none

/-- The `float64` that the server is given for a value. -/
def number : Value → Double
  | .boolean b => .ofInt (if b then 1 else 0)
  | .int16 n => .ofInt n.toInt
  | .uint16 n => .ofInt n.toNat
  | .int32 n => .ofInt n.toInt
  | .uint32 n => .ofInt n.toNat
  | .float32 x => x.convert binary64
  | .float64 x => x

end Value

/-- A Go value that stands for the value. A `float32` widened to a `float64` is
the same value. -/
inductive Holds : GoValue → Value → Prop where
  | bool (b : Bool) : Holds (.bool b) (.boolean b)
  | int (type : IntType) {v : Value} {n : Int} : v.int? = some n → Holds (.int type n) v
  | number {v : Value} {n : Int} : v.int? = some n → Holds (.float64 (.ofInt n)) v
  | jsonInt (x : Option Double) {v : Value} {n : Int} :
      v.int? = some n → Holds (.jsonNumber (some n) x) v
  | float32 (x : Single) : Holds (.float32 x) (.float32 x)
  | float64 {v : Value} {x : Double} : v.float? = some x → Holds (.float64 x) v
  | jsonFloat (n : Option Int) {v : Value} {x : Double} :
      v.float? = some x → Holds (.jsonNumber n (some x)) v

/-- The client reads the value from the registers that the server made of it. -/
def ClientReads [Platform] (v : Value) (order : ByteOrder) : Prop :=
  ∃ r, decodeRegisters (toBytes (encodeToRegisters v.number v.datatype order)) v.datatype order =
    .ok r ∧ Holds r v

/-- The server reads the value from the registers that the client writes. -/
def ServerReads (v : Value) (order : ByteOrder) (value : GoValue) : Prop :=
  ∃ bytes count, encodeValue value v.datatype order = .ok (bytes, count) ∧
    Holds (decodeFromRegisters (toWords bytes) v.datatype order) v

/-- Not a `float64` in the order CDAB, unless its two halves are the same. -/
def Agrees (v : Value) (order : ByteOrder) : Prop :=
  order = .CDAB → ∀ x, v = .float64 x → x.toBits / 2 ^ 32 = x.toBits % 2 ^ 32

/-! ## Words and bytes -/

/-- An even number of bytes goes through the registers unchanged. -/
theorem toBytes_toWords (bs : Bytes) (h : bs.length % 2 = 0) : toBytes (toWords bs) = bs := by
  fun_induction toWords bs with
  | case1 a b rest ih =>
    have hlt : uint [a, b] < UInt16.size := by simpa [UInt16.size] using uint_lt [a, b]
    have hrest : rest.length % 2 = 0 := by
      simp only [List.length_cons] at h
      omega
    rw [toBytes, List.flatMap_cons, UInt16.toNat_ofNat_of_lt' hlt]
    exact congrArg₂ _ (putUint_uint [a, b]) (ih hrest)
  | case2 bs hne =>
    cases bs with
    | nil => rfl
    | cons a bs =>
      cases bs with
      | nil => simp at h
      | cons b rest => exact absurd rfl (hne a b rest)

/-- What the server's arrangement does to the bytes. -/
def serverBytes (bs : Bytes) : ByteOrder → Bytes
  | .DCBA => bs.reverse
  | .BADC => swapBytes bs
  | .CDAB => swapWords bs
  | _ => bs

theorem length_swapBytes (bs : Bytes) : (swapBytes bs).length = bs.length := by
  fun_induction swapBytes bs <;> simp_all

theorem length_swapWords (bs : Bytes) : (swapWords bs).length = bs.length := by
  fun_induction swapWords bs <;> simp_all

/-- The word order of the client is the byte order of the server. -/
theorem toBytes_arrangeWords (bs : Bytes) (h : bs.length % 2 = 0) (order : ByteOrder) :
    toBytes (arrangeWords (toWords bs) order) = serverBytes bs order := by
  cases order with
  | DCBA => rw [arrangeWords, toBytes_toWords bs h, toBytes_toWords _ (by simpa using h)]; rfl
  | BADC =>
    rw [arrangeWords, toBytes_toWords bs h, toBytes_toWords _ (by simpa [length_swapBytes] using h)]
    rfl
  | CDAB =>
    rw [arrangeWords, toBytes_toWords bs h, toBytes_toWords _ (by simpa [length_swapWords] using h)]
    rfl
  | ABCD => exact toBytes_toWords bs h
  | other name => exact toBytes_toWords bs h

/-- The two arrangements cancel, but for eight bytes in the order CDAB. -/
theorem arrange_cancel (bs : Bytes) (order : ByteOrder)
    (h : bs.length = 2 ∨ bs.length = 4 ∨ bs.length = 8 ∧ order ≠ .CDAB) :
    arrangeBytes (serverBytes bs order) order = bs ∧
      serverBytes (arrangeBytes bs order) order = bs := by
  rcases h with h | h | ⟨h, horder⟩
  · match bs, h with
    | [a, b], _ => cases order <;> simp [arrangeBytes, serverBytes, swapBytes, swapWords]
  · match bs, h with
    | [a, b, c, d], _ => cases order <;> simp [arrangeBytes, serverBytes, swapBytes, swapWords]
  · match bs, h with
    | [a, b, c, d, e, f, g, i], _ =>
      cases order <;> simp_all [arrangeBytes, serverBytes, swapBytes]

/-- There the halves change places. -/
theorem arrange_halves (bs : Bytes) (h : bs.length = 8) :
    arrangeBytes (serverBytes bs .CDAB) .CDAB = bs.drop 4 ++ bs.take 4 ∧
      serverBytes (arrangeBytes bs .CDAB) .CDAB = bs.drop 4 ++ bs.take 4 := by
  match bs, h with
  | [a, b, c, d, e, f, g, i], _ => simp [arrangeBytes, serverBytes, swapWords]

/-! ## Values and bytes -/

/-- The bits that both sides send for a value. -/
def bits : Value → Nat
  | .boolean b => if b then 1 else 0
  | .int16 n => toUint 16 n.toInt
  | .uint16 n => toUint 16 n.toNat
  | .int32 n => toUint 32 n.toInt
  | .uint32 n => toUint 32 n.toNat
  | .float32 x => ((x.convert binary64).convert binary32).toBits
  | .float64 x => x.toBits

/-- The bytes of a value before they are arranged. -/
def raw (v : Value) : Bytes := putUint (registerCount v.datatype * 2) (bits v)

/-- An integer of any of the types is one that a `float64` holds exactly. -/
theorem int_range {v : Value} {n : Int} (h : v.int? = some n) : n.natAbs < 2 ^ 53 := by
  cases v with
  | int16 m =>
    cases h
    have := m.toInt_lt
    have := m.le_toInt
    omega
  | uint16 m =>
    cases h
    have := m.toNat_lt
    omega
  | int32 m =>
    cases h
    have := m.toInt_lt
    have := m.le_toInt
    omega
  | uint32 m =>
    cases h
    have := m.toNat_lt
    omega
  | boolean b => cases h
  | float32 x => cases h
  | float64 x => cases h

theorem toInt_ofInt {v : Value} {n : Int} (h : v.int? = some n) :
    (Number.ofInt n : Double).toInt = n :=
  Number.toInt_ofInt binary64_integral (int_range h)

/-- What the integer type holds is converted to itself. -/
theorem floatToInt_ofInt [Platform] {v : Value} {n lo hi : Int} (h : v.int? = some n)
    (hlo : lo ≤ n) (hhi : n < hi) : floatToInt lo hi (Number.ofInt n) = n := by
  have hfinite := (Number.value_ofInt binary64_integral (int_range h)).1
  rw [floatToInt, toInt_ofInt h, if_pos ⟨hfinite, hlo, hhi⟩]

/-- In its range a signed integer comes back from its bits. -/
theorem toSigned_toUint {w : Nat} (hw : 0 < w) {n : Int} (hlow : -2 ^ (w - 1) ≤ n)
    (hhigh : n < 2 ^ (w - 1)) : toSigned w (toUint w n) = n := by
  have hpos : (0 : Int) < 2 ^ w := by positivity
  have hnat : ((2 ^ w : Nat) : Int) = 2 ^ w := by push_cast; rfl
  have hsplit : (2 : Int) ^ w = 2 * 2 ^ (w - 1) := by
    rw [← pow_succ', Nat.sub_add_cancel hw]
  rw [toSigned, toUint, Int.toNat_of_nonneg (Int.emod_nonneg _ hpos.ne'), ← hnat, Int.emod_bmod]
  exact Int.bmod_eq_of_le (by omega) (by omega)

theorem toUint_toNat {w n : Nat} (h : n < 2 ^ w) : toUint w n = n := by
  have : (n : Int) % 2 ^ w = n := Int.emod_eq_of_lt (by omega) (by exact_mod_cast h)
  rw [toUint, this, Int.toNat_natCast]

/-- The bits of a value fit the registers of its type. -/
theorem bits_lt_two_pow (v : Value) : bits v < 2 ^ (16 * registerCount v.datatype) := by
  have huint : ∀ w n, toUint w n < 2 ^ w := by
    intro w n
    have hpos : (0 : Int) < 2 ^ w := by positivity
    have hlt := Int.emod_lt_of_pos n hpos
    have hle := Int.emod_nonneg n hpos.ne'
    rw [toUint]
    zify
    rwa [Int.toNat_of_nonneg hle]
  cases v with
  | boolean b => cases b <;> decide
  | int16 n => exact huint 16 _
  | uint16 n => exact huint 16 _
  | int32 n => exact huint 32 _
  | uint32 n => exact huint 32 _
  | float32 x => exact Number.toBits_lt _
  | float64 x => exact Number.toBits_lt _

theorem uint_raw (v : Value) : uint (raw v) = bits v := by
  apply uint_putUint_of_lt
  have hpow : 256 ^ (registerCount v.datatype * 2) = 2 ^ (16 * registerCount v.datatype) := by
    rw [show 256 = 2 ^ 8 by norm_num, ← Nat.pow_mul]
    ring_nf
  rw [hpow]
  exact bits_lt_two_pow v

theorem length_raw (v : Value) : (raw v).length = registerCount v.datatype * 2 :=
  length_putUint _ _

theorem uint_take_raw (v : Value) (k : Nat) (h : k = registerCount v.datatype * 2) :
    uint ((raw v).take k) = bits v := by
  rw [List.take_of_length_le (by rw [length_raw, h]), uint_raw]

/-- In range the client writes the bytes of the value, arranged in its order. -/
theorem encodeToRegisters_eq [Platform] (v : Value) (order : ByteOrder) :
    encodeToRegisters v.number v.datatype order = arrangeWords (toWords (raw v)) order := by
  cases v with
  | boolean b =>
    have hzero : (Number.ofInt (if b then 1 else 0) : Double).isZero = !b := by
      cases b <;> exact Number.isZero_ofInt binary64_integral (by decide)
    cases b <;>
      simp [encodeToRegisters, Value.number, Value.datatype, raw, bits, registerCount] at hzero ⊢ <;>
      simp [hzero]
  | int16 n =>
    simp only [encodeToRegisters, Value.number, Value.datatype, raw, bits, registerCount,
      floatToInt_ofInt (v := .int16 n) rfl n.le_toInt n.toInt_lt]
  | uint16 n =>
    have hlt : (n.toNat : Int) < 2 ^ 16 := by exact_mod_cast n.toNat_lt
    simp only [encodeToRegisters, Value.number, Value.datatype, raw, bits, registerCount,
      floatToInt_ofInt (v := .uint16 n) rfl (Int.natCast_nonneg _) hlt]
  | int32 n =>
    simp only [encodeToRegisters, Value.number, Value.datatype, raw, bits, registerCount,
      floatToInt_ofInt (v := .int32 n) rfl n.le_toInt n.toInt_lt]
  | uint32 n =>
    have hlt : (n.toNat : Int) < 2 ^ 32 := by exact_mod_cast n.toNat_lt
    simp only [encodeToRegisters, Value.number, Value.datatype, raw, bits, registerCount,
      floatToInt_ofInt (v := .uint32 n) rfl (Int.natCast_nonneg _) hlt]
  | float32 x => rfl
  | float64 x => rfl

/-- Every Go value that holds an integer converts to it. -/
theorem toInt64_holds {v : Value} {value : GoValue} {n : Int} (hv : v.int? = some n)
    (h : Holds value v) : toInt64 value = some n := by
  cases h with
  | bool b => cases hv
  | int type hn => rw [toInt64, ← hn, hv]
  | number hn =>
    rw [toInt64, toInt_ofInt hn, ← hn, hv]
  | jsonInt x hn => rw [toInt64, ← hn, hv]
  | float32 x => cases hv
  | float64 hx => cases v <;> simp_all [Value.int?, Value.float?]
  | jsonFloat m hx => cases v <;> simp_all [Value.int?, Value.float?]

/-- A variable that holds the number is converted to it. -/
theorem toFloat64_holds {v : Value} {value : GoValue} {x : Double} (hv : v.float? = some x)
    (h : Holds value v) : toFloat64 value = some x := by
  cases h with
  | bool b => cases hv
  | int type hn => cases v <;> simp_all [Value.int?, Value.float?]
  | number hn => cases v <;> simp_all [Value.int?, Value.float?]
  | jsonInt x hn => cases v <;> simp_all [Value.int?, Value.float?]
  | float32 x => exact hv
  | float64 hx => rw [toFloat64, ← hx, hv]
  | jsonFloat m hx => rw [toFloat64, ← hx, hv]

/-- The client encodes every form of a value in the same way. -/
theorem encodeValue_eq {v : Value} {value : GoValue} (h : Holds value v) (order : ByteOrder) :
    encodeValue value v.datatype order =
      .ok (arrangeBytes (raw v) order, registerCount v.datatype) := by
  cases v with
  | boolean b =>
    cases h with
    | bool b => rfl
    | int type hn | number hn | jsonInt x hn | float64 hx | jsonFloat m hx => contradiction
  | int16 n => simp [encodeValue, Value.datatype, toInt64_holds rfl h, raw, bits, registerCount]
  | uint16 n => simp [encodeValue, Value.datatype, toInt64_holds rfl h, raw, bits, registerCount]
  | int32 n => simp [encodeValue, Value.datatype, toInt64_holds rfl h, raw, bits, registerCount]
  | uint32 n => simp [encodeValue, Value.datatype, toInt64_holds rfl h, raw, bits, registerCount]
  | float32 x => simp [encodeValue, Value.datatype, toFloat64_holds rfl h, raw, bits, registerCount]
  | float64 x => simp [encodeValue, Value.datatype, toFloat64_holds rfl h, raw, bits, registerCount]

/-- The client reads a value from its bytes. -/
theorem decodeRegisters_raw {v : Value} {order : ByteOrder} {data : Bytes}
    (hlength : data.length = registerCount v.datatype * 2) (h : arrangeBytes data order = raw v) :
    ∃ r, decodeRegisters data v.datatype order = .ok r ∧ Holds r v := by
  have htake : data.take (registerCount v.datatype * 2) = data :=
    List.take_of_length_le hlength.le
  have hnot : ¬ data.length < registerCount v.datatype * 2 := by omega
  simp only [decodeRegisters, hnot, if_false, htake, h]
  cases v with
  | boolean b =>
    refine ⟨_, rfl, ?_⟩
    rw [uint_take_raw (.boolean b) 2 rfl]
    cases b <;> exact .bool _
  | int16 n =>
    refine ⟨_, rfl, .int .int64 ?_⟩
    rw [uint_take_raw (.int16 n) 2 rfl, bits, toSigned_toUint (by norm_num) n.le_toInt n.toInt_lt]
    rfl
  | uint16 n =>
    refine ⟨_, rfl, .int .int64 ?_⟩
    rw [uint_take_raw (.uint16 n) 2 rfl, bits, toUint_toNat n.toNat_lt]
    rfl
  | int32 n =>
    refine ⟨_, rfl, .int .int64 ?_⟩
    rw [uint_take_raw (.int32 n) 4 rfl, bits, toSigned_toUint (by norm_num) n.le_toInt n.toInt_lt]
    rfl
  | uint32 n =>
    refine ⟨_, rfl, .int .int64 ?_⟩
    rw [uint_take_raw (.uint32 n) 4 rfl, bits, toUint_toNat n.toNat_lt]
    rfl
  | float32 x =>
    refine ⟨_, rfl, .float64 ?_⟩
    rw [uint_take_raw (.float32 x) 4 rfl, bits, Number.ofBits_toBits,
      Number.convert_convert binary32_extends_binary64]
    rfl
  | float64 x =>
    refine ⟨_, rfl, .float64 ?_⟩
    rw [uint_take_raw (.float64 x) 8 rfl, bits, Number.ofBits_toBits]
    rfl

/-- The server reads a value from its bytes. -/
theorem decodeFromRegisters_raw {v : Value} {order : ByteOrder} {words : List UInt16}
    (hbool : ∀ b, v ≠ .boolean b) (h : toBytes (arrangeWords words order) = raw v) :
    Holds (decodeFromRegisters words v.datatype order) v := by
  simp only [decodeFromRegisters, h]
  cases v with
  | boolean b => exact absurd rfl (hbool b)
  | int16 n =>
    refine .number ?_
    rw [uint_take_raw (.int16 n) 2 rfl, bits, toSigned_toUint (by norm_num) n.le_toInt n.toInt_lt]
    rfl
  | uint16 n =>
    refine .number ?_
    rw [uint_take_raw (.uint16 n) 2 rfl, bits, toUint_toNat n.toNat_lt]
    rfl
  | int32 n =>
    refine .number ?_
    rw [uint_take_raw (.int32 n) 4 rfl, bits, toSigned_toUint (by norm_num) n.le_toInt n.toInt_lt]
    rfl
  | uint32 n =>
    refine .number ?_
    rw [uint_take_raw (.uint32 n) 4 rfl, bits, toUint_toNat n.toNat_lt]
    rfl
  | float32 x =>
    refine .float64 ?_
    rw [uint_take_raw (.float32 x) 4 rfl, bits, Number.ofBits_toBits,
      Number.convert_convert binary32_extends_binary64]
    rfl
  | float64 x =>
    refine .float64 ?_
    rw [uint_take_raw (.float64 x) 8 rfl, bits, Number.ofBits_toBits]
    rfl

theorem serverReads_boolean (b : Bool) (order : ByteOrder) :
    Holds (decodeFromRegisters (toWords (arrangeBytes (raw (.boolean b)) order)) .boolean order)
      (.boolean b) := by
  cases b <;> cases order <;> exact .bool _

/-! ## Agreement -/

/-- No order adds a byte or loses one. -/
theorem length_arrangeBytes (bs : Bytes) (order : ByteOrder) :
    (arrangeBytes bs order).length = bs.length := by
  cases order with
  | CDAB =>
    unfold arrangeBytes
    dsimp only
    split <;> rfl
  | BADC => exact length_swapBytes bs
  | DCBA => exact List.length_reverse
  | ABCD => rfl
  | other name => rfl

/-- The order of the server neither adds a byte nor loses one. -/
theorem length_serverBytes (bs : Bytes) (order : ByteOrder) :
    (serverBytes bs order).length = bs.length := by
  cases order with
  | CDAB => exact length_swapWords bs
  | BADC => exact length_swapBytes bs
  | DCBA => exact List.length_reverse
  | ABCD => rfl
  | other name => rfl

/-- Where the orders agree, arranging twice gives the bytes back. -/
theorem arrange_raw {v : Value} {order : ByteOrder} (h : ∀ x, v = .float64 x → order ≠ .CDAB) :
    arrangeBytes (serverBytes (raw v) order) order = raw v ∧
      serverBytes (arrangeBytes (raw v) order) order = raw v := by
  apply arrange_cancel _ _
  rw [length_raw]
  cases v with
  | boolean b | int16 n | uint16 n => exact .inl rfl
  | int32 n | uint32 n | float32 x => exact .inr (.inl rfl)
  | float64 x => exact .inr (.inr ⟨rfl, h x rfl⟩)

/-- The number with its two halves exchanged. -/
theorem uint_halves {n : Nat} (hn : n < 2 ^ 64) :
    uint ((putUint 8 n).drop 4 ++ (putUint 8 n).take 4) = 2 ^ 32 * (n % 2 ^ 32) + n / 2 ^ 32 := by
  have hwhole : uint (putUint 8 n) = n := uint_putUint_of_lt (by norm_num at hn ⊢; exact hn)
  have hlow := uint_lt ((putUint 8 n).drop 4)
  rw [← List.take_append_drop 4 (putUint 8 n), uint_append] at hwhole
  rw [uint_append]
  simp only [List.length_drop, List.length_take, length_putUint] at hwhole hlow ⊢
  norm_num at hwhole hlow ⊢
  omega

theorem holds_float64_iff (x y : Double) : Holds (.float64 y) (.float64 x) ↔ y = x := by
  constructor
  · intro h
    cases h with
    | number hn => cases hn
    | float64 hx =>
      cases hx
      rfl
  · rintro rfl
    exact .float64 rfl

/-- What either side reads of a `float64` that the other side wrote in CDAB. -/
theorem swapped_iff (x : Double) :
    Holds (.float64 (Number.ofBits
      (uint (((raw (.float64 x)).drop 4 ++ (raw (.float64 x)).take 4).take 8)))) (.float64 x) ↔
      x.toBits / 2 ^ 32 = x.toBits % 2 ^ 32 := by
  have hlt : x.toBits < 2 ^ 64 := x.toBits_lt
  have hlength : ((raw (.float64 x)).drop 4 ++ (raw (.float64 x)).take 4).length ≤ 8 := by
    simp [length_raw, Value.datatype, registerCount]
  rw [holds_float64_iff, List.take_of_length_le hlength]
  have huint : uint ((raw (.float64 x)).drop 4 ++ (raw (.float64 x)).take 4) =
      2 ^ 32 * (x.toBits % 2 ^ 32) + x.toBits / 2 ^ 32 := uint_halves hlt
  rw [huint]
  constructor
  · intro h
    have hbits := congrArg Number.toBits h
    rw [Number.toBits_ofBits] at hbits
    · omega
    · show _ < 2 ^ 64
      omega
  · intro h
    have hbits : 2 ^ 32 * (x.toBits % 2 ^ 32) + x.toBits / 2 ^ 32 = x.toBits := by omega
    rw [hbits, Number.ofBits_toBits]

/-- The client reads its own registers back exactly where the codecs agree. -/
theorem clientReads_iff [Platform] (v : Value) (order : ByteOrder) :
    ClientReads v order ↔ Agrees v order := by
  have hdata : toBytes (encodeToRegisters v.number v.datatype order) = serverBytes (raw v) order := by
    rw [encodeToRegisters_eq, toBytes_arrangeWords _ (by rw [length_raw]; omega)]
  have hlength := length_serverBytes (raw v) order
  rw [length_raw] at hlength
  rw [ClientReads, hdata]
  by_cases hswap : ∀ x, v = .float64 x → order ≠ .CDAB
  · have hagrees : Agrees v order := by
      intro horder x hx
      exact absurd horder (hswap x hx)
    simp only [hagrees, iff_true]
    exact decodeRegisters_raw hlength (arrange_raw hswap).1
  · push Not at hswap
    obtain ⟨x, rfl, rfl⟩ := hswap
    have hhalves := (arrange_halves (raw (.float64 x)) (length_raw _)).1
    have hdecode : decodeRegisters (serverBytes (raw (.float64 x)) .CDAB) .float64 .CDAB =
        .ok (.float64 (Number.ofBits
          (uint (((raw (.float64 x)).drop 4 ++ (raw (.float64 x)).take 4).take 8)))) := by
      have hnot : ¬ (serverBytes (raw (.float64 x)) .CDAB).length < registerCount .float64 * 2 :=
        hlength.not_lt
      have htake : (serverBytes (raw (.float64 x)) .CDAB).take (registerCount .float64 * 2) =
          serverBytes (raw (.float64 x)) .CDAB := List.take_of_length_le hlength.le
      rw [decodeRegisters, if_neg hnot, htake, hhalves]
    simp only [Value.datatype, hdecode, Except.ok.injEq, exists_eq_left', swapped_iff, Agrees,
      forall_const, Value.float64.injEq, forall_eq']

/-- The server writes what the client reads exactly where the codecs agree. -/
theorem serverReads_iff {v : Value} {value : GoValue} (h : Holds value v) (order : ByteOrder) :
    ServerReads v order value ↔ Agrees v order := by
  have heven : (arrangeBytes (raw v) order).length % 2 = 0 := by
    rw [length_arrangeBytes, length_raw]
    omega
  have hbytes := toBytes_arrangeWords _ heven order
  have hreads : ServerReads v order value ↔
      Holds (decodeFromRegisters (toWords (arrangeBytes (raw v) order)) v.datatype order) v := by
    simp [ServerReads, encodeValue_eq h]
  rw [hreads]
  by_cases hswap : ∀ x, v = .float64 x → order ≠ .CDAB
  · have hagrees : Agrees v order := by
      intro horder x hx
      exact absurd horder (hswap x hx)
    simp only [hagrees, iff_true]
    by_cases hbool : ∀ b, v ≠ .boolean b
    · exact decodeFromRegisters_raw hbool (hbytes.trans (arrange_raw hswap).2)
    · push Not at hbool
      obtain ⟨b, rfl⟩ := hbool
      exact serverReads_boolean b order
  · push Not at hswap
    obtain ⟨x, rfl, rfl⟩ := hswap
    rw [(arrange_halves (raw (.float64 x)) (length_raw _)).2] at hbytes
    simp only [decodeFromRegisters, Value.datatype, hbytes, swapped_iff, Agrees, forall_const,
      Value.float64.injEq, forall_eq']

/-- The two codecs read each other's registers for every value and byte order,
except for a `float64` with unequal halves in the order CDAB. -/
theorem codecs_agree_iff [Platform] (v : Value) (order : ByteOrder) :
    (ClientReads v order ∧ ∀ value, Holds value v → ServerReads v order value) ↔
      Agrees v order := by
  constructor
  · intro h
    exact (clientReads_iff v order).mp h.1
  · intro h
    refine ⟨(clientReads_iff v order).mpr h, ?_⟩
    intro value hvalue
    exact (serverReads_iff hvalue order).mpr h

/-- The bits of `1.0`. -/
def one : Double := .ofBits 0x3FF0000000000000

/-- Neither side reads `1.0` from the other in the order CDAB. -/
theorem one_cdab :
    letI := wrapping
    ¬ ClientReads (.float64 one) .CDAB ∧ ¬ ServerReads (.float64 one) .CDAB (.float64 one) := by
  let _ := wrapping
  have hbits : ¬ (one.toBits / 2 ^ 32 = one.toBits % 2 ^ 32) := by decide +kernel
  have hnot : ¬ Agrees (.float64 one) .CDAB := by
    intro h
    exact hbits (h rfl one rfl)
  exact ⟨fun h => hnot ((clientReads_iff _ _).mp h),
    fun h => hnot ((serverReads_iff (.float64 rfl) _).mp h)⟩

end CodecAgreement
