import Tentacle.BigEndian
import Tentacle.IeeeFloat
import Tentacle.GoValues

/-!
# Modbus register codecs

The client and the server each have their own encoder and decoder for typed
values in 16-bit registers. Both arrange the bytes of a value in the byte order
of the tag; each arrangement is its own inverse. A byte order is one of the four
that the code knows, or another string, which both treat as big-endian.
-/

namespace ModbusCodec

open GoValues BigEndian IeeeFloat

/-- The datatypes that the codecs switch on; any other string takes the default. -/
inductive Datatype where
  | boolean | int16 | uint16 | int32 | uint32 | float32 | float64
  | other (name : String)
  deriving DecidableEq, Repr

inductive ByteOrder where
  | ABCD | BADC | CDAB | DCBA
  | other (name : String)
  deriving DecidableEq, Repr

def Datatype.ofString (s : String) : Datatype :=
  if s = "boolean" then .boolean
  else if s = "int16" then .int16
  else if s = "uint16" then .uint16
  else if s = "int32" then .int32
  else if s = "uint32" then .uint32
  else if s = "float32" then .float32
  else if s = "float64" then .float64
  else .other s

def ByteOrder.ofString (s : String) : ByteOrder :=
  if s = "ABCD" then .ABCD
  else if s = "BADC" then .BADC
  else if s = "CDAB" then .CDAB
  else if s = "DCBA" then .DCBA
  else .other s

/-- The integer types among the cases of the conversions. -/
inductive IntType where
  | int | int64 | int32 | uint32 | uint16
  deriving DecidableEq, Repr

/-- The values of an `interface{}`, as far as the conversions tell them apart. A
`json.Number` is given by what its two conversions return. -/
inductive GoValue where
  | bool (b : Bool)
  | int (type : IntType) (n : Int)
  | float32 (x : Single)
  | float64 (x : Double)
  | jsonNumber (int64 : Option Int) (float64 : Option Double)
  | other

/-- `cannot convert %v to %s`, and `need %d bytes for %s, got %d`. -/
inductive CodecError where
  | cannotConvert (value : GoValue) (datatype : Datatype)
  | needBytes (needed : Nat) (datatype : Datatype) (got : Nat)

/-- Both sides have the same table. -/
def registerCount : Datatype → Nat
  | .boolean | .int16 | .uint16 => 1
  | .int32 | .uint32 | .float32 => 2
  | .float64 => 4
  | .other _ => 1

/-- The bytes of each 16-bit word swapped. -/
def swapBytes : Bytes → Bytes
  | a :: b :: rest => b :: a :: swapBytes rest
  | [_] => [0]
  | [] => []

/-- The unsigned integer of a width that a conversion of the integer gives. -/
def toUint (bits : Nat) (n : Int) : Nat := (n % 2 ^ bits).toNat

/-- The signed integer of a width with the given bits. -/
def toSigned (bits : Nat) (n : Nat) : Int := (n : Int).bmod (2 ^ bits)

/-! ## The client -/

section Client

def arrangeBytes (data : Bytes) : ByteOrder → Bytes
  | .BADC => swapBytes data
  | .CDAB =>
    match data with
    | [a, b, c, d] => [c, d, a, b]
    | [a, b, c, d, e, f, g, h] => [g, h, e, f, c, d, a, b]
    | data => data
  | .DCBA => data.reverse
  | _ => data

def decodeRegisters (data : Bytes) (datatype : Datatype) (byteOrder : ByteOrder) :
    Except CodecError GoValue :=
  let needed := registerCount datatype * 2
  if data.length < needed then .error (.needBytes needed datatype data.length)
  else
    let raw := arrangeBytes (data.take needed) byteOrder
    match datatype with
    | .boolean => .ok (.bool (uint (raw.take 2) != 0))
    | .int16 => .ok (.int .int64 (toSigned 16 (uint (raw.take 2))))
    | .uint16 => .ok (.int .int64 (uint (raw.take 2)))
    | .int32 => .ok (.int .int64 (toSigned 32 (uint (raw.take 4))))
    | .uint32 => .ok (.int .int64 (uint (raw.take 4)))
    | .float32 => .ok (.float64 ((Number.ofBits (uint (raw.take 4)) : Single).convert binary64))
    | .float64 => .ok (.float64 (Number.ofBits (uint (raw.take 8))))
    | .other _ => .ok (.int .int64 (uint (raw.take 2)))

def toBool : GoValue → Option Bool
  | .bool b => some b
  | .float64 x => some (!x.isZero)
  | .float32 x => some (!x.isZero)
  | .int .int n | .int .int64 n => some (n != 0)
  | .jsonNumber _ x => x.map (fun x => !x.isZero)
  | _ => none

def toInt64 : GoValue → Option Int
  | .float64 x => some x.toInt
  | .float32 x => some x.toInt
  | .int _ n => some n
  | .jsonNumber (some n) _ => some n
  | .jsonNumber none x => x.map (·.toInt)
  | _ => none

def toFloat64 : GoValue → Option Double
  | .float64 x => some x
  | .float32 x => some (x.convert binary64)
  | .int _ n => some (.ofInt n)
  | .jsonNumber _ x => x
  | _ => none

def encodeValue (value : GoValue) (datatype : Datatype) (byteOrder : ByteOrder) :
    Except CodecError (Bytes × Nat) :=
  let regCount := registerCount datatype
  let raw : Option Bytes :=
    match datatype with
    | .boolean => (toBool value).map (fun v => putUint 2 (if v then 1 else 0))
    | .int16 | .uint16 => (toInt64 value).map (fun v => putUint 2 (toUint 16 v))
    | .int32 | .uint32 => (toInt64 value).map (fun v => putUint 4 (toUint 32 v))
    | .float32 => (toFloat64 value).map (fun v => putUint 4 (v.convert binary32).toBits)
    | .float64 => (toFloat64 value).map (fun v => putUint 8 v.toBits)
    | .other _ => (toInt64 value).map (fun v => putUint 2 (toUint 16 v))
  match raw with
  | none => .error (.cannotConvert value datatype)
  | some raw => .ok (arrangeBytes raw byteOrder, regCount)

end Client

/-! ## The server -/

section Server

/-- The words that the bytes make, most significant byte first. -/
def toWords : Bytes → List UInt16
  | a :: b :: rest => UInt16.ofNat (uint [a, b]) :: toWords rest
  | _ => []

def toBytes (words : List UInt16) : Bytes := words.flatMap (fun w => putUint 2 w.toNat)

/-- The two words of each group of four bytes swapped; a rest is copied. -/
def swapWords : Bytes → Bytes
  | a :: b :: c :: d :: rest => c :: d :: a :: b :: swapWords rest
  | rest => rest

def arrangeWords (words : List UInt16) : ByteOrder → List UInt16
  | .DCBA => toWords (toBytes words).reverse
  | .BADC => toWords (swapBytes (toBytes words))
  | .CDAB => toWords (swapWords (toBytes words))
  | _ => words

/-- The platform. It decides what becomes of a number that the integer type cannot hold. -/
class Platform where
  outOfRange (lo hi : Int) (x : Double) : Int

/-- A platform that keeps the low bits of the number. -/
@[reducible] def wrapping : Platform := ⟨fun _ _ x => x.toInt⟩

/-- The conversion of a `float64` to the integer type that holds the integers from `lo` up
to `hi`. -/
def floatToInt [Platform] (lo hi : Int) (x : Double) : Int :=
  if x.Finite ∧ lo ≤ x.toInt ∧ x.toInt < hi then x.toInt else Platform.outOfRange lo hi x

def encodeToRegisters [Platform] (value : Double) (datatype : Datatype) (byteOrder : ByteOrder) :
    List UInt16 :=
  let raw :=
    match datatype with
    | .boolean => putUint 2 (if value.isZero then 0 else 1)
    | .int16 => putUint 2 (toUint 16 (floatToInt (-2 ^ 15) (2 ^ 15) value))
    | .int32 => putUint 4 (toUint 32 (floatToInt (-2 ^ 31) (2 ^ 31) value))
    | .uint32 => putUint 4 (toUint 32 (floatToInt 0 (2 ^ 32) value))
    | .float32 => putUint 4 (value.convert binary32).toBits
    | .float64 => putUint 8 value.toBits
    | .uint16 | .other _ => putUint 2 (toUint 16 (floatToInt 0 (2 ^ 16) value))
  arrangeWords (toWords raw) byteOrder

/-- Of a boolean only the first word is looked at, before it is rearranged. -/
def decodeFromRegisters (words : List UInt16) (datatype : Datatype) (byteOrder : ByteOrder) :
    GoValue :=
  let raw := toBytes (arrangeWords words byteOrder)
  match datatype with
  | .boolean => .bool (words.headD 0 != 0)
  | .int16 => .float64 (.ofInt (toSigned 16 (uint (raw.take 2))))
  | .uint16 => .float64 (.ofInt (uint (raw.take 2)))
  | .int32 => .float64 (.ofInt (toSigned 32 (uint (raw.take 4))))
  | .uint32 => .float64 (.ofInt (uint (raw.take 4)))
  | .float32 => .float64 ((Number.ofBits (uint (raw.take 4)) : Single).convert binary64)
  | .float64 => .float64 (Number.ofBits (uint (raw.take 8)))
  | .other _ => .float64 (.ofInt (uint (raw.take 2)))

end Server

end ModbusCodec
