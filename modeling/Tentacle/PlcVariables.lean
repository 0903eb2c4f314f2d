import Tentacle.GoValues

/-!
# The variables of the soft PLC

`VariableStore`: the value of each variable with its marks. A variable that was never registered
cannot be set, and reads as nil.
-/

namespace PlcVariables

open GoValues

/-- The conversion `float64(n)`. -/
class GoFloat64OfInt (F64 : Type) where
  float64 : Int → F64

instance : GoFloat64OfInt ℚ where
  float64 n := n

structure RuntimeVariable (F64 : Type) where
  id : String
  datatype : String
  direction : String
  value : Json F64
  quality : String := "good"
  lastUpdated : Int := 0
  changed : Bool := false

abbrev VariableStore (F64 : Type) := GoMap String (RuntimeVariable F64)

variable {F64 : Type}

namespace VariableStore

def get (vs : VariableStore F64) (id : String) : Json F64 :=
  match vs.lookup id with
  | some v => v.value
  | none => .null

def getNumber [GoFloat64 F64] (vs : VariableStore F64) (id : String) : F64 :=
  match get vs id with
  | .number x => x
  | _ => GoFloat64.zero

/-- Numbers other than zero are true. -/
def getBool [GoFloat64 F64] (vs : VariableStore F64) (id : String) : Bool :=
  match get vs id with
  | .null => false
  | .bool b => b
  | _ => !GoFloat64.eq (getNumber vs id) GoFloat64.zero

/-- False if there is no such variable. -/
def set (vs : VariableStore F64) (id : String) (value : Json F64) (nowMs : Int) :
    VariableStore F64 × Bool :=
  match vs.lookup id with
  | none => (vs, false)
  | some v => (vs.insert id { v with value := value, lastUpdated := nowMs, changed := true }, true)

theorem lookup_set_other (vs : VariableStore F64) {id id' : String} (h : id' ≠ id)
    (value : Json F64) (nowMs : Int) :
    (set vs id value nowMs).1.lookup id' = vs.lookup id' := by
  unfold set
  cases vs.lookup id with
  | none => rfl
  | some v => exact AList.lookup_insert_ne h

theorem lookup_set_unknown {vs : VariableStore F64} {id : String} (h : vs.lookup id = none)
    (value : Json F64) (nowMs : Int) : set vs id value nowMs = (vs, false) := by
  rw [set, h]

theorem value_set_self {vs : VariableStore F64} {id : String} (h : vs.lookup id ≠ none)
    (value : Json F64) (nowMs : Int) :
    ((set vs id value nowMs).1.lookup id).map (·.value) = some value := by
  unfold set
  cases hlookup : vs.lookup id with
  | none => exact absurd hlookup h
  | some v => rw [AList.lookup_insert, Option.map_some]

theorem get_set_other (vs : VariableStore F64) {id id' : String} (h : id' ≠ id)
    (value : Json F64) (nowMs : Int) : get (set vs id value nowMs).1 id' = get vs id' := by
  rw [get, lookup_set_other vs h, get]

/-- A variable that is set to what it has, or that is not there. -/
theorem get_set_same {vs : VariableStore F64} {id : String} {value : Json F64}
    (h : get vs id = value) (nowMs : Int) : get (set vs id value nowMs).1 id = value := by
  cases hlookup : vs.lookup id with
  | none => rw [lookup_set_unknown hlookup, h]
  | some v => rw [get, set, hlookup, AList.lookup_insert]

end VariableStore

end PlcVariables
