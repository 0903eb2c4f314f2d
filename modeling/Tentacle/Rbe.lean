import Tentacle.GoValues

/-!
# Report by exception

The package `rbe`. Values are decoded JSON, so of the numeric types of
`ToFloat64` only `float64` and `bool` occur. Times are Unix milliseconds.
-/

namespace Rbe

open GoValues

variable {F64 : Type}

structure DeadBandConfig (F64 : Type) where
  value : F64
  minTime : Int
  maxTime : Int

/-- The zero state has no value and the time 0. -/
structure State (F64 : Type) where
  lastValue : Json F64 := .null
  lastTime : Int := 0

variable [GoFloat64 F64]

def toFloat64 : Json F64 → Option F64
  | .number x => some x
  | .bool b => some (if b then GoFloat64.one else GoFloat64.zero)
  | _ => none

def valuesEqual (a b : Json F64) : Bool :=
  match a, b with
  | .null, .null => true
  | .null, _ | _, .null => false
  | a, b =>
    match toFloat64 a, toFloat64 b with
    | some x, some y => GoFloat64.eq x y
    | _, _ => a.sprint == b.sprint

def shouldPublish (state : State F64) (newValue : Json F64) (nowMs : Int)
    (deadband : Option (DeadBandConfig F64)) (disableRBE : Bool) : Bool :=
  if disableRBE then true
  else if state.lastTime = 0 then true
  else
    match deadband with
    | none => !valuesEqual state.lastValue newValue
    | some db =>
      let elapsed := nowMs - state.lastTime
      if 0 < db.maxTime ∧ db.maxTime ≤ elapsed then true
      else if 0 < db.minTime ∧ elapsed < db.minTime then false
      else
        match toFloat64 state.lastValue, toFloat64 newValue with
        | some old, some new => GoFloat64.gt (GoFloat64.abs (GoFloat64.sub new old)) db.value
        | _, _ => !valuesEqual state.lastValue newValue

def recordPublish (value : Json F64) (nowMs : Int) : State F64 := ⟨value, nowMs⟩

end Rbe
