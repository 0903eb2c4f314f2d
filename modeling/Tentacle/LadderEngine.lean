import Tentacle.Ladder
import Tentacle.PlcVariables

/-!
# The ladder instructions of the Starlark engine

A program of the soft PLC calls `rung` with elements. The engine sorts the arguments of a call
into conditions and outputs, reads and writes the variables of the PLC in place, and publishes the
done bit and the accumulator of a timer or counter as variables, where these are registered.
-/

namespace LadderEngine

open GoValues SeriesParallel PlcVariables
open Ladder (Instr TimerState CounterState)

variable {F64 : Type} [GoFloat64 F64] [GoFloat64OfInt F64]

/-- The variables of the engine with the timers and counters of a task. -/
structure EngineState (F64 : Type) where
  vars : VariableStore F64
  timers : GoMap String TimerState := ∅
  counters : GoMap String CounterState := ∅

/-- `ladderElement`; the presets of timers are in milliseconds. -/
abbrev LadderElement := Network Instr

/-- Each argument of `branch` is a path of its own. -/
def builtinBranch (args : List LadderElement) : LadderElement := .branch (args.map fun e => [e])

def builtinSeries (args : List LadderElement) : LadderElement := .series args

def isCondition : LadderElement → Bool
  | .leaf (.no _) => true
  | .leaf (.nc _) => true
  | .branch _ => true
  | .series _ => true
  | _ => false

def unixMilli (now : Int) : Int := now / 1000000

def EngineState.setVar (s : EngineState F64) (id : String) (value : Json F64) (now : Int) :
    EngineState F64 :=
  { s with vars := (VariableStore.set s.vars id value (unixMilli now)).1 }

/-- The status variables of a timer or counter. -/
def EngineState.publish (s : EngineState F64) (tag : String) (dn : Bool) (acc : Int) (now : Int) :
    EngineState F64 :=
  (s.setVar (tag ++ ".DN") (.bool dn) now).setVar (tag ++ ".ACC")
    (.number (GoFloat64OfInt.float64 acc)) now

/-- `time.Duration(n) * time.Millisecond`, a product of 64-bit integers. -/
def durationMs (n : Int) : Int := (n * 1000000).bmod (2 ^ 64)

def EngineState.getTimer (s : EngineState F64) (tag : String) (presetMs : Int) : TimerState :=
  (s.timers.lookup tag).getD { preset := durationMs presetMs }

def EngineState.getCounter (s : EngineState F64) (tag : String) (preset : Int) : CounterState :=
  (s.counters.lookup tag).getD { preset := preset }

/-- The end of `evaluateTimer`; a duration in milliseconds is cut towards zero. -/
def EngineState.finishTimer (s : EngineState F64) (tag : String) (t : TimerState) (now : Int) :
    Bool × EngineState F64 :=
  (t.dn, { s with timers := s.timers.insert tag t }.publish tag t.dn (t.acc.tdiv 1000000) now)

def EngineState.finishCounter (s : EngineState F64) (tag : String) (c : CounterState) (now : Int) :
    Bool × EngineState F64 :=
  (c.dn, { s with counters := s.counters.insert tag c }.publish tag c.dn c.acc now)

def EngineState.resetCounter (s : EngineState F64) (tag : String) (now : Int) : EngineState F64 :=
  match s.counters.lookup tag with
  | none => s
  | some c => { s with counters := s.counters.insert tag c.reset }.publish tag false 0 now

def EngineState.resetTimer (s : EngineState F64) (tag : String) (now : Int) : EngineState F64 :=
  match s.timers.lookup tag with
  | none => s
  | some t => { s with timers := s.timers.insert tag t.reset }.publish tag false 0 now

def EngineState.evaluateReset (s : EngineState F64) (tag : String) (now : Int) : EngineState F64 :=
  (s.resetCounter tag now).resetTimer tag now

def evaluateElement (now : Int) (i : Instr) (rungIn : Bool) (s : EngineState F64) :
    Bool × EngineState F64 :=
  match i with
  | .no tag => (rungIn && VariableStore.getBool s.vars tag, s)
  | .nc tag => (rungIn && !VariableStore.getBool s.vars tag, s)
  | .ote tag => (rungIn, s.setVar tag (.bool rungIn) now)
  | .otl tag => (rungIn, if rungIn then s.setVar tag (.bool true) now else s)
  | .otu tag => (rungIn, if rungIn then s.setVar tag (.bool false) now else s)
  | .ton tag preset => s.finishTimer tag ((s.getTimer tag preset).ton rungIn now) now
  | .tof tag preset => s.finishTimer tag ((s.getTimer tag preset).tof rungIn now) now
  | .ctu tag preset => s.finishCounter tag ((s.getCounter tag preset).ctu rungIn) now
  | .ctd tag preset => s.finishCounter tag ((s.getCounter tag preset).ctd rungIn) now
  | .res tag => (rungIn, if rungIn then s.evaluateReset tag now else s)

/-- The conditions of the call in their order, then its outputs in theirs. -/
def builtinRung (now : Int) (args : List LadderElement) (s : EngineState F64) : EngineState F64 :=
  let conditions := args.filter isCondition
  let outputs := args.filter fun e => !isCondition e
  let r := evalSeries (evaluateElement now) conditions true s
  (evalSeries (evaluateElement now) outputs r.1 r.2).2

/-- One call of `main`, whose body is a list of calls of `rung`. -/
def execute (now : Int) (rungs : List (List LadderElement)) (s : EngineState F64) :
    EngineState F64 :=
  rungs.foldl (fun s args => builtinRung now args s) s

end LadderEngine
