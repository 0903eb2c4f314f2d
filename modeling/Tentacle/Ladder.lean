import Tentacle.ScannerKvWatch
import Tentacle.SeriesParallel

/-!
# The ladder library

The instructions of the ladder package and the program that `CreateProgram` makes of rungs. A scan
copies all PLC variables into the tags, evaluates the rungs and copies the tags back. Times and
durations are in nanoseconds, and all instructions of one scan see one time.
-/

namespace Ladder

open GoValues SeriesParallel
open ScannerKvWatch (splitKey)

/-! ## Timers and counters -/

/-- The times are integers without a bound; a `time.Duration` holds 292 years. -/
structure TimerState where
  preset : Int
  acc : Int := 0
  dn : Bool := false
  en : Bool := false
  tt : Bool := false
  lastTick : Int := 0
  prevEN : Bool := false
  deriving DecidableEq, Repr

/-- The counts are integers without a bound; an `int` holds 2^63 - 1 edges. -/
structure CounterState where
  preset : Int
  acc : Int := 0
  dn : Bool := false
  prevEN : Bool := false
  deriving DecidableEq, Repr

/-- The time since the last tick is added, and the timer is done when the preset is reached. -/
def TimerState.accumulate (t : TimerState) (now : Int) : TimerState :=
  { t with acc := t.acc + (now - t.lastTick), lastTick := now }

def TimerState.ton (t : TimerState) (rungIn : Bool) (now : Int) : TimerState :=
  if rungIn then
    let t := { t with en := true }
    if t.dn then { t with lastTick := now }
    else
      let t := if t.tt then t else { t with tt := true, lastTick := now }
      let t := t.accumulate now
      if t.preset ≤ t.acc then { t with dn := true, tt := false } else t
  else { t with acc := 0, dn := false, en := false, tt := false }

def TimerState.tof (t : TimerState) (rungIn : Bool) (now : Int) : TimerState :=
  let t :=
    if rungIn then { t with dn := true, en := true, tt := false, acc := 0, lastTick := now }
    else
      let t := if t.prevEN then { t with tt := true, lastTick := now } else t
      if t.tt then
        let t := t.accumulate now
        if t.preset ≤ t.acc then { t with dn := false, tt := false, en := false } else t
      else t
  { t with prevEN := rungIn }

def TimerState.reset (t : TimerState) : TimerState :=
  { t with acc := 0, dn := false, en := false, tt := false }

/-- A rising edge against the last condition that the counter has seen, of whichever rung. -/
def CounterState.rises (c : CounterState) (rungIn : Bool) : Bool := rungIn && !c.prevEN

def CounterState.ctu (c : CounterState) (rungIn : Bool) : CounterState :=
  let c := if c.rises rungIn then { c with acc := c.acc + 1 } else c
  let c := if c.preset ≤ c.acc then { c with dn := true } else c
  { c with prevEN := rungIn }

def CounterState.ctd (c : CounterState) (rungIn : Bool) : CounterState :=
  let c := if c.rises rungIn then { c with acc := c.acc - 1 } else c
  let c := if c.acc ≤ 0 then { c with dn := true } else c
  { c with prevEN := rungIn }

def CounterState.reset (c : CounterState) : CounterState := { c with acc := 0, dn := false }

section Counter

variable (c : CounterState) (rungIn : Bool)

@[simp] theorem CounterState.ctu_preset : (c.ctu rungIn).preset = c.preset := by
  simp only [CounterState.ctu]
  split <;> split <;> rfl

@[simp] theorem CounterState.ctu_prevEN : (c.ctu rungIn).prevEN = rungIn := rfl

theorem CounterState.ctu_acc :
    (c.ctu rungIn).acc = if c.rises rungIn then c.acc + 1 else c.acc := by
  simp only [CounterState.ctu]
  split <;> split <;> rfl

/-- The done bit is set and never cleared. -/
theorem CounterState.ctu_dn :
    (c.ctu rungIn).dn = (c.dn || decide (c.preset ≤ (c.ctu rungIn).acc)) := by
  rw [CounterState.ctu_acc]
  simp only [CounterState.ctu]
  split <;> split <;> simp_all

@[simp] theorem CounterState.ctd_prevEN : (c.ctd rungIn).prevEN = rungIn := rfl

theorem CounterState.ctd_acc :
    (c.ctd rungIn).acc = if c.rises rungIn then c.acc - 1 else c.acc := by
  simp only [CounterState.ctd]
  split <;> split <;> rfl

theorem CounterState.ctd_dn :
    (c.ctd rungIn).dn = (c.dn || decide ((c.ctd rungIn).acc ≤ 0)) := by
  rw [CounterState.ctd_acc]
  simp only [CounterState.ctd]
  split <;> split <;> simp_all

end Counter

/-! ## State -/

structure State where
  tags : GoMap String Bool := ∅
  timers : GoMap String TimerState := ∅
  counters : GoMap String CounterState := ∅

/-- The bits of a timer that a contact can name. -/
def TimerState.bit (t : TimerState) (name : String) : Option Bool :=
  if name = "DN" then some t.dn
  else if name = "EN" then some t.en
  else if name = "TT" then some t.tt
  else none

def CounterState.bit (c : CounterState) (name : String) : Option Bool :=
  if name = "DN" then some c.dn else none

/-- A plain tag comes first; `timer.DN` and the like are read from the timer or counter. -/
def State.getTag (s : State) (tag : String) : Bool :=
  match s.tags.lookup tag with
  | some v => v
  | none =>
    match splitKey tag with
    | none => false
    | some (owner, name) =>
      (((s.timers.lookup owner).bind (·.bit name)).or
        ((s.counters.lookup owner).bind (·.bit name))).getD false

def State.setTag (s : State) (tag : String) (v : Bool) : State :=
  { s with tags := s.tags.insert tag v }

/-- The preset counts only when the timer is made. -/
def State.getTimer (s : State) (tag : String) (preset : Int) : TimerState :=
  (s.timers.lookup tag).getD { preset := preset }

def State.getCounter (s : State) (tag : String) (preset : Int) : CounterState :=
  (s.counters.lookup tag).getD { preset := preset }

def State.setTimer (s : State) (tag : String) (t : TimerState) : State :=
  { s with timers := s.timers.insert tag t }

def State.setCounter (s : State) (tag : String) (c : CounterState) : State :=
  { s with counters := s.counters.insert tag c }

/-! ## Instructions -/

inductive Instr where
  | no (tag : String)
  | nc (tag : String)
  | ote (tag : String)
  | otl (tag : String)
  | otu (tag : String)
  | ton (tag : String) (preset : Int)
  | tof (tag : String) (preset : Int)
  | ctu (tag : String) (preset : Int)
  | ctd (tag : String) (preset : Int)
  | res (tag : String)
  deriving DecidableEq, Repr

/-- `branchElement` and `seriesElement` are the branches and series of a network. -/
abbrev Element := Network Instr

def State.resetCounter (s : State) (tag : String) : State :=
  match s.counters.lookup tag with
  | none => s
  | some c => s.setCounter tag c.reset

def State.resetTimer (s : State) (tag : String) : State :=
  match s.timers.lookup tag with
  | none => s
  | some t => s.setTimer tag t.reset

/-- `resElement`: only a counter or a timer that there is. -/
def State.resetTag (s : State) (tag : String) : State := (s.resetCounter tag).resetTimer tag

def evaluate (now : Int) (i : Instr) (rungIn : Bool) (s : State) : Bool × State :=
  match i with
  | .no tag => (rungIn && s.getTag tag, s)
  | .nc tag => (rungIn && !s.getTag tag, s)
  | .ote tag => (rungIn, s.setTag tag rungIn)
  | .otl tag => (rungIn, if rungIn then s.setTag tag true else s)
  | .otu tag => (rungIn, if rungIn then s.setTag tag false else s)
  | .ton tag preset =>
    let t := (s.getTimer tag preset).ton rungIn now
    (t.dn, s.setTimer tag t)
  | .tof tag preset =>
    let t := (s.getTimer tag preset).tof rungIn now
    (t.dn, s.setTimer tag t)
  | .ctu tag preset =>
    let c := (s.getCounter tag preset).ctu rungIn
    (c.dn, s.setCounter tag c)
  | .ctd tag preset =>
    let c := (s.getCounter tag preset).ctd rungIn
    (c.dn, s.setCounter tag c)
  | .res tag => (rungIn, if rungIn then s.resetTag tag else s)

/-! ## Programs -/

/-- The value of a variable: a boolean, or anything else. -/
inductive Value (α : Type) where
  | bool (b : Bool)
  | other (v : α)
  deriving DecidableEq, Repr

structure Variable (α : Type) where
  value : Value α
  datatype : String

abbrev Variables (α : Type) := GoMap String (Variable α)

variable {α : Type}

def Variable.boolValue (v : Variable α) : Bool :=
  match v.value with
  | .bool b => b
  | .other _ => false

/-- The `update` of `Create`, without the publication. -/
def update (vars : Variables α) (id : String) (value : Bool) : Variables α :=
  match vars.lookup id with
  | none => vars
  | some v => vars.insert id { v with value := .bool value }

def copyIn (vars : Variables α) (s : State) : State :=
  vars.entries.foldl (fun s e => s.setTag e.1 e.2.boolValue) s

def evaluateRungs (now : Int) (rungs : List (List Element)) (s : State) : State :=
  rungs.foldl (fun s elements => (evalSeries (evaluate now) elements true s).2) s

def copyOut (vars : Variables α) (s : State) : Variables α :=
  vars.entries.foldl (fun vs e =>
    match s.tags.lookup e.1 with
    | none => vs
    | some val => update vs e.1 val) vars

/-- One call of the function that `CreateProgram` returns. -/
def scan (rungs : List (List Element)) (now : Int) (s : State) (vars : Variables α) :
    State × Variables α :=
  let s := evaluateRungs now rungs (copyIn vars s)
  (s, copyOut vars s)

/-! ## Copying in and out -/

theorem copyIn_tags (vars : Variables α) (s : State) :
    (copyIn vars s).tags = vars.entries.foldl (fun m e => m.insert e.1 e.2.boolValue) s.tags ∧
      (copyIn vars s).timers = s.timers ∧ (copyIn vars s).counters = s.counters := by
  unfold copyIn
  induction vars.entries generalizing s with
  | nil => exact ⟨rfl, rfl, rfl⟩
  | cons e es ih => exact ih (s.setTag e.1 e.2.boolValue)

/-- After the copy every variable is a tag, with its boolean value. -/
theorem lookup_copyIn {vars : Variables α} {id : String} {v : Variable α}
    (h : vars.lookup id = some v) (s : State) :
    (copyIn vars s).tags.lookup id = some v.boolValue := by
  rw [(copyIn_tags vars s).1]
  exact lookup_foldl_insert (fun e : Sigma fun _ : String => Variable α => e.1)
    (fun e => e.2.boolValue) vars.nodupKeys s.tags ((mem_entries_iff vars id v).mpr h)

/-- The variable with the value of its tag, if it is one. -/
def Variable.take (v : Variable α) : Option Bool → Variable α
  | none => v
  | some b => { v with value := .bool b }

/-- An update writes one tag, and only if it is declared. -/
theorem lookup_update (vars : Variables α) (id id' : String) (b : Bool) :
    (update vars id b).lookup id' =
      if id' = id then (vars.lookup id').map (·.take (some b)) else vars.lookup id' := by
  unfold update
  by_cases hid : id' = id
  · subst hid
    rw [if_pos rfl]
    cases hlookup : vars.lookup id' with
    | none => rw [hlookup, Option.map_none]
    | some v => rw [AList.lookup_insert, Option.map_some, Variable.take]
  · rw [if_neg hid]
    cases vars.lookup id with
    | none => rfl
    | some v => rw [AList.lookup_insert_ne hid]

theorem take_take (v : Variable α) (o : Option Bool) : (v.take o).take o = v.take o := by
  cases o with
  | none => rfl
  | some b => rfl

/-- One turn of the loop takes the value of one tag. -/
theorem lookup_copyOut_step (s : State) (vars : Variables α) (key id : String) :
    (match s.tags.lookup key with
      | none => vars
      | some val => update vars key val).lookup id =
      if id = key then (vars.lookup id).map (·.take (s.tags.lookup id)) else vars.lookup id := by
  by_cases hid : id = key
  · subst hid
    rw [if_pos rfl]
    cases s.tags.lookup id with
    | none => simp [Variable.take]
    | some val => rw [lookup_update, if_pos rfl]
  · rw [if_neg hid]
    cases s.tags.lookup key with
    | none => rfl
    | some val => rw [lookup_update, if_neg hid]

/-- Of the variables those of the list take the value of their tag. -/
theorem lookup_foldl_copyOut (s : State) (es : List (Sigma fun _ : String => Variable α))
    (vars : Variables α) (id : String) :
    (es.foldl (fun vs e =>
      match s.tags.lookup e.1 with
      | none => vs
      | some val => update vs e.1 val) vars).lookup id =
      if id ∈ es.map (·.1) then (vars.lookup id).map (·.take (s.tags.lookup id))
      else vars.lookup id := by
  induction es generalizing vars with
  | nil => rfl
  | cons e es ih =>
    rw [List.foldl_cons, ih, lookup_copyOut_step, List.map_cons]
    by_cases hid : id = e.1
    · -- a tag that is taken twice is taken with one value
      rw [if_pos hid, if_pos (List.mem_cons.mpr (Or.inl hid))]
      split
      · rw [Option.map_map]
        apply congrArg (Option.map · _)
        funext v
        exact take_take v _
      · rfl
    · rw [if_neg hid]
      simp only [List.mem_cons, hid, false_or]

/-- Each declared variable takes the value of its tag. -/
theorem lookup_copyOut (vars : Variables α) (s : State) (id : String) :
    (copyOut vars s).lookup id = (vars.lookup id).map (·.take (s.tags.lookup id)) := by
  rw [copyOut, lookup_foldl_copyOut]
  split
  · rfl
  · rename_i hid
    have hnone : vars.lookup id = none := by
      rw [AList.lookup_eq_none]
      exact hid
    rw [hnone]
    rfl

/-! ## What a scan may change -/

/-- The tag that an instruction may write. -/
def Instr.coilTag : Instr → Option String
  | .ote tag => some tag
  | .otl tag => some tag
  | .otu tag => some tag
  | _ => none

def coilTags (rungs : List (List Element)) : List String :=
  (rungs.flatMap seriesLeaves).filterMap Instr.coilTag

/-- An instruction writes no tag but that of its coil. -/
theorem evaluate_tags (now : Int) {i : Instr} {id : String} (h : i.coilTag ≠ some id)
    (rungIn : Bool) (s : State) :
    (evaluate now i rungIn s).2.tags.lookup id = s.tags.lookup id := by
  cases i with
  | ote tag =>
    have hne : id ≠ tag := fun he => h (by rw [he, Instr.coilTag])
    simp [evaluate, State.setTag, AList.lookup_insert_ne hne]
  | otl tag =>
    have hne : id ≠ tag := fun he => h (by rw [he, Instr.coilTag])
    cases rungIn with
    | false => rfl
    | true => simp [evaluate, State.setTag, AList.lookup_insert_ne hne]
  | otu tag =>
    have hne : id ≠ tag := fun he => h (by rw [he, Instr.coilTag])
    cases rungIn with
    | false => rfl
    | true => simp [evaluate, State.setTag, AList.lookup_insert_ne hne]
  | res tag =>
    cases rungIn with
    | false => rfl
    | true =>
      have hcounter : (s.resetCounter tag).tags = s.tags := by
        unfold State.resetCounter
        split <;> rfl
      have htimer : ∀ s' : State, (s'.resetTimer tag).tags = s'.tags := by
        intro s'
        unfold State.resetTimer
        split <;> rfl
      simp only [evaluate, if_true, State.resetTag, htimer, hcounter]
  | no tag => rfl
  | nc tag => rfl
  | ton tag preset => rfl
  | tof tag preset => rfl
  | ctu tag preset => rfl
  | ctd tag preset => rfl

/-- A tag that no coil names stays as it is through the rungs. -/
theorem evaluateRungs_tags (now : Int) {rungs : List (List Element)} {id : String}
    (h : id ∉ coilTags rungs) (s : State) :
    (evaluateRungs now rungs s).tags.lookup id = s.tags.lookup id := by
  unfold evaluateRungs
  induction rungs generalizing s with
  | nil => rfl
  | cons elements rungs ih =>
    simp only [coilTags, List.flatMap_cons, List.filterMap_append, List.mem_append, not_or,
      List.mem_filterMap, not_exists, not_and] at h ih
    rw [List.foldl_cons, ih h.2]
    exact evalSeries_invariant (P := fun s' => s'.tags.lookup id = s.tags.lookup id) elements
      (fun i hi b s' hs' => (evaluate_tags now (h.1 i hi) b s').trans hs') true s rfl

/-- No variable but the coils' tags has another value after the scan. -/
def ScanFrame (rungs : List (List Element)) (now : Int) (s : State) (vars : Variables α) : Prop :=
  ∀ id, id ∉ coilTags rungs →
    ((scan rungs now s vars).2.lookup id).map (·.value) = (vars.lookup id).map (·.value)

/-- What is copied out is what was copied in, and that is a boolean. -/
theorem scan_value {rungs : List (List Element)} {id : String} (hcoil : id ∉ coilTags rungs)
    {vars : Variables α} {v : Variable α} (hvar : vars.lookup id = some v) (now : Int) (s : State) :
    ((scan rungs now s vars).2.lookup id).map (·.value) = some (.bool v.boolValue) := by
  rw [scan, lookup_copyOut, evaluateRungs_tags now hcoil, lookup_copyIn hvar, hvar]
  rfl

/-- The frame holds exactly if all variables but the coils' tags are boolean: any other value is
replaced by false. -/
theorem scanFrame_iff (rungs : List (List Element)) (now : Int) (s : State) (vars : Variables α) :
    ScanFrame rungs now s vars ↔
      ∀ id v, vars.lookup id = some v → id ∉ coilTags rungs → ∃ b, v.value = .bool b := by
  constructor
  · intro h id v hvar hcoil
    have hvalue := h id hcoil
    rw [scan_value hcoil hvar, hvar, Option.map_some] at hvalue
    exact ⟨v.boolValue, (Option.some.inj hvalue).symm⟩
  · intro h id hcoil
    cases hvar : vars.lookup id with
    | none => rw [scan, lookup_copyOut, hvar, Option.map_none]
    | some v =>
      rw [scan_value hcoil hvar, Option.map_some]
      obtain ⟨b, hb⟩ := h id v hvar hcoil
      rw [Variable.boolValue, hb]

/-- A scan of one rung between two booleans sets a number to false. -/
theorem scan_overwrites_number :
    ¬ ∀ (rungs : List (List Element)) (now : Int) (s : State) (vars : Variables Int),
      ScanFrame rungs now s vars := by
  intro h
  let vars : Variables Int := AList.singleton "temperature" ⟨.other 20, "number"⟩
  have hvar : vars.lookup "temperature" = some ⟨.other 20, "number"⟩ :=
    (mem_entries_iff _ _ _).mp (by simp [vars, AList.singleton_entries])
  have hcoil : "temperature" ∉ coilTags [[.leaf (.no "start"), .leaf (.ote "motor")]] := by
    decide
  have hvalue := h _ 0 {} vars "temperature" hcoil
  rw [scan_value hcoil hvar, hvar] at hvalue
  cases hvalue

end Ladder
