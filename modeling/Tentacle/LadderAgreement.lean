import Tentacle.LadderEngine

/-!
# The two ladder engines

The Starlark engine and the ladder library give the instructions one meaning, but not the rungs:
the engine runs the conditions of a rung before its outputs, and the library runs the elements as
they stand. They also differ in the status tags of timers and counters, which the library reads
from its state and the engine from variables that it writes. On rungs with the conditions first,
over declared tags that are no status tags, the engines agree in every run.
-/

namespace LadderAgreement

open GoValues SeriesParallel PlcVariables Ladder LadderEngine

variable {F64 α : Type}

/-- The instruction as the library has it, with the preset of a timer as a duration. -/
def milliseconds : Instr → Instr
  | .ton tag preset => .ton tag (durationMs preset)
  | .tof tag preset => .tof tag (durationMs preset)
  | i => i

/-- Each rung as the library has it. -/
def libraryRungs (rungs : List (List LadderElement)) : List (List Element) :=
  rungs.map (mapSeries milliseconds)

def engineRun [GoFloat64 F64] [GoFloat64OfInt F64] (rungs : List (List LadderElement))
    (times : List Int) (e : EngineState F64) : EngineState F64 :=
  times.foldl (fun e now => execute now rungs e) e

def libraryRun (rungs : List (List LadderElement)) (times : List Int)
    (start : State × Variables α) : State × Variables α :=
  times.foldl (fun p now => scan (libraryRungs rungs) now p.1 p.2) start

/-- Both have the same boolean variables with the same values, and the same timers and counters. -/
structure Agrees (e : EngineState F64) (p : State × Variables α) : Prop where
  tags : ∀ id b, (e.vars.lookup id).map (·.value) = some (.bool b) ↔
    (p.2.lookup id).map (·.value) = some (.bool b)
  engine_bool : ∀ id v, e.vars.lookup id = some v → ∃ b, v.value = .bool b
  library_bool : ∀ id v, p.2.lookup id = some v → ∃ b, v.value = .bool b
  timers : ∀ tag, e.timers.lookup tag = p.1.timers.lookup tag
  counters : ∀ tag, e.counters.lookup tag = p.1.counters.lookup tag

/-- The elements that the engine counts as conditions come first. -/
def ConditionsFirst (args : List LadderElement) : Prop :=
  ∃ conditions outputs, args = conditions ++ outputs ∧
    (∀ e ∈ conditions, isCondition e = true) ∧ ∀ e ∈ outputs, isCondition e = false

/-- Contacts and coils name declared variables, and the status variables of timers and counters
are not declared. -/
def Fits (declared : String → Prop) : Instr → Prop
  | .no tag | .nc tag | .ote tag | .otl tag | .otu tag => declared tag
  | .ton tag _ | .tof tag _ | .ctu tag _ | .ctd tag _ | .res tag =>
    ¬ declared (tag ++ ".DN") ∧ ¬ declared (tag ++ ".ACC")

structure Plain (declared : String → Prop) (args : List LadderElement) : Prop where
  order : ConditionsFirst args
  fits : ∀ i ∈ seriesLeaves args, Fits declared i

/-! ## Within a scan -/

/-- The tags that stand for the declared variables have their values. -/
structure Related (declared : String → Prop) (e : EngineState F64) (s : State) : Prop where
  known : ∀ id, e.vars.lookup id ≠ none ↔ declared id
  tags : ∀ id, declared id → ∃ b, (e.vars.lookup id).map (·.value) = some (.bool b) ∧
    s.tags.lookup id = some b
  timers : ∀ tag, e.timers.lookup tag = s.timers.lookup tag
  counters : ∀ tag, e.counters.lookup tag = s.counters.lookup tag

section Leaves

variable {declared : String → Prop} {e : EngineState F64} {s : State}

/-- A coil writes the same bit on both sides. -/
theorem Related.setTag (h : Related declared e s) {tag : String} (htag : declared tag) (b : Bool)
    (now : Int) : Related declared (e.setVar tag (.bool b) now) (s.setTag tag b) := by
  have hknown : e.vars.lookup tag ≠ none := (h.known tag).mpr htag
  constructor
  · intro id
    by_cases hid : id = tag
    · subst hid
      have hset := VariableStore.value_set_self hknown (.bool b) (unixMilli now)
      rw [EngineState.setVar]
      constructor
      · exact fun _ => htag
      · intro _ hnone
        rw [hnone] at hset
        cases hset
    · rw [EngineState.setVar, VariableStore.lookup_set_other _ hid]
      exact h.known id
  · intro id hdecl
    by_cases hid : id = tag
    · subst hid
      refine ⟨b, VariableStore.value_set_self hknown (.bool b) (unixMilli now), ?_⟩
      rw [State.setTag, AList.lookup_insert]
    · rw [EngineState.setVar, VariableStore.lookup_set_other _ hid, State.setTag,
        AList.lookup_insert_ne hid]
      exact h.tags id hdecl
  · exact h.timers
  · exact h.counters

/-- A timer is stored alike on both sides. -/
theorem Related.setTimer (h : Related declared e s) (tag : String) (t : TimerState) :
    Related declared { e with timers := e.timers.insert tag t } (s.setTimer tag t) := by
  refine ⟨h.known, h.tags, fun tag' => ?_, h.counters⟩
  by_cases htag : tag' = tag
  · subst htag
    rw [State.setTimer, AList.lookup_insert, AList.lookup_insert]
  · rw [State.setTimer, AList.lookup_insert_ne htag, AList.lookup_insert_ne htag]
    exact h.timers tag'

/-- A counter is stored alike on both sides. -/
theorem Related.setCounter (h : Related declared e s) (tag : String) (c : CounterState) :
    Related declared { e with counters := e.counters.insert tag c } (s.setCounter tag c) := by
  refine ⟨h.known, h.tags, h.timers, fun tag' => ?_⟩
  by_cases htag : tag' = tag
  · subst htag
    rw [State.setCounter, AList.lookup_insert, AList.lookup_insert]
  · rw [State.setCounter, AList.lookup_insert_ne htag, AList.lookup_insert_ne htag]
    exact h.counters tag'

theorem getTimer_eq (h : Related declared e s) (tag : String) (presetMs : Int) :
    e.getTimer tag presetMs = s.getTimer tag (durationMs presetMs) := by
  rw [EngineState.getTimer, State.getTimer, h.timers]

theorem getCounter_eq (h : Related declared e s) (tag : String) (preset : Int) :
    e.getCounter tag preset = s.getCounter tag preset := by
  rw [EngineState.getCounter, State.getCounter, h.counters]

variable [GoFloat64OfInt F64]

/-- A status variable that is not declared is not written. -/
theorem Related.publish (h : Related declared e s) {tag : String}
    (htag : ¬ declared (tag ++ ".DN") ∧ ¬ declared (tag ++ ".ACC")) (dn : Bool) (acc now : Int) :
    e.publish tag dn acc now = e := by
  have hset : ∀ id value, ¬ declared id → e.setVar id value now = e := by
    intro id value hid
    have hnone : e.vars.lookup id = none := by
      by_contra hsome
      exact hid ((h.known id).mp hsome)
    rw [EngineState.setVar, VariableStore.lookup_set_unknown hnone]
  rw [EngineState.publish, hset _ _ htag.1, hset _ _ htag.2]

theorem Related.finishTimer (h : Related declared e s) {tag : String}
    (htag : ¬ declared (tag ++ ".DN") ∧ ¬ declared (tag ++ ".ACC")) (t : TimerState) (now : Int) :
    Agree (Related declared) (e.finishTimer tag t now) (t.dn, s.setTimer tag t) := by
  have hset := h.setTimer tag t
  rw [EngineState.finishTimer, hset.publish htag]
  exact ⟨rfl, hset⟩

theorem Related.finishCounter (h : Related declared e s) {tag : String}
    (htag : ¬ declared (tag ++ ".DN") ∧ ¬ declared (tag ++ ".ACC")) (c : CounterState)
    (now : Int) :
    Agree (Related declared) (e.finishCounter tag c now) (c.dn, s.setCounter tag c) := by
  have hset := h.setCounter tag c
  rw [EngineState.finishCounter, hset.publish htag]
  exact ⟨rfl, hset⟩

/-- The status tags of a reset are not declared, so no variable sees them. -/
theorem Related.resetCounter (h : Related declared e s) {tag : String}
    (htag : ¬ declared (tag ++ ".DN") ∧ ¬ declared (tag ++ ".ACC")) (now : Int) :
    Related declared (e.resetCounter tag now) (s.resetCounter tag) := by
  rw [EngineState.resetCounter, State.resetCounter, h.counters tag]
  cases s.counters.lookup tag with
  | none => exact h
  | some c =>
    have hset := h.setCounter tag c.reset
    simp only [hset.publish htag]
    exact hset

theorem Related.resetTimer (h : Related declared e s) {tag : String}
    (htag : ¬ declared (tag ++ ".DN") ∧ ¬ declared (tag ++ ".ACC")) (now : Int) :
    Related declared (e.resetTimer tag now) (s.resetTimer tag) := by
  rw [EngineState.resetTimer, State.resetTimer, h.timers tag]
  cases s.timers.lookup tag with
  | none => exact h
  | some t =>
    have hset := h.setTimer tag t.reset
    simp only [hset.publish htag]
    exact hset

variable [GoFloat64 F64]

omit [GoFloat64OfInt F64] in
theorem Related.getBool (h : Related declared e s) {tag : String} (htag : declared tag) :
    VariableStore.getBool e.vars tag = s.getTag tag := by
  obtain ⟨b, hvalue, hlookup⟩ := h.tags tag htag
  obtain ⟨v, hv, hb⟩ := Option.map_eq_some_iff.mp hvalue
  simp only [VariableStore.getBool, VariableStore.get, hv, hb, State.getTag, hlookup]

/-- One instruction has one meaning in both engines. -/
theorem Related.evaluate (h : Related declared e s) {i : Instr} (hi : Fits declared i) (now : Int)
    (rungIn : Bool) :
    Agree (Related declared) (evaluateElement now i rungIn e)
      (Ladder.evaluate now (milliseconds i) rungIn s) := by
  cases i with
  | no tag => exact ⟨by simp only [evaluateElement, milliseconds, Ladder.evaluate, h.getBool hi], h⟩
  | nc tag => exact ⟨by simp only [evaluateElement, milliseconds, Ladder.evaluate, h.getBool hi], h⟩
  | ote tag => exact ⟨rfl, h.setTag hi rungIn now⟩
  | otl tag =>
    cases rungIn with
    | false => exact ⟨rfl, h⟩
    | true => exact ⟨rfl, h.setTag hi true now⟩
  | otu tag =>
    cases rungIn with
    | false => exact ⟨rfl, h⟩
    | true => exact ⟨rfl, h.setTag hi false now⟩
  | ton tag preset =>
    simp only [evaluateElement, milliseconds, Ladder.evaluate, getTimer_eq h]
    exact h.finishTimer hi _ now
  | tof tag preset =>
    simp only [evaluateElement, milliseconds, Ladder.evaluate, getTimer_eq h]
    exact h.finishTimer hi _ now
  | ctu tag preset =>
    simp only [evaluateElement, milliseconds, Ladder.evaluate, getCounter_eq h]
    exact h.finishCounter hi _ now
  | ctd tag preset =>
    simp only [evaluateElement, milliseconds, Ladder.evaluate, getCounter_eq h]
    exact h.finishCounter hi _ now
  | res tag =>
    cases rungIn with
    | false => exact ⟨rfl, h⟩
    | true => exact ⟨rfl, (h.resetCounter hi now).resetTimer hi now⟩

end Leaves

/-! ## Scans -/

section Copies

variable {declared : String → Prop} {e : EngineState F64} {p : State × Variables α}

/-- What is declared is the same on both sides. -/
theorem Agrees.known (h : Agrees e p) (id : String) :
    e.vars.lookup id ≠ none ↔ p.2.lookup id ≠ none := by
  constructor
  · intro hknown hnone
    obtain ⟨v, hv⟩ := Option.ne_none_iff_exists'.mp hknown
    obtain ⟨b, hb⟩ := h.engine_bool id v hv
    have hvalue := (h.tags id b).mp (by rw [hv, Option.map_some, hb])
    rw [hnone] at hvalue
    cases hvalue
  · intro hknown hnone
    obtain ⟨v, hv⟩ := Option.ne_none_iff_exists'.mp hknown
    obtain ⟨b, hb⟩ := h.library_bool id v hv
    have hvalue := (h.tags id b).mpr (by rw [hv, Option.map_some, hb])
    rw [hnone] at hvalue
    cases hvalue

/-- What is copied in at the start of a scan is what the engine has in its variables. -/
theorem Agrees.copyIn (h : Agrees e p) (hdeclared : ∀ id, p.2.lookup id ≠ none ↔ declared id) :
    Related declared e (copyIn p.2 p.1) := by
  obtain ⟨-, htimers, hcounters⟩ := copyIn_tags p.2 p.1
  constructor
  · exact fun id => (h.known id).trans (hdeclared id)
  · intro id hid
    obtain ⟨v, hv⟩ := Option.ne_none_iff_exists'.mp ((hdeclared id).mpr hid)
    obtain ⟨b, hb⟩ := h.library_bool id v hv
    refine ⟨b, (h.tags id b).mpr (by rw [hv, Option.map_some, hb]), ?_⟩
    rw [lookup_copyIn hv, Variable.boolValue, hb]
  · intro tag
    rw [htimers]
    exact h.timers tag
  · intro tag
    rw [hcounters]
    exact h.counters tag

/-- Copying out brings the variables to the values that the engine has written in place. -/
theorem Related.copyOut {s : State} (h : Related declared e s) {vars : Variables α}
    (hdeclared : ∀ id, vars.lookup id ≠ none ↔ declared id) :
    Agrees e (s, copyOut vars s) ∧
      ∀ id, (copyOut vars s).lookup id ≠ none ↔ declared id := by
  have hlookup : ∀ id, declared id → ∃ b, (e.vars.lookup id).map (·.value) = some (.bool b) ∧
      ((Ladder.copyOut vars s).lookup id).map (·.value) = some (.bool b) := by
    intro id hid
    obtain ⟨b, hengine, htag⟩ := h.tags id hid
    obtain ⟨v, hv⟩ := Option.ne_none_iff_exists'.mp ((hdeclared id).mpr hid)
    refine ⟨b, hengine, ?_⟩
    rw [lookup_copyOut, hv, htag]
    rfl
  have hkeys : ∀ id, (Ladder.copyOut vars s).lookup id ≠ none ↔ declared id := by
    intro id
    rw [lookup_copyOut, ← hdeclared id]
    simp
  refine ⟨⟨?_, ?_, ?_, h.timers, h.counters⟩, hkeys⟩
  · intro id b
    by_cases hid : declared id
    · obtain ⟨b', hengine, hlibrary⟩ := hlookup id hid
      rw [hengine, hlibrary]
      simp
    · have hnone : e.vars.lookup id = none := not_not.mp fun hn => hid ((h.known id).mp hn)
      have hnone' : (Ladder.copyOut vars s).lookup id = none :=
        not_not.mp fun hn => hid ((hkeys id).mp hn)
      rw [hnone, hnone']
      simp
  · intro id v hv
    obtain ⟨b, hengine, -⟩ := hlookup id ((h.known id).mp (by simp [hv]))
    rw [hv, Option.map_some] at hengine
    exact ⟨b, Option.some.inj hengine⟩
  · intro id v hv
    obtain ⟨b, -, hlibrary⟩ := hlookup id ((hkeys id).mp (by simp [hv]))
    rw [hv, Option.map_some] at hlibrary
    exact ⟨b, Option.some.inj hlibrary⟩

end Copies

/-- With its conditions first the rung of the engine is the series of its elements. -/
theorem builtinRung_eq [GoFloat64 F64] [GoFloat64OfInt F64] {args : List LadderElement}
    (h : ConditionsFirst args) (now : Int) (e : EngineState F64) :
    builtinRung now args e = (evalSeries (evaluateElement now) args true e).2 := by
  obtain ⟨conditions, outputs, rfl, hconditions, houtputs⟩ := h
  have hfirst : (conditions ++ outputs).filter isCondition = conditions := by
    rw [List.filter_append, List.filter_eq_self.mpr hconditions,
      List.filter_eq_nil_iff.mpr fun e he => by simp [houtputs e he], List.append_nil]
  have hsecond : (conditions ++ outputs).filter (fun e => !isCondition e) = outputs := by
    rw [List.filter_append, List.filter_eq_nil_iff.mpr fun e he => by simp [hconditions e he],
      List.filter_eq_self.mpr fun e he => by simp [houtputs e he], List.nil_append]
  rw [builtinRung, hfirst, hsecond, evalSeries_append]

section Scans

variable [GoFloat64 F64] [GoFloat64OfInt F64] {declared : String → Prop}
  {rungs : List (List LadderElement)} {e : EngineState F64}

/-- The rungs of a scan keep both sides related. -/
theorem Related.execute {s : State} (h : Related declared e s)
    (hrungs : ∀ args ∈ rungs, Plain declared args) (now : Int) :
    Related declared (execute now rungs e) (evaluateRungs now (libraryRungs rungs) s) := by
  unfold LadderEngine.execute evaluateRungs libraryRungs
  induction rungs generalizing e s with
  | nil => exact h
  | cons args rungs ih =>
    have hplain := hrungs args List.mem_cons_self
    rw [List.foldl_cons, List.map_cons, List.foldl_cons, builtinRung_eq hplain.order]
    apply ih _ fun args' hargs => hrungs args' (List.mem_cons_of_mem _ hargs)
    exact (evalSeries_simulation args
      (fun i hi b e s hrel => hrel.evaluate (hplain.fits i hi) now b) true e s h).2

variable {p : State × Variables α}

/-- On plain rungs the engines agree after every scan. -/
theorem engines_agree (hrungs : ∀ args ∈ rungs, Plain declared args)
    (hdeclared : ∀ id, p.2.lookup id ≠ none ↔ declared id) (h : Agrees e p) (times : List Int) :
    Agrees (engineRun rungs times e) (libraryRun rungs times p) := by
  induction times generalizing e p with
  | nil => exact h
  | cons now times ih =>
    obtain ⟨hagrees, hkeys⟩ := ((h.copyIn hdeclared).execute hrungs now).copyOut hdeclared
    exact ih hkeys hagrees

end Scans

/-! ## Two rungs -/

/-- Boolean variables with their values, for both engines. -/
def engineOf (bits : GoMap String Bool) : EngineState ℚ where
  vars := mapValues (fun b => ⟨"", "boolean", "internal", .bool b, "good", 0, false⟩) bits

def libraryOf (bits : GoMap String Bool) : State × Variables ℚ :=
  ({}, mapValues (fun b => ⟨.bool b, "boolean"⟩) bits)

/-- The states of the example agree before the first scan. -/
theorem agrees_of (bits : GoMap String Bool) : Agrees (engineOf bits) (libraryOf bits) := by
  constructor
  · intro id b
    simp only [engineOf, libraryOf, lookup_mapValues, Option.map_map]
    cases bits.lookup id with
    | none => simp
    | some b' => simp
  · intro id v hv
    rw [engineOf, lookup_mapValues] at hv
    obtain ⟨b, -, rfl⟩ := Option.map_eq_some_iff.mp hv
    exact ⟨b, rfl⟩
  · intro id v hv
    rw [libraryOf, lookup_mapValues] at hv
    obtain ⟨b, -, rfl⟩ := Option.map_eq_some_iff.mp hv
    exact ⟨b, rfl⟩
  · exact fun tag => rfl
  · exact fun tag => rfl

/-- A switch that is on and a lamp that is off. -/
def lampBits : GoMap String Bool := (AList.singleton "lamp" false).insert "switch" true

theorem declared_lampBits (id : String) :
    (libraryOf lampBits).2.lookup id ≠ none ↔ id = "switch" ∨ id = "lamp" := by
  rw [libraryOf, lookup_mapValues, lampBits]
  by_cases hswitch : id = "switch"
  · simp [hswitch]
  · rw [AList.lookup_insert_ne hswitch]
    simp [hswitch, AList.lookup_eq_none, AList.mem_keys, AList.keys, AList.singleton_entries]

/-- The rung of a switch and its lamp, the condition first. -/
theorem engines_agree_lamp :
    Agrees (engineOf lampBits) (libraryOf lampBits) ∧
      Agrees (engineRun [[.leaf (.no "switch"), .leaf (.ote "lamp")]] [0, 1000] (engineOf lampBits))
        (libraryRun [[.leaf (.no "switch"), .leaf (.ote "lamp")]] [0, 1000]
          (libraryOf lampBits)) := by
  refine ⟨agrees_of lampBits, engines_agree ?_ declared_lampBits (agrees_of lampBits) [0, 1000]⟩
  intro args hargs
  rw [List.mem_singleton.mp hargs]
  constructor
  · exact ⟨[.leaf (.no "switch")], [.leaf (.ote "lamp")], rfl, by simp [isCondition],
      by simp [isCondition]⟩
  · simp [seriesLeaves, leaves, Fits]

/-- The coil before the contact: the library switches the lamp on, and the engine does not. -/
theorem engines_disagree :
    ¬ ∀ (rungs : List (List LadderElement)) (e : EngineState ℚ) (p : State × Variables ℚ)
      (times : List Int), Agrees e p →
        Agrees (engineRun rungs times e) (libraryRun rungs times p) := by
  intro h
  have hagrees := h [[.leaf (.ote "lamp"), .leaf (.nc "switch")]] _ _ [0] (agrees_of lampBits)
  have hlibrary : ((libraryRun [[.leaf (.ote "lamp"), .leaf (.nc "switch")]] [0]
      (libraryOf lampBits)).2.lookup "lamp").map (·.value) = some (.bool true) := by
    decide +kernel
  have hengine := (hagrees.tags "lamp" true).mpr hlibrary
  have hoff : VariableStore.getBool (engineRun [[.leaf (.ote "lamp"), .leaf (.nc "switch")]] [0]
      (engineOf lampBits)).vars "lamp" = false := by
    decide +kernel
  obtain ⟨v, hv, hvalue⟩ := Option.map_eq_some_iff.mp hengine
  simp [VariableStore.getBool, VariableStore.get, hv, hvalue] at hoff

end LadderAgreement
