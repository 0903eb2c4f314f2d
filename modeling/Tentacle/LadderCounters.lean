import Tentacle.LadderEngine

/-!
# Counters of the ladder engines

A counter is to count the rising edges of its CTU rung up and those of its CTD rung down. Both
engines keep one edge memory for both rungs, and a done bit that only a reset clears. So a counter
is right in all runs exactly if its program does not have both instructions.
-/

namespace LadderCounters

open GoValues PlcVariables Ladder LadderEngine

/-! ## Programs on one counter -/

/-- A rung that ends in an instruction on the counter. -/
inductive CounterRung where
  | up (preset : Int)
  | down (preset : Int)
  | reset
  deriving DecidableEq, Repr

def CounterRung.instr (tag : String) : CounterRung → Instr
  | .up preset => .ctu tag preset
  | .down preset => .ctd tag preset
  | .reset => .res tag

def CounterRung.isUp : CounterRung → Bool
  | .up _ => true
  | _ => false

def CounterRung.isDown : CounterRung → Bool
  | .down _ => true
  | _ => false

/-- At most one CTU rung, at most one CTD rung and any RES rungs. -/
structure CounterProgram where
  rungs : List CounterRung
  oneUp : (rungs.filter (·.isUp)).length ≤ 1
  oneDown : (rungs.filter (·.isDown)).length ≤ 1

/-- The evaluation of a rung with the condition that it has. -/
abbrev Event := CounterRung × Bool

/-- The evaluations of a scan, in which the rung at a position has the condition given for it. -/
def scanEvents (P : CounterProgram) (conditions : Nat → Bool) : List Event :=
  P.rungs.zipIdx.map fun r => (r.1, conditions r.2)

def runEvents (P : CounterProgram) (scans : List (Nat → Bool)) : List Event :=
  scans.flatMap (scanEvents P)

/-- The counter of the ladder library after the evaluations. -/
def libraryCounter (now : Int) (tag : String) (events : List Event) : Option CounterState :=
  (events.foldl (fun s e => (evaluate now (e.1.instr tag) e.2 s).2) {}).counters.lookup tag

/-- The counter of the Starlark engine after the evaluations. -/
def engineCounter {F64 : Type} [GoFloat64 F64] [GoFloat64OfInt F64] (vars : VariableStore F64)
    (now : Int) (tag : String) (events : List Event) : Option CounterState :=
  (events.foldl (fun s e => (evaluateElement now (e.1.instr tag) e.2 s).2)
    { vars := vars }).counters.lookup tag

/-! ## What a counter is to count -/

/-- The last conditions of both rungs, and the edges up less the edges down since the last reset
with a true condition. -/
structure Edges where
  up : Bool := false
  down : Bool := false
  count : Int := 0

def Edges.step (s : Edges) : Event → Edges
  | (.up _, b) => { s with up := b, count := if b && !s.up then s.count + 1 else s.count }
  | (.down _, b) => { s with down := b, count := if b && !s.down then s.count - 1 else s.count }
  | (.reset, b) => if b then { s with count := 0 } else s

def edges (events : List Event) : Edges := events.foldl Edges.step {}

/-- The counter after an evaluation has counted the edges, and its done bit is the test of the
instruction. -/
def RightAfter (counter : List Event → Option CounterState) (events : List Event) (e : Event) :
    Prop :=
  match e.1 with
  | .up preset => ∃ c, counter (events ++ [e]) = some c ∧
      c.acc = (edges (events ++ [e])).count ∧ c.dn = decide (preset ≤ c.acc)
  | .down _ => ∃ c, counter (events ++ [e]) = some c ∧
      c.acc = (edges (events ++ [e])).count ∧ c.dn = decide (c.acc ≤ 0)
  | .reset => True

/-- The counter is right after each evaluation of the run. -/
def CountsRight (counter : List Event → Option CounterState) (run : List Event) : Prop :=
  ∀ before e after, run = before ++ e :: after → RightAfter counter before e

/-- The program drives the counter up and down. -/
def Both (P : CounterProgram) : Prop :=
  (∃ preset, .up preset ∈ P.rungs) ∧ ∃ preset, .down preset ∈ P.rungs

/-! ## One counter for both engines -/

def counterStep (o : Option CounterState) : Event → Option CounterState
  | (.up preset, b) => some ((o.getD { preset := preset }).ctu b)
  | (.down preset, b) => some ((o.getD { preset := preset }).ctd b)
  | (.reset, b) => if b then o.map (·.reset) else o

def counterAfter (events : List Event) : Option CounterState := events.foldl counterStep none

/-- An instruction of the library moves the counter of its tag by its event. -/
theorem library_step (now : Int) (tag : String) (e : Event) (s : State) :
    (evaluate now (e.1.instr tag) e.2 s).2.counters.lookup tag =
      counterStep (s.counters.lookup tag) e := by
  obtain ⟨rung, b⟩ := e
  cases rung with
  | up preset => simp [CounterRung.instr, evaluate, State.setCounter, State.getCounter, counterStep]
  | down preset =>
    simp [CounterRung.instr, evaluate, State.setCounter, State.getCounter, counterStep]
  | reset =>
    cases b with
    | false => rfl
    | true =>
      have htimer : ∀ s' : State, (s'.resetTimer tag).counters = s'.counters := by
        intro s'
        unfold State.resetTimer
        split <;> rfl
      simp only [CounterRung.instr, evaluate, State.resetTag, htimer, State.resetCounter,
        counterStep, if_true]
      cases hlookup : s.counters.lookup tag with
      | none => simp [hlookup]
      | some c => simp [State.setCounter]

theorem engine_step {F64 : Type} [GoFloat64 F64] [GoFloat64OfInt F64] (now : Int) (tag : String)
    (e : Event) (s : EngineState F64) :
    (evaluateElement now (e.1.instr tag) e.2 s).2.counters.lookup tag =
      counterStep (s.counters.lookup tag) e := by
  obtain ⟨rung, b⟩ := e
  have hpublish : ∀ (s' : EngineState F64) dn acc,
      (s'.publish tag dn acc now).counters = s'.counters := fun _ _ _ => rfl
  cases rung with
  | up preset =>
    simp [CounterRung.instr, evaluateElement, EngineState.finishCounter, hpublish,
      EngineState.getCounter, counterStep]
  | down preset =>
    simp [CounterRung.instr, evaluateElement, EngineState.finishCounter, hpublish,
      EngineState.getCounter, counterStep]
  | reset =>
    cases b with
    | false => rfl
    | true =>
      have htimer : ∀ s' : EngineState F64, (s'.resetTimer tag now).counters = s'.counters := by
        intro s'
        unfold EngineState.resetTimer
        split <;> rfl
      simp only [CounterRung.instr, evaluateElement, EngineState.evaluateReset, htimer,
        EngineState.resetCounter, counterStep, if_true]
      cases hlookup : s.counters.lookup tag with
      | none => simp [hlookup]
      | some c => simp [hpublish]

/-- A fold of evaluations moves the counter by its own steps. -/
theorem lookup_foldl {σ : Type} {step : σ → Event → σ} (look : σ → Option CounterState)
    (hstep : ∀ s e, look (step s e) = counterStep (look s) e) (events : List Event) (s : σ) :
    look (events.foldl step s) = events.foldl counterStep (look s) := by
  induction events generalizing s with
  | nil => rfl
  | cons e events ih => rw [List.foldl_cons, ih, hstep, List.foldl_cons]

theorem libraryCounter_eq (now : Int) (tag : String) : libraryCounter now tag = counterAfter := by
  funext events
  exact lookup_foldl (·.counters.lookup tag) (fun s e => library_step now tag e s) events {}

theorem engineCounter_eq {F64 : Type} [GoFloat64 F64] [GoFloat64OfInt F64]
    (vars : VariableStore F64) (now : Int) (tag : String) :
    engineCounter vars now tag = counterAfter := by
  funext events
  exact lookup_foldl (·.counters.lookup tag) (fun s e => engine_step now tag e s) events
    { vars := vars }

theorem counterAfter_snoc (events : List Event) (e : Event) :
    counterAfter (events ++ [e]) = counterStep (counterAfter events) e := by
  rw [counterAfter, counterAfter, List.foldl_append, List.foldl_cons, List.foldl_nil]

theorem edges_snoc (events : List Event) (e : Event) :
    edges (events ++ [e]) = (edges events).step e := by
  rw [edges, edges, List.foldl_append, List.foldl_cons, List.foldl_nil]

/-! ## Counting in one direction -/

/-- A counter that is only counted up: the edge memory is that of the CTU rung, and a done bit
that is set stays right because the count only grows. -/
structure CountsUp (preset : Int) (c : CounterState) (s : Edges) : Prop where
  memory : c.prevEN = s.up
  count : c.acc = s.count
  limit : c.preset = preset
  done : c.dn = true → preset ≤ c.acc

section Up

variable {preset : Int} {c : CounterState} {s : Edges}

/-- A count up adds a rising edge, and the counter is done from its preset on. -/
theorem CountsUp.up (h : CountsUp preset c s) (b : Bool) :
    CountsUp preset (c.ctu b) (s.step (.up preset, b)) ∧
      (c.ctu b).dn = decide (preset ≤ (c.ctu b).acc) := by
  have hcount : (c.ctu b).acc = (s.step (.up preset, b)).count := by
    rw [CounterState.ctu_acc, CounterState.rises, h.memory, h.count, Edges.step]
  have hgrows : c.acc ≤ (c.ctu b).acc := by
    rw [CounterState.ctu_acc]
    split <;> omega
  have hdn : (c.ctu b).dn = decide (preset ≤ (c.ctu b).acc) := by
    rw [CounterState.ctu_dn, h.limit]
    cases hset : c.dn with
    | false => rfl
    | true => simp [le_trans (h.done hset) hgrows]
  refine ⟨⟨rfl, hcount, by rw [CounterState.ctu_preset, h.limit], ?_⟩, hdn⟩
  intro hset
  rw [hdn] at hset
  exact of_decide_eq_true hset

theorem CountsUp.reset (h : CountsUp preset c s) :
    CountsUp preset c.reset (s.step (.reset, true)) :=
  ⟨h.memory, rfl, h.limit, fun hset => by cases hset⟩

end Up

/-- A counter that is only counted down is never above zero, and so always done. -/
structure CountsDown (c : CounterState) (s : Edges) : Prop where
  memory : c.prevEN = s.down
  count : c.acc = s.count
  below : c.acc ≤ 0

section Down

variable {c : CounterState} {s : Edges}

/-- A count down takes a rising edge away, and the counter is done at zero and below. -/
theorem CountsDown.down (h : CountsDown c s) (preset : Int) (b : Bool) :
    CountsDown (c.ctd b) (s.step (.down preset, b)) ∧
      (c.ctd b).dn = decide ((c.ctd b).acc ≤ 0) := by
  have hcount : (c.ctd b).acc = (s.step (.down preset, b)).count := by
    rw [CounterState.ctd_acc, CounterState.rises, h.memory, h.count, Edges.step]
  have hbelow : (c.ctd b).acc ≤ 0 := by
    have := h.below
    rw [CounterState.ctd_acc]
    split <;> omega
  refine ⟨⟨rfl, hcount, hbelow⟩, ?_⟩
  simp [CounterState.ctd_dn, hbelow]

theorem CountsDown.reset (h : CountsDown c s) : CountsDown c.reset (s.step (.reset, true)) :=
  ⟨h.memory, rfl, le_refl _⟩

end Down

/-- Before its first evaluation a counter counts as made. -/
theorem getD_reset (o : Option CounterState) (preset : Int) :
    (o.map (·.reset)).getD { preset := preset } =
      (o.getD { preset := preset }).reset := by
  cases o with
  | none => rfl
  | some c => rfl

/-- After any run without a count down the accumulator is the number of rising edges. -/
theorem countsUp_after {preset : Int} {events : List Event}
    (h : ∀ e ∈ events, e.1 = .up preset ∨ e.1 = .reset) :
    CountsUp preset ((counterAfter events).getD { preset := preset }) (edges events) := by
  induction events using List.reverseRecOn with
  | nil => exact ⟨rfl, rfl, rfl, fun hset => by cases hset⟩
  | append_singleton events e ih =>
    have hbefore := ih fun e' he' => h e' (List.mem_append_left _ he')
    have he := h e (by simp)
    rw [counterAfter_snoc, edges_snoc]
    obtain ⟨rung, b⟩ := e
    obtain rfl | rfl := he
    · exact (hbefore.up b).1
    · cases b with
      | false => exact hbefore
      | true =>
        rw [counterStep, if_pos rfl, getD_reset]
        exact hbefore.reset

/-- After any run without a count up it is that number, taken from zero. -/
theorem countsDown_after {preset : Int} {events : List Event}
    (h : ∀ e ∈ events, e.1 = .down preset ∨ e.1 = .reset) :
    CountsDown ((counterAfter events).getD { preset := preset }) (edges events) := by
  induction events using List.reverseRecOn with
  | nil => exact ⟨rfl, rfl, le_refl _⟩
  | append_singleton events e ih =>
    have hbefore := ih fun e' he' => h e' (List.mem_append_left _ he')
    have he := h e (by simp)
    rw [counterAfter_snoc, edges_snoc]
    obtain ⟨rung, b⟩ := e
    obtain rfl | rfl := he
    · exact (hbefore.down preset b).1
    · cases b with
      | false => exact hbefore
      | true =>
        rw [counterStep, if_pos rfl, getD_reset]
        exact hbefore.reset

/-- A counter is right in every run that only counts up. -/
theorem countsRight_up {preset : Int} {run : List Event}
    (h : ∀ e ∈ run, e.1 = .up preset ∨ e.1 = .reset) : CountsRight counterAfter run := by
  rintro before ⟨rung, b⟩ after rfl
  have hbefore := countsUp_after fun e he => h e (List.mem_append_left _ he)
  obtain rfl | rfl := h (rung, b) (by simp)
  · obtain ⟨hup, hdn⟩ := hbefore.up b
    refine ⟨_, counterAfter_snoc _ _, ?_, hdn⟩
    rw [edges_snoc]
    exact hup.count
  · exact trivial

/-- It is right in every run that only counts down. -/
theorem countsRight_down {preset : Int} {run : List Event}
    (h : ∀ e ∈ run, e.1 = .down preset ∨ e.1 = .reset) : CountsRight counterAfter run := by
  rintro before ⟨rung, b⟩ after rfl
  have hbefore := countsDown_after fun e he => h e (List.mem_append_left _ he)
  obtain rfl | rfl := h (rung, b) (by simp)
  · obtain ⟨hdown, hdn⟩ := hbefore.down preset b
    refine ⟨_, counterAfter_snoc _ _, ?_, hdn⟩
    rw [edges_snoc]
    exact hdown.count
  · exact trivial

/-! ## Counting in both directions -/

/-- The evaluations of rungs that all have a false condition. -/
def quiet (rungs : List CounterRung) : List Event := rungs.map fun r => (r, false)

/-- False conditions count nothing, but that of a CTD rung is kept as the last condition. -/
theorem quiet_counter {rungs : List CounterRung} (h : ∀ r ∈ rungs, r.isUp = false)
    (c : CounterState) :
    ∃ c', (quiet rungs).foldl counterStep (some c) = some c' ∧ c'.acc = c.acc ∧
      (c'.prevEN = true → c.prevEN = true ∧ ∀ r ∈ rungs, r.isDown = false) := by
  induction rungs generalizing c with
  | nil => exact ⟨c, rfl, rfl, fun hprev => ⟨hprev, by simp⟩⟩
  | cons r rungs ih =>
    have hrest := fun r' hr' => h r' (List.mem_cons_of_mem r hr')
    cases r with
    | up preset => exact absurd (h _ List.mem_cons_self) (by simp [CounterRung.isUp])
    | down preset =>
      obtain ⟨c', hc', hacc, hprev⟩ := ih hrest (c.ctd false)
      refine ⟨c', hc', ?_, ?_⟩
      · rw [hacc, CounterState.ctd_acc, CounterState.rises]
        rfl
      · intro hset
        exact absurd (hprev hset).1 (by simp)
    | reset =>
      obtain ⟨c', hc', hacc, hprev⟩ := ih hrest c
      refine ⟨c', hc', hacc, fun hset => ⟨(hprev hset).1, ?_⟩⟩
      intro r hr
      obtain rfl | hr := List.mem_cons.mp hr
      · rfl
      · exact (hprev hset).2 r hr

/-- Without an up rung, false conditions leave a new counter at zero. -/
theorem quiet_fresh {rungs : List CounterRung} (h : ∀ r ∈ rungs, r.isUp = false) (preset : Int) :
    ((counterAfter (quiet rungs)).getD { preset := preset }).acc = 0 ∧
      ((counterAfter (quiet rungs)).getD { preset := preset }).prevEN = false := by
  induction rungs with
  | nil => exact ⟨rfl, rfl⟩
  | cons r rungs ih =>
    have hrest := fun r' hr' => h r' (List.mem_cons_of_mem r hr')
    cases r with
    | up preset => exact absurd (h _ List.mem_cons_self) (by simp [CounterRung.isUp])
    | down p =>
      obtain ⟨c', hc', hacc, hprev⟩ :=
        quiet_counter hrest (({ preset := p } : CounterState).ctd false)
      have hafter : counterAfter (quiet (.down p :: rungs)) = some c' := hc'
      rw [hafter]
      refine ⟨hacc.trans rfl, ?_⟩
      cases hset : c'.prevEN with
      | false => exact hset
      | true => exact absurd (hprev hset).1 (by simp)
    | reset => exact ih hrest

theorem quiet_edges {rungs : List CounterRung} (h : ∀ r ∈ rungs, r.isUp = false) (s : Edges) :
    ((quiet rungs).foldl Edges.step s).up = s.up ∧
      ((quiet rungs).foldl Edges.step s).count = s.count := by
  induction rungs generalizing s with
  | nil => exact ⟨rfl, rfl⟩
  | cons r rungs ih =>
    have hrest := fun r' hr' => h r' (List.mem_cons_of_mem r hr')
    cases r with
    | up preset => exact absurd (h _ List.mem_cons_self) (by simp [CounterRung.isUp])
    | down preset => exact ih hrest (s.step (.down preset, false))
    | reset => exact ih hrest s

/-- The condition of the CTU rung stays true over two scans: the CTD rung between its two
evaluations clears the memory, and the edge is counted again. -/
theorem counted_twice {a b : List CounterRung} (preset : Int) {preset' : Int}
    (ha : ∀ r ∈ a, r.isUp = false) (hb : ∀ r ∈ b, r.isUp = false)
    (hdown : .down preset' ∈ b ++ a) :
    ¬ RightAfter counterAfter (quiet a ++ (.up preset, true) :: quiet (b ++ a))
      (.up preset, true) := by
  have hba : ∀ r ∈ b ++ a, r.isUp = false := by
    intro r hr
    exact (List.mem_append.mp hr).elim (hb r) (ha r)
  obtain ⟨hacc, hprev⟩ := quiet_fresh ha preset
  obtain ⟨c', hc', hacc', hprev'⟩ := quiet_counter hba
    (((counterAfter (quiet a)).getD { preset := preset }).ctu true)
  have hcleared : c'.prevEN = false := by
    cases hset : c'.prevEN with
    | false => rfl
    | true => exact absurd ((hprev' hset).2 _ hdown) (by simp [CounterRung.isDown])
  have hcounter : counterAfter (quiet a ++ (.up preset, true) :: quiet (b ++ a)) = some c' := by
    rw [counterAfter, List.foldl_append, List.foldl_cons]
    exact hc'
  have hone : c'.acc = 1 := by
    rw [hacc', CounterState.ctu_acc, CounterState.rises, hprev, hacc]
    rfl
  obtain ⟨hup, hcount⟩ := quiet_edges ha {}
  obtain ⟨hup', hcount'⟩ :=
    quiet_edges hba (((quiet a).foldl Edges.step {}).step (.up preset, true))
  have hedges : (edges (quiet a ++ (.up preset, true) :: quiet (b ++ a))).up = true ∧
      (edges (quiet a ++ (.up preset, true) :: quiet (b ++ a))).count = 1 := by
    rw [edges, List.foldl_append, List.foldl_cons, hup', hcount']
    simp [Edges.step, hup, hcount]
  rintro ⟨c, hc, hright, -⟩
  rw [counterAfter_snoc, hcounter] at hc
  obtain rfl : c'.ctu true = c := Option.some.inj hc
  -- the accumulator is two, after one edge
  rw [edges_snoc, CounterState.ctu_acc, CounterState.rises, hcleared, hone, Edges.step, hedges.1,
    hedges.2] at hright
  simp at hright

/-! ## All runs of a program -/

section Programs

variable {P : CounterProgram}

theorem mem_runEvents {scans : List (Nat → Bool)} {e : Event} (h : e ∈ runEvents P scans) :
    e.1 ∈ P.rungs := by
  obtain ⟨conditions, -, hscan⟩ := List.mem_flatMap.mp h
  obtain ⟨⟨r, i⟩, hr, rfl⟩ := List.mem_map.mp hscan
  exact List.mem_of_getElem? (List.mem_zipIdx_iff_getElem?.mp hr)

/-- Two rungs of which there is at most one are one. -/
theorem eq_of_filter_length {test : CounterRung → Bool} {rungs : List CounterRung}
    (h : (rungs.filter test).length ≤ 1) {r r' : CounterRung} (hr : r ∈ rungs) (hr' : r' ∈ rungs)
    (ht : test r = true) (ht' : test r' = true) : r = r' := by
  have hmem := List.mem_filter.mpr ⟨hr, ht⟩
  have hmem' := List.mem_filter.mpr ⟨hr', ht'⟩
  obtain ⟨x, hx⟩ := List.length_eq_one_iff.mp
    (le_antisymm h (List.length_pos_of_mem hmem))
  rw [hx] at hmem hmem'
  rw [List.mem_singleton.mp hmem, List.mem_singleton.mp hmem']

/-- A counter that only one kind of rung counts is right. -/
theorem countsRight_of_not_both (h : ¬ Both P) (scans : List (Nat → Bool)) :
    CountsRight counterAfter (runEvents P scans) := by
  by_cases hup : ∃ preset, .up preset ∈ P.rungs
  · obtain ⟨preset, hpreset⟩ := hup
    have hall : ∀ e ∈ runEvents P scans, e.1 = .up preset ∨ e.1 = .reset := by
      intro e he
      have hrung := mem_runEvents he
      generalize e.1 = rung at hrung
      cases rung with
      | up preset' => exact Or.inl (eq_of_filter_length P.oneUp hrung hpreset rfl rfl)
      | down preset' => exact absurd ⟨⟨preset, hpreset⟩, preset', hrung⟩ h
      | reset => exact Or.inr rfl
    exact countsRight_up hall
  · obtain ⟨preset, hpreset⟩ : ∃ preset, ∀ preset', .down preset' ∈ P.rungs → preset' = preset := by
      by_cases hdown : ∃ preset, .down preset ∈ P.rungs
      · obtain ⟨preset, hpreset⟩ := hdown
        refine ⟨preset, fun preset' hpreset' => ?_⟩
        have hsame := eq_of_filter_length P.oneDown hpreset' hpreset rfl rfl
        exact CounterRung.down.inj hsame
      · exact ⟨0, fun preset' hpreset' => absurd ⟨preset', hpreset'⟩ hdown⟩
    have hall : ∀ e ∈ runEvents P scans, e.1 = .down preset ∨ e.1 = .reset := by
      intro e he
      have hrung := mem_runEvents he
      generalize e.1 = rung at hrung
      cases rung with
      | up preset' => exact absurd ⟨preset', hrung⟩ hup
      | down preset' => exact Or.inl (by rw [hpreset preset' hrung])
      | reset => exact Or.inr rfl
    exact countsRight_down hall

/-- The scan in which the condition of the CTU rung is true, and no other. -/
def upScan (P : CounterProgram) (i : Nat) : Bool := P.rungs[i]?.any (·.isUp)

/-- In the scan of the counterexample the up rungs are true and the others false. -/
theorem scanEvents_upScan (P : CounterProgram) :
    scanEvents P (upScan P) = P.rungs.map fun r => (r, r.isUp) := by
  have hscan : scanEvents P (upScan P) = P.rungs.zipIdx.map fun x => (x.1, x.1.isUp) := by
    apply List.map_congr_left
    rintro ⟨r, i⟩ hr
    have hget := List.mem_zipIdx_iff_getElem?.mp hr
    simp only at hget
    rw [upScan, hget, Option.any_some]
  rw [hscan]
  conv_rhs => rw [← List.zipIdx_map_fst 0 P.rungs, List.map_map]
  rfl

/-- One scan with a rising edge on each up rung makes a shared counter wrong. -/
theorem not_countsRight_of_both (h : Both P) :
    ¬ CountsRight counterAfter (runEvents P [upScan P, upScan P]) := by
  obtain ⟨⟨preset, hup⟩, preset', hdown⟩ := h
  obtain ⟨a, b, hrungs⟩ := List.append_of_mem hup
  have hone := P.oneUp
  rw [hrungs, List.filter_append, List.filter_cons_of_pos rfl, List.length_append,
    List.length_cons] at hone
  have ha : ∀ r ∈ a, r.isUp = false := by
    intro r hr
    have hnil := List.eq_nil_of_length_eq_zero (show (a.filter (·.isUp)).length = 0 by omega)
    simpa using List.filter_eq_nil_iff.mp hnil r hr
  have hb : ∀ r ∈ b, r.isUp = false := by
    intro r hr
    have hnil := List.eq_nil_of_length_eq_zero (show (b.filter (·.isUp)).length = 0 by omega)
    simpa using List.filter_eq_nil_iff.mp hnil r hr
  have hquiet : ∀ rungs : List CounterRung, (∀ r ∈ rungs, r.isUp = false) →
      rungs.map (fun r => (r, r.isUp)) = quiet rungs := by
    intro rungs hall
    apply List.map_congr_left
    intro r hr
    rw [hall r hr]
  have hscan : scanEvents P (upScan P) = quiet a ++ (.up preset, true) :: quiet b := by
    rw [scanEvents_upScan, hrungs, List.map_append, List.map_cons, hquiet a ha, hquiet b hb]
    rfl
  have hmem : .down preset' ∈ b ++ a := by
    rw [hrungs] at hdown
    simpa [or_comm] using hdown
  intro hright
  apply counted_twice preset ha hb hmem
  apply hright _ _ (quiet b)
  rw [runEvents, List.flatMap_cons, List.flatMap_cons, List.flatMap_nil, List.append_nil, hscan]
  simp [quiet]

end Programs

/-- In both engines a counter counts right in all runs of a program exactly if the program does
not count it both up and down. -/
theorem counters_right_iff {F64 : Type} [GoFloat64 F64] [GoFloat64OfInt F64]
    (P : CounterProgram) (tag : String) (now : Int) (vars : VariableStore F64) :
    ((∀ scans, CountsRight (libraryCounter now tag) (runEvents P scans)) ↔ ¬ Both P) ∧
      ((∀ scans, CountsRight (engineCounter vars now tag) (runEvents P scans)) ↔ ¬ Both P) := by
  rw [libraryCounter_eq, engineCounter_eq]
  have hiff : (∀ scans, CountsRight counterAfter (runEvents P scans)) ↔ ¬ Both P := by
    constructor
    · intro h hboth
      exact not_countsRight_of_both hboth (h _)
    · intro h scans
      exact countsRight_of_not_both h scans
  exact ⟨hiff, hiff⟩

/-- Parts are counted up and down on one counter. -/
def upDown : CounterProgram := ⟨[.up 5, .down 5], by decide, by decide⟩

/-- The CTU condition is true in two scans and the CTD condition in none: two are counted. -/
theorem edge_counted_twice :
    ¬ ∀ (P : CounterProgram) (scans : List (Nat → Bool)),
      CountsRight (libraryCounter 0 "parts") (runEvents P scans) := by
  intro h
  rw [libraryCounter_eq] at h
  exact not_countsRight_of_both (P := upDown) ⟨⟨5, by decide⟩, 5, by decide⟩ (h upDown _)

end LadderCounters
