import Tentacle.LadderEngine

/-!
# The timers of a ladder program

A timer adds up the times between its scans and keeps flags and the last tick. What its done bit
says is a fact about the history of the scans: an on-delay timer is done when its rung has been
true for the preset, an off-delay timer until its rung has been false for the preset. The two
engines come to this in all their programs.
-/

namespace LadderTimers

open GoValues SeriesParallel PlcVariables
open Ladder (Instr TimerState Element State Variables)
open LadderEngine (EngineState durationMs)

/-! ## Histories -/

/-- One evaluation of a timer: the time of the scan and the condition of the rung. -/
structure Sample where
  time : Int
  rungIn : Bool
  deriving DecidableEq, Repr

inductive Kind where
  | ton
  | tof
  deriving DecidableEq, Repr

/-- The rung is true now and has been true in every scan since one that is `p` ago. -/
def TonDone (p t : Int) (history : List Sample) : Prop :=
  ∃ front first since, history = front ++ first :: since ∧
    (∀ x ∈ first :: since, x.rungIn = true) ∧ p ≤ t - first.time

/-- The rung is true now; or it has been true, and the first false scan after the latest true one
is less than `p` ago. -/
def TofDone (p t : Int) (history : List Sample) : Prop :=
  (∃ front last, history = front ++ [last] ∧ last.rungIn = true) ∨
    ∃ front on first since, history = front ++ on :: first :: since ∧ on.rungIn = true ∧
      (∀ x ∈ first :: since, x.rungIn = false) ∧ t - first.time < p

def Done : Kind → Int → Int → List Sample → Prop
  | .ton => TonDone
  | .tof => TofDone

def TimerState.tick (kind : Kind) (t : TimerState) (x : Sample) : TimerState :=
  match kind with
  | .ton => t.ton x.rungIn x.time
  | .tof => t.tof x.rungIn x.time

/-- The timer after the scans of a history. -/
def after (kind : Kind) (p : Int) (history : List Sample) : TimerState :=
  history.foldl (TimerState.tick kind) { preset := p }

theorem after_concat (kind : Kind) (p : Int) (history : List Sample) (x : Sample) :
    after kind p (history ++ [x]) = TimerState.tick kind (after kind p history) x := by
  rw [after, List.foldl_append]
  rfl

/-! ## The on-delay timer -/

/-- The time of the first scan of the stretch of true scans that the history ends with. -/
def trueSince (history : List Sample) : Option Int :=
  history.foldl (fun o x => if x.rungIn then some (o.getD x.time) else none) none

theorem trueSince_concat (history : List Sample) (x : Sample) :
    trueSince (history ++ [x]) =
      if x.rungIn then some ((trueSince history).getD x.time) else none := by
  rw [trueSince, List.foldl_append]
  rfl

/-- The accumulator is the time since the start of the stretch, until the timer is done. -/
structure TonState (p t : Int) (since : Option Int) (timer : TimerState) : Prop where
  preset : timer.preset = p
  idle : since = none → timer.dn = false ∧ timer.tt = false ∧ timer.acc = 0
  done : ∀ s, since = some s → (timer.dn = true ↔ p ≤ t - s)
  timing : ∀ s, since = some s → timer.dn = false →
    timer.tt = true ∧ timer.acc = t - s ∧ timer.lastTick = t

/-- A sample moves the on-delay timer with the time for which the rung has been true. -/
theorem TonState.tick {p t : Int} {since : Option Int} {timer : TimerState}
    (h : TonState p t since timer) {x : Sample} (hle : t ≤ x.time) :
    TonState p x.time (if x.rungIn then some (since.getD x.time) else none)
      (TimerState.tick .ton timer x) := by
  obtain ⟨now, rungIn⟩ := x
  obtain ⟨rfl, hidle, hdone, htiming⟩ := h
  simp only at hle
  cases rungIn with
  | false => constructor <;> simp [TimerState.tick, TimerState.ton]
  | true =>
    cases since with
    | none =>
      obtain ⟨hdn, htt, hacc⟩ := hidle rfl
      by_cases hp : timer.preset ≤ 0
      · constructor <;>
          simp [TimerState.tick, TimerState.ton, TimerState.accumulate, hdn, htt, hacc, hp]
      · have hlt : 0 < timer.preset := by omega
        constructor <;>
          simp [TimerState.tick, TimerState.ton, TimerState.accumulate, hdn, htt, hacc, hp, hlt]
    | some s =>
      cases hdn : timer.dn with
      | true =>
        have hp := (hdone s rfl).mp hdn
        constructor <;> simp [TimerState.tick, TimerState.ton, hdn]
        omega
      | false =>
        obtain ⟨htt, hacc, htick⟩ := htiming s rfl hdn
        have hsum : t - s + (now - t) = now - s := by omega
        by_cases hp : timer.preset ≤ now - s
        · constructor <;>
            simp [TimerState.tick, TimerState.ton, TimerState.accumulate, hdn, htt, hacc, htick,
              hsum, hp]
        · have hlt : now - s < timer.preset := by omega
          constructor <;>
            simp [TimerState.tick, TimerState.ton, TimerState.accumulate, hdn, htt, hacc, htick,
              hsum, hp, hlt]

/-- The scans come at times that do not decrease. -/
def Ordered (history : List Sample) : Prop := history.Pairwise fun x y => x.time ≤ y.time

/-- After each sample the timer knows since when the rung is true. -/
theorem tonState_after (p : Int) {history : List Sample} {x : Sample}
    (h : Ordered (history ++ [x])) :
    TonState p x.time (trueSince (history ++ [x])) (after .ton p (history ++ [x])) := by
  rw [trueSince_concat, after_concat]
  induction history using List.reverseRecOn generalizing x with
  | nil =>
    have hnew : TonState p x.time none { preset := p } := by constructor <;> simp
    exact hnew.tick (le_refl _)
  | append_singleton history y ih =>
    obtain ⟨hfront, -, hle⟩ := List.pairwise_append.mp h
    rw [trueSince_concat, after_concat]
    exact (ih hfront).tick (hle y (by simp) x (by simp))

/-- The stretch stands at the end of the history. -/
theorem trueSince_eq_some {history : List Sample} {s : Int} (h : trueSince history = some s) :
    ∃ front first since, history = front ++ first :: since ∧
      (∀ x ∈ first :: since, x.rungIn = true) ∧ first.time = s := by
  induction history using List.reverseRecOn generalizing s with
  | nil => cases h
  | append_singleton history x ih =>
    rw [trueSince_concat] at h
    cases hx : x.rungIn with
    | false => simp [hx] at h
    | true =>
      rw [if_pos hx] at h
      cases hsince : trueSince history with
      | none =>
        rw [hsince] at h
        exact ⟨history, x, [], rfl, by simpa using hx, Option.some.inj h⟩
      | some s' =>
        rw [hsince] at h
        obtain ⟨front, first, since, rfl, htrue, rfl⟩ := ih hsince
        refine ⟨front, first, since ++ [x], by simp, ?_, Option.some.inj h⟩
        rw [← List.cons_append]
        intro y hy
        obtain hy | hy := List.mem_append.mp hy
        · exact htrue y hy
        · rw [List.mem_singleton.mp hy, hx]

/-- A stretch of true scans at the end is part of the longest one. -/
theorem trueSince_of_stretch {front since : List Sample} {first : Sample}
    (h : Ordered (front ++ first :: since)) (htrue : ∀ x ∈ first :: since, x.rungIn = true) :
    ∃ s, trueSince (front ++ first :: since) = some s ∧ s ≤ first.time := by
  induction since using List.reverseRecOn with
  | nil =>
    rw [trueSince_concat, if_pos (htrue first (by simp))]
    refine ⟨_, rfl, ?_⟩
    cases hsince : trueSince front with
    | none => exact le_refl _
    | some s =>
      obtain ⟨front', first', since', rfl, -, rfl⟩ := trueSince_eq_some hsince
      exact (List.pairwise_append.mp h).2.2 first' (by simp) first (by simp)
  | append_singleton since x ih =>
    rw [← List.cons_append, ← List.append_assoc] at h ⊢
    obtain ⟨s, hs, hle⟩ := ih (List.pairwise_append.mp h).1
      (fun y hy => htrue y (by rw [← List.cons_append]; exact List.mem_append_left _ hy))
    rw [trueSince_concat, if_pos (htrue x (by simp)), hs]
    exact ⟨s, rfl, hle⟩

/-- The timer is done if the rung has been true for the preset. -/
theorem tonDone_iff {p t : Int} {history : List Sample} (h : Ordered history) :
    TonDone p t history ↔ ∃ s, trueSince history = some s ∧ p ≤ t - s := by
  constructor
  · rintro ⟨front, first, since, rfl, htrue, hp⟩
    obtain ⟨s, hs, hle⟩ := trueSince_of_stretch h htrue
    exact ⟨s, hs, by omega⟩
  · rintro ⟨s, hs, hp⟩
    obtain ⟨front, first, since, rfl, htrue, rfl⟩ := trueSince_eq_some hs
    exact ⟨front, first, since, rfl, htrue, hp⟩

/-- The done bit of the on-delay timer is what the history says. -/
theorem ton_done_iff (p : Int) {history : List Sample} {x : Sample}
    (h : Ordered (history ++ [x])) :
    (after .ton p (history ++ [x])).dn = true ↔ TonDone p x.time (history ++ [x]) := by
  have hstate := tonState_after p h
  rw [tonDone_iff h]
  cases hsince : trueSince (history ++ [x]) with
  | none => simp [(hstate.idle hsince).1]
  | some s => simp [hstate.done s hsince]

/-! ## The off-delay timer -/

/-- What an off-delay timer has seen: the rung was never true, it is true, or it has been false
since the given time. -/
inductive Off where
  | never
  | on
  | since (s : Int)

/-- A false scan. -/
def Off.fall (t : Int) : Off → Off
  | .never => .never
  | .on => .since t
  | .since s => .since s

def Off.next (o : Off) (x : Sample) : Off := if x.rungIn then .on else o.fall x.time

def falseSince (history : List Sample) : Off := history.foldl Off.next .never

theorem falseSince_concat (history : List Sample) (x : Sample) :
    falseSince (history ++ [x]) = (falseSince history).next x := by
  rw [falseSince, List.foldl_append]
  rfl

/-- The accumulator is the time since the rung became false, as long as the timer is done. -/
structure TofState (p t : Int) (off : Off) (timer : TimerState) : Prop where
  preset : timer.preset = p
  never : off = .never → timer.dn = false ∧ timer.tt = false ∧ timer.prevEN = false
  on : off = .on → timer.dn = true ∧ timer.tt = false ∧ timer.acc = 0 ∧ timer.prevEN = true
  since : ∀ s, off = .since s → timer.prevEN = false ∧ (timer.dn = true ↔ t - s < p)
  timing : ∀ s, off = .since s → timer.dn = true →
    timer.tt = true ∧ timer.acc = t - s ∧ timer.lastTick = t
  idle : ∀ s, off = .since s → timer.dn = false → timer.tt = false

/-- A sample moves the off-delay timer with the time for which the rung has been false. -/
theorem TofState.tick {p t : Int} {off : Off} {timer : TimerState} (h : TofState p t off timer)
    {x : Sample} (hle : t ≤ x.time) :
    TofState p x.time (off.next x) (TimerState.tick .tof timer x) := by
  obtain ⟨now, rungIn⟩ := x
  obtain ⟨rfl, hnever, hon, hsince, htiming, hidle⟩ := h
  simp only at hle
  cases rungIn with
  | true => constructor <;> simp [Off.next, TimerState.tick, TimerState.tof]
  | false =>
    cases off with
    | never =>
      obtain ⟨hdn, htt, hprev⟩ := hnever rfl
      constructor <;> simp [Off.next, Off.fall, TimerState.tick, TimerState.tof, hdn, htt, hprev]
    | on =>
      obtain ⟨hdn, htt, hacc, hprev⟩ := hon rfl
      by_cases hp : timer.preset ≤ 0
      · constructor <;>
          simp [Off.next, Off.fall, TimerState.tick, TimerState.tof, TimerState.accumulate, hdn,
            hacc, hprev, hp]
      · have hlt : 0 < timer.preset := by omega
        constructor <;>
          simp [Off.next, Off.fall, TimerState.tick, TimerState.tof, TimerState.accumulate, hdn,
            hacc, hprev, hp, hlt]
    | since s =>
      obtain ⟨hprev, hdone⟩ := hsince s rfl
      cases hdn : timer.dn with
      | false =>
        -- the delay is over and stays over
        have htt := hidle s rfl hdn
        have hp : timer.preset ≤ now - s := by
          have := mt hdone.mpr (by simp [hdn])
          omega
        constructor <;>
          simp [Off.next, Off.fall, TimerState.tick, TimerState.tof, hdn, htt, hprev, hp]
      | true =>
        obtain ⟨htt, hacc, htick⟩ := htiming s rfl hdn
        have hsum : t - s + (now - t) = now - s := by omega
        by_cases hp : timer.preset ≤ now - s
        · constructor <;>
            simp [Off.next, Off.fall, TimerState.tick, TimerState.tof, TimerState.accumulate, hdn,
              htt, hacc, htick, hprev, hsum, hp]
        · have hlt : now - s < timer.preset := by omega
          constructor <;>
            simp [Off.next, Off.fall, TimerState.tick, TimerState.tof, TimerState.accumulate, hdn,
              htt, hacc, htick, hprev, hsum, hp, hlt]

/-- After each sample the timer knows since when the rung is false. -/
theorem tofState_after (p : Int) {history : List Sample} {x : Sample}
    (h : Ordered (history ++ [x])) :
    TofState p x.time (falseSince (history ++ [x])) (after .tof p (history ++ [x])) := by
  rw [falseSince_concat, after_concat]
  induction history using List.reverseRecOn generalizing x with
  | nil =>
    have hnew : TofState p x.time .never { preset := p } := by constructor <;> simp
    exact hnew.tick (le_refl _)
  | append_singleton history y ih =>
    obtain ⟨hfront, -, hle⟩ := List.pairwise_append.mp h
    rw [falseSince_concat, after_concat]
    exact (ih hfront).tick (hle y (by simp) x (by simp))

/-- The rung is on exactly if the last sample says so. -/
theorem falseSince_eq_on {history : List Sample} :
    falseSince history = .on ↔ ∃ front last, history = front ++ [last] ∧ last.rungIn = true := by
  cases history using List.reverseRecOn with
  | nil => simp [falseSince]
  | append_singleton history x =>
    rw [falseSince_concat, Off.next]
    cases hx : x.rungIn with
    | true => simp [hx]
    | false => cases falseSince history <;> simp [Off.fall, hx]

/-- It is off since the first of the samples that have been false to the end. -/
theorem falseSince_eq_since {history : List Sample} {s : Int} :
    falseSince history = .since s ↔
      ∃ front on first since, history = front ++ on :: first :: since ∧ on.rungIn = true ∧
        (∀ x ∈ first :: since, x.rungIn = false) ∧ first.time = s := by
  constructor
  · intro h
    induction history using List.reverseRecOn with
    | nil => cases h
    | append_singleton history x ih =>
      rw [falseSince_concat, Off.next] at h
      cases hx : x.rungIn with
      | true => simp [hx] at h
      | false =>
        rw [hx, if_neg Bool.false_ne_true] at h
        cases hoff : falseSince history with
        | never => simp [hoff, Off.fall] at h
        | on =>
          obtain ⟨front, last, rfl, hlast⟩ := falseSince_eq_on.mp hoff
          rw [hoff, Off.fall] at h
          exact ⟨front, last, x, [], by simp, hlast, by simpa using hx, Off.since.inj h⟩
        | since s' =>
          rw [hoff, Off.fall] at h
          cases h
          obtain ⟨front, on, first, since, rfl, hon, hfalse, rfl⟩ := ih hoff
          refine ⟨front, on, first, since ++ [x], by simp, hon, ?_, rfl⟩
          rw [← List.cons_append]
          intro y hy
          obtain hy | hy := List.mem_append.mp hy
          · exact hfalse y hy
          · rw [List.mem_singleton.mp hy, hx]
  · rintro ⟨front, on, first, since, rfl, hon, hfalse, rfl⟩
    have hfirst : falseSince (front ++ [on, first]) = .since first.time := by
      rw [List.append_cons, falseSince_concat, falseSince_eq_on.mpr ⟨front, on, rfl, hon⟩, Off.next,
        hfalse first (by simp)]
      rfl
    induction since using List.reverseRecOn with
    | nil => exact hfirst
    | append_singleton since x ih =>
      have hfront := ih fun y hy => hfalse y (by
        rw [← List.cons_append]
        exact List.mem_append_left _ hy)
      rw [← List.cons_append, ← List.cons_append, ← List.append_assoc, falseSince_concat, hfront,
        Off.next, hfalse x (by simp)]
      rfl

/-- The done bit of the off-delay timer is what the history says. -/
theorem tof_done_iff (p : Int) {history : List Sample} {x : Sample}
    (h : Ordered (history ++ [x])) :
    (after .tof p (history ++ [x])).dn = true ↔ TofDone p x.time (history ++ [x]) := by
  have hstate := tofState_after p h
  have hdone : TofDone p x.time (history ++ [x]) ↔ falseSince (history ++ [x]) = .on ∨
      ∃ s, falseSince (history ++ [x]) = .since s ∧ x.time - s < p := by
    rw [TofDone, falseSince_eq_on]
    apply or_congr_right
    constructor
    · rintro ⟨front, on, first, since, hsplit, hon, hfalse, hp⟩
      exact ⟨_, falseSince_eq_since.mpr ⟨front, on, first, since, hsplit, hon, hfalse, rfl⟩, hp⟩
    · rintro ⟨s, hs, hp⟩
      obtain ⟨front, on, first, since, hsplit, hon, hfalse, rfl⟩ := falseSince_eq_since.mp hs
      exact ⟨front, on, first, since, hsplit, hon, hfalse, hp⟩
  rw [hdone]
  cases hoff : falseSince (history ++ [x]) with
  | never => simp [(hstate.never hoff).1]
  | on => simp [(hstate.on hoff).1]
  | since s => simp [(hstate.since s hoff).2]

/-- The done bit of a timer says what the history says. -/
theorem done_iff (kind : Kind) (p : Int) {history : List Sample} {x : Sample}
    (h : Ordered (history ++ [x])) :
    (after kind p (history ++ [x])).dn = true ↔ Done kind p x.time (history ++ [x]) := by
  cases kind with
  | ton => exact ton_done_iff p h
  | tof => exact tof_done_iff p h

/-! ## Scans of a program -/

/-- One scan: its time, the rungs that run in it and the variables it finds. -/
structure Scan (V : Type) where
  now : Int
  rungs : List (List Element)
  vars : V

/-- What is seen of a ladder engine: what a scan does, which instructions run in it with which
conditions, and the timers. -/
structure Engine (σ V : Type) where
  scan : Scan V → σ → σ
  trace : Scan V → σ → List (Instr × Bool)
  timers : σ → GoMap String TimerState
  /-- The duration of a preset. -/
  duration : Int → Int

variable {σ V α F64 : Type}

def library : Engine State (Variables α) where
  scan c s := (Ladder.scan c.rungs c.now s c.vars).1
  trace c s := (evalRungs (traced (Ladder.evaluate c.now)) c.rungs (Ladder.copyIn c.vars s, [])).2
  timers s := s.timers
  duration p := p

/-- The arguments of a call of `rung` in the order in which they run. -/
def sorted (args : List Element) : List Element :=
  args.filter LadderEngine.isCondition ++ args.filter fun e => !LadderEngine.isCondition e

def engine [GoFloat64 F64] [GoFloat64OfInt F64] : Engine (EngineState F64) (VariableStore F64) where
  scan c s := LadderEngine.execute c.now c.rungs { s with vars := c.vars }
  trace c s := (evalRungs (traced (LadderEngine.evaluateElement c.now)) (c.rungs.map sorted)
    ({ s with vars := c.vars }, [])).2
  timers s := s.timers
  duration p := durationMs p

/-- The instruction runs or resets the timer `tag`. -/
def acts (tag : String) (x : Instr × Bool) : Bool :=
  match x.1 with
  | .ton t _ => t == tag
  | .tof t _ => t == tag
  | .res t => t == tag && x.2
  | _ => false

namespace Engine

def run (m : Engine σ V) (scans : List (Scan V)) (s : σ) : σ :=
  scans.foldl (fun s c => m.scan c s) s

/-- What the scan does to the timer. -/
def acting (m : Engine σ V) (tag : String) (c : Scan V) (s : σ) : List (Instr × Bool) :=
  (m.trace c s).filter (acts tag)

/-- In each scan the timer is evaluated once, by the instruction, and it is not reset. -/
def EvaluatedOnce (m : Engine σ V) (tag : String) (i : Instr) : List (Scan V) → σ → Prop
  | [], _ => True
  | c :: scans, s =>
    (m.acting tag c s).map Prod.fst = [i] ∧ EvaluatedOnce m tag i scans (m.scan c s)

/-- The times of the scans and the conditions with which the timer is evaluated in them. -/
def history (m : Engine σ V) (tag : String) : List (Scan V) → σ → List Sample
  | [], _ => []
  | c :: scans, s =>
    ((m.acting tag c s).map fun x => ⟨c.now, x.2⟩) ++ history m tag scans (m.scan c s)

end Engine

def Kind.instr : Kind → String → Int → Instr
  | .ton => .ton
  | .tof => .tof

/-- What an instruction that acts on a timer makes of it. -/
def effect (duration : Int → Int) (now : Int) (o : Option TimerState) (x : Instr × Bool) :
    Option TimerState :=
  match x.1 with
  | .ton _ preset => some ((o.getD { preset := duration preset }).ton x.2 now)
  | .tof _ preset => some ((o.getD { preset := duration preset }).tof x.2 now)
  | .res _ => o.map TimerState.reset
  | _ => o

/-- Nothing but the instructions that act on a timer changes it. -/
def Engine.Lawful (m : Engine σ V) : Prop :=
  ∀ c s tag, (m.timers (m.scan c s)).lookup tag =
    (m.acting tag c s).foldl (effect m.duration c.now) ((m.timers s).lookup tag)

/-- The timer of one tag is replaced by a function of itself. -/
theorem lookup_replace (timers : GoMap String TimerState) (t tag : String)
    (g : Option TimerState → TimerState) :
    (timers.insert t (g (timers.lookup t))).lookup tag =
      if t == tag then some (g (timers.lookup tag)) else timers.lookup tag := by
  by_cases ht : t = tag
  · subst ht
    rw [AList.lookup_insert, if_pos (beq_self_eq_true t)]
  · rw [AList.lookup_insert_ne (Ne.symm ht), if_neg (by simpa using ht)]

/-- A reset replaces a timer that there is. -/
theorem lookup_reset (timers : GoMap String TimerState) {timers' : GoMap String TimerState}
    {t : String}
    (hnone : timers.lookup t = none → timers' = timers)
    (hsome : ∀ x, timers.lookup t = some x → timers' = timers.insert t x.reset) (tag : String) :
    timers'.lookup tag =
      if t == tag then (timers.lookup tag).map TimerState.reset else timers.lookup tag := by
  by_cases ht : t = tag
  · subst ht
    cases hlookup : timers.lookup t with
    | none => simp [hnone hlookup, hlookup]
    | some x => simp [hsome x hlookup]
  · rw [if_neg (by simpa using ht)]
    cases hlookup : timers.lookup t with
    | none => rw [hnone hlookup]
    | some x => rw [hsome x hlookup, AList.lookup_insert_ne (Ne.symm ht)]

/-- An instruction moves the timer of its own tag only. -/
theorem evaluate_timer (now : Int) (tag : String) (i : Instr) (b : Bool) (s : State) :
    (Ladder.evaluate now i b s).2.timers.lookup tag =
      if acts tag (i, b) then effect (fun p => p) now (s.timers.lookup tag) (i, b)
      else s.timers.lookup tag := by
  cases i with
  | ton t preset =>
    exact lookup_replace s.timers t tag fun o => (o.getD { preset := preset }).ton b now
  | tof t preset =>
    exact lookup_replace s.timers t tag fun o => (o.getD { preset := preset }).tof b now
  | res t =>
    cases b with
    | false => simp [Ladder.evaluate, acts]
    | true =>
      have hcounter : (s.resetCounter t).timers = s.timers := by
        unfold State.resetCounter
        split <;> rfl
      have hreset : ((s.resetCounter t).resetTimer t).timers.lookup tag = _ :=
        lookup_reset (t := t) (s.resetCounter t).timers
          (fun h => by simp [State.resetTimer, h])
          (fun x h => by simp [State.resetTimer, h, State.setTimer]) tag
      rw [hcounter] at hreset
      simp only [acts, Bool.and_true]
      exact hreset
  | otl t => cases b <;> rfl
  | otu t => cases b <;> rfl
  | no t => rfl
  | nc t => rfl
  | ote t => rfl
  | ctu t preset => rfl
  | ctd t preset => rfl

/-- The library is an engine in the sense of these theorems. -/
theorem library_lawful : (library (α := α)).Lawful := by
  intro c s tag
  have h := evalRungs_traced (g := fun s : State => s.timers.lookup tag)
    (E := fun o x => if acts tag x then effect (fun p => p) c.now o x else o)
    (fun i b s => evaluate_timer c.now tag i b s) c.rungs (Ladder.copyIn c.vars s)
  simp only [(Ladder.copyIn_tags c.vars s).2.1] at h
  rw [Engine.acting, List.foldl_filter]
  exact h

section

variable [GoFloat64 F64] [GoFloat64OfInt F64]

theorem evaluateElement_timer (now : Int) (tag : String) (i : Instr) (b : Bool)
    (s : EngineState F64) :
    (LadderEngine.evaluateElement now i b s).2.timers.lookup tag =
      if acts tag (i, b) then effect durationMs now (s.timers.lookup tag) (i, b)
      else s.timers.lookup tag := by
  cases i with
  | ton t preset =>
    exact lookup_replace s.timers t tag fun o => (o.getD { preset := durationMs preset }).ton b now
  | tof t preset =>
    exact lookup_replace s.timers t tag fun o => (o.getD { preset := durationMs preset }).tof b now
  | res t =>
    cases b with
    | false => simp [LadderEngine.evaluateElement, acts]
    | true =>
      have hcounter : (s.resetCounter t now).timers = s.timers := by
        unfold EngineState.resetCounter
        split <;> rfl
      have hreset : ((s.resetCounter t now).resetTimer t now).timers.lookup tag = _ :=
        lookup_reset (t := t) (s.resetCounter t now).timers
          (fun h => by simp [EngineState.resetTimer, h])
          (fun x h => by simp [EngineState.resetTimer, h, EngineState.publish, EngineState.setVar])
          tag
      rw [hcounter] at hreset
      simp only [acts, Bool.and_true]
      exact hreset
  | otl t => cases b <;> rfl
  | otu t => cases b <;> rfl
  | no t => rfl
  | nc t => rfl
  | ote t => rfl
  | ctu t preset => rfl
  | ctd t preset => rfl

/-- A scan of the engine evaluates the sorted rungs in series. -/
theorem execute_eq (now : Int) (rungs : List (List Element)) (s : EngineState F64) :
    LadderEngine.execute now rungs s =
      evalRungs (LadderEngine.evaluateElement now) (rungs.map sorted) s := by
  unfold LadderEngine.execute evalRungs
  rw [List.foldl_map]
  congr 1
  funext s args
  rw [LadderEngine.builtinRung, sorted, evalSeries_append]

theorem engine_lawful : (engine : Engine (EngineState F64) (VariableStore F64)).Lawful := by
  intro c s tag
  have h := evalRungs_traced (g := fun s : EngineState F64 => s.timers.lookup tag)
    (E := fun o x => if acts tag x then effect durationMs c.now o x else o)
    (fun i b s => evaluateElement_timer c.now tag i b s) (c.rungs.map sorted)
    { s with vars := c.vars }
  rw [Engine.acting, List.foldl_filter]
  exact (congrArg (fun s : EngineState F64 => s.timers.lookup tag) (execute_eq _ _ _)).trans h

end

/-! ## Runs -/

section Run

variable {m : Engine σ V} {tag : String} {kind : Kind} {preset : Int}

/-- Over the scans the timer goes through its history. -/
theorem run_timer (hm : m.Lawful) {scans : List (Scan V)} {s : σ}
    (honce : m.EvaluatedOnce tag (kind.instr tag preset) scans s) {t : TimerState}
    (ht : ((m.timers s).lookup tag).getD { preset := m.duration preset } = t) :
    ((m.timers (m.run scans s)).lookup tag).getD { preset := m.duration preset } =
      (m.history tag scans s).foldl (TimerState.tick kind) t := by
  induction scans generalizing s t with
  | nil => exact ht
  | cons c scans ih =>
    obtain ⟨hone, hrest⟩ := honce
    obtain ⟨⟨i, b⟩, hacting, hi⟩ := List.map_eq_singleton_iff.mp hone
    simp only at hi
    subst hi
    rw [Engine.history, hacting, List.map_singleton, List.singleton_append, List.foldl_cons]
    refine ih hrest ?_
    rw [hm c s tag, hacting]
    subst ht
    cases kind with
    | ton => rfl
    | tof => rfl

/-- An instruction that is evaluated once a scan has a sample for each scan. -/
theorem history_times {scans : List (Scan V)} {s : σ} {i : Instr}
    (honce : m.EvaluatedOnce tag i scans s) :
    (m.history tag scans s).map Sample.time = scans.map Scan.now := by
  induction scans generalizing s with
  | nil => rfl
  | cons c scans ih =>
    obtain ⟨hone, hrest⟩ := honce
    obtain ⟨x, hacting, -⟩ := List.map_eq_singleton_iff.mp hone
    simp [Engine.history, hacting, ih hrest]

/-- The history of the scans, and of one more. -/
theorem done_run (hm : m.Lawful) {s : σ} (hnew : (m.timers s).lookup tag = none)
    {scans : List (Scan V)} {c : Scan V}
    (honce : m.EvaluatedOnce tag (kind.instr tag preset) (scans ++ [c]) s)
    (htimes : (scans ++ [c]).Pairwise fun c d => c.now ≤ d.now) :
    (∃ timer, (m.timers (m.run (scans ++ [c]) s)).lookup tag = some timer ∧ timer.dn = true) ↔
      Done kind (m.duration preset) c.now (m.history tag (scans ++ [c]) s) := by
  have htimer := run_timer hm honce (t := { preset := m.duration preset }) (by rw [hnew]; rfl)
  have hmap := history_times honce
  obtain ⟨front, x, hhistory⟩ : ∃ front x, m.history tag (scans ++ [c]) s = front ++ [x] := by
    obtain hnil | hconcat := List.eq_nil_or_concat (m.history tag (scans ++ [c]) s)
    · simp [hnil] at hmap
    · simpa using hconcat
  have hx : x.time = c.now := by
    rw [hhistory, List.map_append, List.map_append] at hmap
    exact List.singleton_inj.mp (List.append_inj' hmap rfl).2
  have hordered : Ordered (front ++ [x]) := by
    rw [Ordered, ← hhistory, ← List.pairwise_map (f := Sample.time) (R := (· ≤ ·)), hmap,
      List.pairwise_map]
    exact htimes
  rw [hhistory] at htimer ⊢
  rw [← hx, ← done_iff kind _ hordered, after, ← htimer]
  cases (m.timers (m.run (scans ++ [c]) s)).lookup tag <;> simp

end Run

/-- In both engines, after each scan of a timer that one instruction evaluates once in each
scan: an on-delay timer is done if and only if its rung is true and has been true in every scan
since one that is the preset ago; an off-delay timer, if and only if its rung is true, or has been
true and the first false scan after that is less than the preset ago. -/
theorem timers_done_iff [GoFloat64 F64] [GoFloat64OfInt F64] (kind : Kind) (tag : String)
    (preset : Int) :
    (∀ (s : State) (scans : List (Scan (Variables α))) (c : Scan (Variables α)),
      s.timers.lookup tag = none →
      library.EvaluatedOnce tag (kind.instr tag preset) (scans ++ [c]) s →
      (scans ++ [c]).Pairwise (fun c d => c.now ≤ d.now) →
      ((∃ timer, (library.run (scans ++ [c]) s).timers.lookup tag = some timer ∧ timer.dn = true) ↔
        Done kind preset c.now (library.history tag (scans ++ [c]) s))) ∧
    ∀ (s : EngineState F64) (scans : List (Scan (VariableStore F64)))
      (c : Scan (VariableStore F64)),
      s.timers.lookup tag = none →
      engine.EvaluatedOnce tag (kind.instr tag preset) (scans ++ [c]) s →
      (scans ++ [c]).Pairwise (fun c d => c.now ≤ d.now) →
      ((∃ timer, (engine.run (scans ++ [c]) s).timers.lookup tag = some timer ∧ timer.dn = true) ↔
        Done kind (durationMs preset) c.now (engine.history tag (scans ++ [c]) s)) :=
  ⟨fun _ _ _ hnew honce htimes => done_run library_lawful hnew honce htimes,
    fun _ _ _ hnew honce htimes => done_run engine_lawful hnew honce htimes⟩

/-- A scan of an on-delay timer behind a switch. -/
def switchScan (vars : V) (now : Int) : Scan V :=
  ⟨now, [[.leaf (.no "switch"), .leaf (.ton "t" 5)]], vars⟩

/-- The switch is on, for the library and for the engine. -/
def switchTag : Variables ℚ := AList.singleton "switch" ⟨.bool true, "boolean"⟩

def switchVar : VariableStore ℚ :=
  AList.singleton "switch" ⟨"", "boolean", "internal", .bool true, "good", 0, false⟩

/-- The preset is five nanoseconds in the library and five milliseconds in the engine. -/
theorem timers_done_iff_switch :
    (∃ timer, (library.run [switchScan switchTag 0, switchScan switchTag 3, switchScan switchTag 7]
      {}).timers.lookup "t" = some timer ∧ timer.dn = true) ∧
    ∃ timer, (engine.run [switchScan switchVar 0, switchScan switchVar 7000000]
      { vars := ∅ }).timers.lookup "t" = some timer ∧ timer.dn = true := by
  obtain ⟨hlibrary, hengine⟩ := @timers_done_iff ℚ ℚ _ _ .ton "t" 5
  constructor
  · refine (hlibrary {} [switchScan switchTag 0, switchScan switchTag 3] (switchScan switchTag 7)
      rfl ⟨by decide +kernel, by decide +kernel, by decide +kernel, trivial⟩
      (by simp [switchScan])).mpr ?_
    exact ⟨[], ⟨0, true⟩, [⟨3, true⟩, ⟨7, true⟩], by decide +kernel, by decide, by decide⟩
  · refine (hengine { vars := ∅ } [switchScan switchVar 0] (switchScan switchVar 7000000)
      rfl ⟨by decide +kernel, by decide +kernel, trivial⟩ (by simp [switchScan])).mpr ?_
    exact ⟨[], ⟨0, true⟩, [⟨7000000, true⟩], by decide +kernel, by decide, by decide⟩

end LadderTimers
