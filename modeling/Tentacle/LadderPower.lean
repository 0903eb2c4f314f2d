import Tentacle.LadderEngine

/-!
# Power flow

A rung of contacts is read as wiring: its outputs get power exactly if closed contacts lead
from the left rail to them, through one path of each branch on the way. The engine computes
this in one pass over the rung, without looking for a path.
-/

namespace LadderEngine

open GoValues SeriesParallel PlcVariables
open Ladder (Instr)

variable {F64 : Type} [GoFloat64 F64] [GoFloat64OfInt F64]

def isContact : Instr → Bool
  | .no _ => true
  | .nc _ => true
  | _ => false

/-- The contact passes power on in this state. -/
def closed (i : Instr) (s : EngineState F64) : Bool :=
  match i with
  | .no tag => VariableStore.getBool s.vars tag
  | .nc tag => !VariableStore.getBool s.vars tag
  | _ => false

def conditions (args : List LadderElement) : List LadderElement := args.filter isCondition

def outputs (args : List LadderElement) : List LadderElement := args.filter fun e => !isCondition e

/-- The conditions are contacts, however they are nested. -/
def ContactsOnly (args : List LadderElement) : Prop :=
  ∀ i ∈ seriesLeaves (conditions args), isContact i

instance ContactsOnly.decidable (args : List LadderElement) : Decidable (ContactsOnly args) :=
  inferInstanceAs (Decidable (∀ i ∈ seriesLeaves (conditions args), isContact i))

/-- Some route through the conditions has all its contacts closed. -/
def energized (args : List LadderElement) (s : EngineState F64) : Bool :=
  (seriesRoutes (conditions args)).any fun r => r.all (closed · s)

theorem evaluateElement_contact (now : Int) {i : Instr} (h : isContact i) (rungIn : Bool)
    (s : EngineState F64) : evaluateElement now i rungIn s = (rungIn && closed i s, s) := by
  cases i with
  | no tag => rfl
  | nc tag => rfl
  | _ => cases h

/-- A rung passes what its contacts let through to its outputs. -/
theorem builtinRung_energized (now : Int) {args : List LadderElement} (h : ContactsOnly args)
    (s : EngineState F64) :
    builtinRung now args s =
      (evalSeries (evaluateElement now) (outputs args) (energized args s) s).2 := by
  have hcontact : ∀ i ∈ seriesLeaves (conditions args), ∀ b (s : EngineState F64),
      evaluateElement now i b s = (b && closed i s, s) :=
    fun i hi => evaluateElement_contact now (h i hi)
  have hpass := evalSeries_routes (conditions args) hcontact true s
  rw [Bool.true_and] at hpass
  rw [builtinRung, ← conditions, hpass]
  rfl

/-- Coils in a row all get the power of the rung. -/
theorem evalSeries_coils (now : Int) (tags : List String) (b : Bool) (s : EngineState F64)
    {tag : String} (hknown : s.vars.lookup tag ≠ none)
    (h : tag ∈ tags ∨ VariableStore.get s.vars tag = .bool b) :
    VariableStore.get (evalSeries (evaluateElement now)
      (tags.map fun t => .leaf (.ote t)) b s).2.vars tag = .bool b := by
  induction tags generalizing s with
  | nil =>
    rcases h with h | h
    · cases h
    · exact h
  | cons t tags ih =>
    rw [List.map_cons, evalSeries, eval]
    have hset : (evaluateElement now (.ote t) b s).2.vars =
        (VariableStore.set s.vars t (.bool b) (unixMilli now)).1 := rfl
    apply ih
    · rw [hset]
      by_cases ht : tag = t
      · subst ht
        intro hnone
        have hvalue := VariableStore.value_set_self hknown (.bool b) (unixMilli now)
        rw [hnone] at hvalue
        cases hvalue
      · rw [VariableStore.lookup_set_other _ ht]
        exact hknown
    · rw [hset]
      by_cases ht : tag = t
      · subst ht
        right
        have hvalue := VariableStore.value_set_self hknown (.bool b) (unixMilli now)
        obtain ⟨v, hv, hvb⟩ := Option.map_eq_some_iff.mp hvalue
        rw [VariableStore.get, hv, ← hvb]
      · rw [VariableStore.get_set_other _ ht]
        exact h.imp_left fun hmem => (List.mem_cons.mp hmem).resolve_left ht

/-- Whatever rungs come before it and in every state, a rung whose conditions are contacts
evaluates its outputs with power exactly if some route through its conditions has all contacts
closed when the rung is reached; so the coils of a rung of coils are on exactly then. -/
theorem outputs_follow_routes (now : Int) (front : List (List LadderElement))
    (args : List LadderElement) (hcontacts : ContactsOnly args) (s : EngineState F64) :
    execute now (front ++ [args]) s = (evalSeries (evaluateElement now) (outputs args)
        (energized args (execute now front s)) (execute now front s)).2 ∧
      ∀ tags : List String, outputs args = tags.map (fun t => .leaf (.ote t)) → ∀ tag ∈ tags,
        (execute now front s).vars.lookup tag ≠ none →
        VariableStore.getBool (execute now (front ++ [args]) s).vars tag =
          energized args (execute now front s) := by
  have hrung : execute now (front ++ [args]) s = (evalSeries (evaluateElement now) (outputs args)
      (energized args (execute now front s)) (execute now front s)).2 := by
    rw [execute, List.foldl_append, List.foldl_cons, List.foldl_nil]
    exact builtinRung_energized now hcontacts _
  refine ⟨hrung, ?_⟩
  intro tags hcoils tag htag hknown
  rw [hrung, hcoils, VariableStore.getBool, evalSeries_coils now tags _ _ hknown (.inl htag)]

/-- A lamp behind a button and two switches side by side. -/
def lampRung : List LadderElement :=
  [.leaf (.no "button"), .branch [[.leaf (.no "left")], [.leaf (.nc "right")]],
    .leaf (.ote "lamp")]

def lampState : EngineState ℚ where
  vars := (["button", "left", "right", "lamp"].map fun id =>
    ⟨id, { id := id, datatype := "boolean", direction := "internal",
           value := .bool (id = "button") }⟩).toAList

theorem lampRung_follows_routes :
    VariableStore.getBool (execute 0 [lampRung] lampState).vars "lamp" =
      energized lampRung lampState ∧ energized lampRung lampState = true := by
  have hlamp := (outputs_follow_routes 0 [] lampRung (by decide) lampState).2
    ["lamp"] rfl "lamp" (by decide) (by decide)
  exact ⟨hlamp, by decide⟩

end LadderEngine
