import Tentacle.StBlocks
import Tentacle.StReading
import Tentacle.StarlarkRuntime

/-!
# Structured Text: FOR loops

The generated loop goes over `range(start, end + 1, step)`. With a negative step that stops two
short of the end, and in the body the loop variable is read from the store, which the loop never
writes. A loop variable that Starlark reserves makes the whole text unreadable.
-/

namespace StLoops
open StSyntax StRender StCodegen StReading StarlarkRuntime GoValues PlcVariables BlockScript
open IndentedLines StBlocks
open Starlark (Tree Words)

/-! ## The values of the loop variable -/

def iecLength (start stop step : Int) : Nat :=
  if 0 < step then ((stop - start) / step + 1).toNat else ((start - stop) / -step + 1).toNat

/-- The sequence goes on as long as the end is not passed. -/
theorem lt_iecLength_iff {start stop step : Int} (hstep : step ≠ 0) (i : Nat) :
    i < iecLength start stop step ↔
      if 0 < step then start + i * step ≤ stop else stop ≤ start + i * step := by
  unfold iecLength
  split
  · rename_i h
    have hdiv : (i : Int) ≤ (stop - start) / step ↔ i * step ≤ stop - start :=
      Int.le_ediv_iff_mul_le h
    omega
  · rename_i h
    have hpos : 0 < -step := by omega
    have hdiv : (i : Int) ≤ (start - stop) / -step ↔ i * -step ≤ start - stop :=
      Int.le_ediv_iff_mul_le hpos
    have hneg : (i : Int) * -step = -(i * step) := Int.mul_neg _ _
    omega

/-- The step goes up, or no value of the loop is the end or one above it. -/
def covers (start stop step : Int) : Prop :=
  0 < step ∨ start < stop ∨ 2 ≤ (start - stop) % -step

section Loops

variable {F64 O : Type} [GoFloat64 F64] [GoFloat64OfInt F64] [GoQuote] [Runtime F64 O] [Words]
variable {C : Context}

/-- A whole number, as Starlark or as the store has it. -/
def IsNumber (n : Int) (w : Value F64 O) : Prop :=
  w = .int n ∨ w = .float (GoFloat64OfInt.float64 n)

variable (C) in
def Evaluates (e : Expression) (f : Frame F64) (w : Value F64 O) (f' : Frame F64) : Prop :=
  evalText C (expr e) f = (.ok w, f')

theorem evalText_expr {e : Expression} (hw : exprWellFormed e = true) {t : Tree}
    (ht : reading e = some t) (f : Frame F64) :
    evalText C (expr e) f = (eval C t : Run F64 (Value F64 O)) f := by
  rw [evalText, read_expr hw, ht]

/-- An expression that evaluates is read back as the tree that does. -/
theorem Evaluates.reading {e : Expression} (hw : exprWellFormed e = true) {f f' : Frame F64}
    {w : Value F64 O} (h : Evaluates C e f w f') :
    ∃ t, reading e = some t ∧ eval C t f = (.ok w, f') := by
  unfold Evaluates evalText at h
  rw [read_expr hw] at h
  cases ht : StReading.reading e with
  | none =>
    rw [ht] at h
    cases h
  | some t =>
    rw [ht] at h
    exact ⟨t, rfl, h⟩

/-- What has a number as its value is no NOT. -/
theorem Evaluates.isNot {e : Expression} (hw : exprWellFormed e = true) {f f' : Frame F64}
    {w : Value F64 O} {n : Int} (h : Evaluates C e f w f') (hn : IsNumber n w) :
    isNot e = false := by
  obtain ⟨t, ht, heval⟩ := h.reading hw
  cases e with
  | unaryExpr op operand =>
    cases op with
    | not =>
      simp only [StReading.reading, Option.bind_eq_bind, Option.bind_eq_some_iff] at ht
      obtain ⟨x, -, ht⟩ := ht
      cases ht
      rw [eval, Action.bind_apply] at heval
      cases hx : (eval C x : Run F64 (Value F64 O)) f with
      | mk r f'' =>
        rw [hx] at heval
        cases r with
        | error e => cases heval
        | ok v =>
          cases heval
          rcases hn with hn | hn <;> cases hn
    | minus => rfl
  | _ => rfl

/-- The arguments of the generated `range`. -/
def rangeArgs (start stop : Expression) (step : Option Expression) : List Text :=
  expr start :: (expr stop ++ " + 1".toList) :: stepArgs step

/-- Starlark takes the text, the loop goes over the values, and wherever the store still has for the
loop variable what it had when the loop began, reading the variable in the body gives the value it
is at. -/
structure LoopRight (O : Type) [Runtime F64 O] (C : Context) (var : Text) (start stop : Expression)
    (step : Option Expression) (body : List Statement) (f f' : Frame F64) (values : List Int) :
    Prop where
  accepted : readable (stmt (.forStmt var start stop step body)) = true
  structured : BlockStructured role (layout 0 (stmt (.forStmt var start stop step body)))
  ranges : (machine O C).range var (rangeArgs start stop step) f = (.ok values, f')
  runs : exec (machine O C) (stmt (.forStmt var start stop step body)) f =
    iterate (fun n g => execBlock (machine O C) (orPass (block body)) (g.bind var n)) values f'
  reads : ∀ n ∈ values, ∀ g : Frame F64, VariableStore.get g.engine.vars (key var) =
      VariableStore.get f'.engine.vars (key var) →
    ∃ w : Value F64 O, Evaluates C (.identExpr var) (g.bind var n) w (g.bind var n) ∧ IsNumber n w

/-- In a loop whose body does not assign the loop variable, each iteration reads its own value. -/
theorem LoopRight.reads_started {var : Text} {start stop : Expression} {step : Option Expression}
    {body : List Statement} {f f' : Frame F64} {values : List Int}
    (h : LoopRight O C var start stop step body f f' values) {v : Json F64}
    (hv : VariableStore.get f'.engine.vars (key var) = v)
    (hbody : BlockKeeps (machine O C)
      (fun g => VariableStore.get g.engine.vars (key var) = v) (orPass (block body)))
    {n : Int} {g : Frame F64}
    (hstart : Starts (fun n g => execBlock (machine O C) (orPass (block body)) (g.bind var n))
      values f' n g) :
    ∃ w : Value F64 O, Evaluates C (.identExpr var) (g.bind var n) w (g.bind var n) ∧
      IsNumber n w := by
  have hkeeps : ∀ n, Action.Keeps (fun g : Frame F64 => VariableStore.get g.engine.vars (key var) = v)
      (fun g => execBlock (machine O C) (orPass (block body)) (g.bind var n)) :=
    fun n g hg => keeps_execBlock _ hbody _ hg
  obtain ⟨hmem, hg⟩ := hstart.keeps hkeeps hv
  exact h.reads n hmem g (hg.trans hv.symm)

theorem evaluates_numberLit {value : Text} (h : isNumber value = true) {w : Value F64 O}
    (hw : Runtime.literal value = some w) (f : Frame F64) : Evaluates C (.numberLit value) f w f := by
  have hreading : reading (.numberLit value) = some (.literal value) := rfl
  rw [Evaluates, evalText_expr (e := .numberLit value) h hreading, eval, hw]
  rfl

end Loops

/-! ## A loop that goes down -/

def digitLit (d : Char) : Expression := .numberLit [d]

end StLoops
