import Tentacle.LadderEngine
import Tentacle.StCodegen
import Tentacle.Starlark

/-!
# Running generated Starlark in the PLC engine

Values, the conversions between them and the values of PLC variables, the evaluation of expressions
and the entry function of a program. What the built-in functions other than `get_var`, `set_var` and
`range` do is left open, as is arithmetic.
-/

namespace StarlarkRuntime
open StSyntax StCodegen GoValues PlcVariables LadderEngine BlockScript
open Starlark (Tree Binop Words)

inductive Value (F64 O : Type) where
  | none
  | bool (b : Bool)
  | int (n : Int)
  | float (x : F64)
  | string (s : Text)
  /-- Lists, functions and the elements of a rung. -/
  | other (o : O)

inductive RunError where
  | invalidSyntax
  | unboundLocal (name : Text)
  | notCallable (name : Text)
  | badArguments (name : Text)
  | unknownVariable (name : Text)
  | failed (msg : Text)

variable {F64 O : Type}

/-- A name as the key of a variable. -/
def key (name : Text) : String := String.ofList name

/-- The parts of Starlark and of the engine's built-in functions that a program's effect on the
variables does not depend on. -/
class Runtime (F64 O : Type) [GoQuote] where
  literal : Text → Option (Value F64 O)
  neg : Value F64 O → Except RunError (Value F64 O)
  binary : Binop → Value F64 O → Value F64 O → Except RunError (Value F64 O)
  truthOther : O → Bool
  constant : Text → Option (Value F64 O)
  builtin : Text → List (Value F64 O) → Action (EngineState F64) RunError (Value F64 O)
  otherToGo : O → Json F64
  /-- `fmt.Sprintf("%v", _)` -/
  sprint : Json F64 → Text
  literal_quote : ∀ s, literal (quote s) = some (.string s)
  literal_digits : ∀ n : Nat, literal (Nat.toDigits 10 n) = some (.int n)
  add_int : ∀ m n : Int, binary .add (.int m) (.int n) = .ok (.int (m + n))
  add_float : ∀ (x : F64) (n : Int), ∃ y, binary .add (.float x) (.int n) = .ok (.float y)

/-! A runtime with numbers and texts in ASCII. -/

def asciiLiteral : Text → Option (Value ℚ Empty)
  | '"' :: s => some (.string (unescapeAscii s.dropLast))
  | s => if s ≠ [] ∧ s.all isDigit then some (.int (digitsValue s)) else none

theorem asciiLiteral_digits (n : Nat) : asciiLiteral (Nat.toDigits 10 n) = some (.int n) := by
  have hne : Nat.toDigits 10 n ≠ [] := Nat.toDigits_ne_nil
  have hall : (Nat.toDigits 10 n).all isDigit = true := by
    rw [List.all_eq_true]
    intro c hc
    exact Nat.isDigit_of_mem_toDigits (by omega) (by omega) hc
  have hvalue := digitsValue_toDigits n
  unfold asciiLiteral
  split
  · rename_i s hs
    rw [hs] at hall
    exact absurd hall (by simp [isDigit])
  · rw [if_pos ⟨hne, hall⟩, hvalue]

def asciiBinary : Binop → Value ℚ Empty → Value ℚ Empty → Except RunError (Value ℚ Empty)
  | .add, .int m, .int n => .ok (.int (m + n))
  | .add, .float x, .int n => .ok (.float (x + n))
  | .sub, .int m, .int n => .ok (.int (m - n))
  | .mul, .int m, .int n => .ok (.int (m * n))
  | .eq, .none, .none => .ok (.bool true)
  | .eq, .bool b, .bool c => .ok (.bool (b == c))
  | .eq, .int m, .int n => .ok (.bool (m == n))
  | .eq, .int m, .float x => .ok (.bool ((m : ℚ) == x))
  | .eq, .float x, .int n => .ok (.bool (x == (n : ℚ)))
  | .eq, .float x, .float y => .ok (.bool (x == y))
  | .eq, .string s, .string t => .ok (.bool (s == t))
  | .eq, _, _ => .ok (.bool false)
  | _, _, _ => .error (.failed [])

def asciiNeg : Value ℚ Empty → Except RunError (Value ℚ Empty)
  | .int n => .ok (.int (-n))
  | .float x => .ok (.float (-x))
  | _ => .error (.failed [])

def asciiConstant (w : Text) : Option (Value ℚ Empty) :=
  if w = boolWord true then some (.bool true)
  else if w = boolWord false then some (.bool false)
  else none

@[reducible] def asciiRuntime : @Runtime ℚ Empty asciiQuote :=
  letI := asciiQuote
  { literal := asciiLiteral
    neg := asciiNeg
    binary := asciiBinary
    truthOther := Empty.elim
    constant := asciiConstant
    builtin := fun _ _ => Action.fail (.failed [])
    otherToGo := Empty.elim
    sprint := fun _ => []
    literal_quote := by
      intro s
      simp only [quote, asciiLiteral]
      rw [List.dropLast_concat, unescapeAscii_flatMap]
    literal_digits := asciiLiteral_digits
    add_int := fun _ _ => rfl
    add_float := fun _ _ => ⟨_, rfl⟩ }

def inInt64 (n : Int) : Prop := -2 ^ 63 ≤ n ∧ n < 2 ^ 63

instance (n : Int) : Decidable (inInt64 n) := inferInstanceAs (Decidable (_ ∧ _))

section Conversions

variable [GoFloat64 F64] [GoFloat64OfInt F64] [GoQuote] [Runtime F64 O]

def goToStarlark : Json F64 → Value F64 O
  | .null => .none
  | .bool b => .bool b
  | .number x => .float x
  | .string s => .string s.toList
  | v => .string (Runtime.sprint O v)

/-- Numbers become `float64`. -/
def starlarkToGo : Value F64 O → Json F64
  | .none => .null
  | .bool b => .bool b
  | .float x => .number x
  | .int n => .number (if inInt64 n then GoFloat64OfInt.float64 n else GoFloat64.zero)
  | .string s => .string (key s)
  | .other o => Runtime.otherToGo o

def truth : Value F64 O → Bool
  | .none => false
  | .bool b => b
  | .int n => n ≠ 0
  | .float x => !GoFloat64.eq x GoFloat64.zero
  | .string s => s ≠ []
  | .other o => Runtime.truthOther F64 o

end Conversions

/-! ## Expressions -/

/-- The state of a call: the engine's, and the local variables that have a value. -/
structure Frame (F64 : Type) where
  engine : EngineState F64
  locals : Text → Option Int

/-- The function that runs: the names that are local to it, and the time of the scan. -/
structure Context where
  isLocal : Text → Bool
  now : Int

abbrev Run (F64 α : Type) := Action (Frame F64) RunError α

def lift {α : Type} (r : Except RunError α) : Run F64 α := fun f => (r, f)

/-- An action of the engine's part of the state. -/
def onEngine {α : Type} (x : Action (EngineState F64) RunError α) : Run F64 α := fun f =>
  ((x f.engine).1, { f with engine := (x f.engine).2 })

def rangeWord : Text := "range".toList

section Eval

variable [GoFloat64 F64] [GoFloat64OfInt F64] [GoQuote] [Runtime F64 O] (C : Context)

def builtinGetVar (name : Text) : Run F64 (Value F64 O) := fun f =>
  (.ok (goToStarlark (VariableStore.get f.engine.vars (key name))), f)

def builtinSetVar (name : Text) (value : Value F64 O) : Run F64 (Value F64 O) := fun f =>
  match VariableStore.set f.engine.vars (key name) (starlarkToGo value) C.now with
  | (vars, true) => (.ok .none, { f with engine := { f.engine with vars := vars } })
  | (_, false) => (.error (.unknownVariable name), f)

def readName (w : Text) : Run F64 (Value F64 O) := fun f =>
  if C.isLocal w then
    match f.locals w with
    | some n => (.ok (.int n), f)
    | none => (.error (.unboundLocal w), f)
  else
    match Runtime.constant w with
    | some v => (.ok v, f)
    | none => (.error (.unboundLocal w), f)

def callFunction (name : Text) (args : List (Value F64 O)) : Run F64 (Value F64 O) :=
  if name = getVarWord then
    match args with
    | [.string id] => builtinGetVar id
    | _ => Action.fail (.badArguments name)
  else if name = setVarWord then
    match args with
    | [.string id, value] => builtinSetVar C id value
    | _ => Action.fail (.badArguments name)
  else onEngine (Runtime.builtin name args)

mutual

def eval : Tree → Run F64 (Value F64 O)
  | .literal s =>
    match Runtime.literal s with
    | some v => pure v
    | none => Action.fail .invalidSyntax
  | .name w => readName C w
  | .call f args =>
    -- a local variable is a number of a range
    if C.isLocal f then Action.fail (.notCallable f)
    else do
      let values ← evalArgs args
      callFunction C f values
  | .neg x => do
    let v ← eval x
    lift (Runtime.neg v)
  | .not x => do
    let v ← eval x
    pure (.bool (!truth v))
  | .binary l op r => do
    let v ← eval l
    match op with
    | .and => if truth v then eval r else pure v
    | .or => if truth v then pure v else eval r
    | op => do
      let w ← eval r
      lift (Runtime.binary op v w)

def evalArgs : List Tree → Run F64 (List (Value F64 O))
  | [] => pure []
  | t :: ts => do
    let v ← eval t
    let vs ← evalArgs ts
    pure (v :: vs)

end

variable [Words]

def evalText (text : Text) : Run F64 (Value F64 O) :=
  match Starlark.read text with
  | some t => eval C t
  | none => Action.fail .invalidSyntax

def evalTexts : List Text → Run F64 (List (Value F64 O))
  | [] => pure []
  | text :: texts => do
    let v ← evalText C text
    let vs ← evalTexts texts
    pure (v :: vs)

end Eval

/-! ## Ranges -/

def rangeLen (start stop step : Int) : Nat :=
  if 0 < step then if start < stop then ((stop - 1 - start) / step + 1).toNat else 0
  else if stop < start then ((start - 1 - stop) / -step + 1).toNat else 0

def rangeList (start stop step : Int) : List Int :=
  (List.range (rangeLen start stop step)).map fun i => start + i * step

/-- The numbers of `range(start, stop, step)`, whose arguments are of Go's type `int`. -/
def rangeOf (start stop step : Int) : Except RunError (List Int) :=
  if inInt64 start ∧ inInt64 stop ∧ inInt64 step ∧ step ≠ 0 then .ok (rangeList start stop step)
  else .error (.badArguments rangeWord)

def rangeValues : List (Value F64 O) → Except RunError (List Int)
  | [.int stop] => rangeOf 0 stop 1
  | [.int start, .int stop] => rangeOf start stop 1
  | [.int start, .int stop, .int step] => rangeOf start stop step
  | _ => .error (.badArguments rangeWord)

/-! ## Programs -/

section Programs

variable [GoFloat64 F64] [GoFloat64OfInt F64] [GoQuote] [Words]

def Frame.bind (f : Frame F64) (var : Text) (n : Int) : Frame F64 :=
  { f with locals := fun w => if w = var then some n else f.locals w }

variable (O) in
def machine [Runtime F64 O] (C : Context) : Machine Text Text (Frame F64) RunError where
  effect text := do
    let _ ← (evalText C text : Run F64 (Value F64 O))
    pure ()
  test text := do
    let v ← (evalText C text : Run F64 (Value F64 O))
    pure (truth v)
  range var args :=
    if Words.reserved var then Action.fail .invalidSyntax
    else if C.isLocal rangeWord then Action.fail (.notCallable rangeWord)
    else do
      let vs ← (evalTexts C args : Run F64 (List (Value F64 O)))
      lift (rangeValues vs)
  bind var n f := f.bind var n

mutual

/-- The names that the statements of a function make local to it. -/
def assigned : Code → List Text
  | .if_ clauses elseBody => assignedClauses clauses ++ assignedBlock elseBody
  | .forRange var _ body => var :: assignedBlock body
  | _ => []

def assignedClauses : List (Clause Text Text) → List Text
  | [] => []
  | .mk _ body :: clauses => assignedBlock body ++ assignedClauses clauses

def assignedBlock : List Code → List Text
  | [] => []
  | s :: body => assigned s ++ assignedBlock body

end

mutual

/-- Starlark's parser takes the statement: it can read the expressions, and no loop variable is a
reserved word. -/
def readable : Code → Bool
  | .effect e => (Starlark.read e).isSome
  | .if_ clauses elseBody => readableClauses clauses && readableBlock elseBody
  | .forRange var args body =>
    !Words.reserved var && args.all (fun e => (Starlark.read e).isSome) && readableBlock body
  | _ => true

def readableClauses : List (Clause Text Text) → Bool
  | [] => true
  | .mk test body :: clauses =>
    (Starlark.read test).isSome && readableBlock body && readableClauses clauses

def readableBlock : List Code → Bool
  | [] => true
  | s :: body => readable s && readableBlock body

end

omit [GoQuote] in
theorem readableBlock_orPass (body : List Code) :
    readableBlock (orPass body) = readableBlock body := by
  cases body with
  | nil => rfl
  | cons s body => rfl

omit [GoQuote] in
theorem readableBlock_append (first second : List Code) :
    readableBlock (first ++ second) = (readableBlock first && readableBlock second) := by
  induction first with
  | nil => rfl
  | cons s first ih => rw [List.cons_append, readableBlock, ih, readableBlock, Bool.and_assoc]

/-- The function `main` of a text, if it has one. Starlark refuses a function without a body, and a
text of which a part cannot be read. -/
def compile (p : Program) : Option (List Code) :=
  if functionName p = mainWord ∧ functionBody p ≠ [] ∧ readableBlock (functionBody p) = true then
    some (functionBody p)
  else none

def context (body : List Code) (now : Int) : Context :=
  ⟨fun w => (assignedBlock body).contains w, now⟩

variable (O) in
/-- `Engine.Execute`: one call of the function. What it did before an error stays. -/
def execute [Runtime F64 O] (body : List Code) (now : Int) (s : EngineState F64) :
    Except RunError Flow × EngineState F64 :=
  let r := execBlock (machine O (context body now)) body ⟨s, fun _ => none⟩
  (r.1, r.2.engine)

end Programs

end StarlarkRuntime
