import Tentacle.StLoops

/-!
# Structured Text: variables across scans

The task runner calls the generated function once per scan, and the function starts with the
initial values of the declared variables. A variable is therefore set back at each scan, unless it
still has its initial value.
-/

namespace StScans
open StSyntax StRender StCodegen StReading StarlarkRuntime StLoops GoValues PlcVariables
open BlockScript
open LadderEngine (EngineState)
open Starlark (Words)

section Scans

variable {F64 O : Type} [GoFloat64 F64] [GoFloat64OfInt F64] [GoQuote] [Runtime F64 O] [Words]

/-! ## Setting a variable -/

/-- An assignment is read as the call that it is written as. -/
theorem reading_setVar {name : Text} {value : Expression} {t : Starlark.Tree}
    (ht : reading value = some t) :
    reading (.callExpr setVarWord [.stringLit name, value]) =
      some (.call setVarWord [.literal (quote name), t]) := by
  have hname : nameAllowed setVarWord = true := by
    have hsplit : setVarWord.splitOn '.' = [setVarWord] := by decide
    have hreserved : Words.reserved setVarWord = false := Words.set_var_name
    simp [nameAllowed, hsplit, hreserved]
  have hstring : image (.stringLit name) = .literal (quote name) := rfl
  simp [reading, readings, ht, hname, hstring]

omit [GoQuote] [Words] in
theorem setVar_wellFormed {name : Text} {value : Expression}
    (hname : name.all (· ≠ '\'') = true) (hvalue : exprWellFormed value = true) :
    exprWellFormed (.callExpr setVarWord [.stringLit name, value]) = true := by
  have hset : isName setVarWord = true := by decide
  simp only [exprWellFormed, argsWellFormed, hset, hname, hvalue, Bool.and_self]

def setVarText (name : Text) (value : Expression) : Text :=
  expr (.callExpr setVarWord [.stringLit name, value])

/-- The line that sets a variable evaluates the value and calls the built-in function. -/
theorem effect_setVar {C : Context} {name : Text} {value : Expression}
    (hname : name.all (· ≠ '\'') = true) (hvalue : exprWellFormed value = true)
    (hlocal : C.isLocal setVarWord = false) (f : Frame F64) :
    (machine O C).effect (setVarText name value) f = (do
      let w ← (evalText C (expr value) : Run F64 (Value F64 O))
      let _ ← builtinSetVar C name w
      pure () : Run F64 Unit) f := by
  have hw := setVar_wellFormed hname hvalue
  have hliteral : Runtime.literal (quote name) = some (.string name : Value F64 O) :=
    Runtime.literal_quote name
  simp only [machine, setVarText, Action.bind_apply]
  cases ht : reading value with
  | none =>
    have hcall : reading (.callExpr setVarWord [.stringLit name, value]) = none := by
      simp [reading, readings, ht]
    rw [evalText, read_expr hw, hcall, evalText, read_expr hvalue, ht]
    rfl
  | some t =>
    rw [evalText_expr hw (reading_setVar ht), evalText_expr hvalue ht, eval, hlocal]
    have hne : setVarWord ≠ getVarWord := by decide
    simp only [Bool.false_eq_true, if_false, evalArgs, eval, hliteral, Action.bind_apply,
      Action.pure_apply, Action.andThen_ok, callFunction, if_neg hne, if_true]
    cases (eval C t : Run F64 (Value F64 O)) f with
    | mk r f' =>
      cases r with
      | error e => rfl
      | ok w => simp only [Action.andThen_ok, Action.pure_apply, Action.bind_apply]

/-- In a function with a local variable of that name the line fails. -/
theorem effect_setVar_local {C : Context} {name : Text} {value : Expression}
    (hname : name.all (· ≠ '\'') = true) (hvalue : exprWellFormed value = true)
    (hlocal : C.isLocal setVarWord = true) (f : Frame F64) :
    ((machine O C).effect (setVarText name value) f).2 = f := by
  have hw := setVar_wellFormed hname hvalue
  simp only [machine, setVarText, Action.bind_apply]
  cases ht : reading value with
  | none =>
    have hcall : reading (.callExpr setVarWord [.stringLit name, value]) = none := by
      simp [reading, readings, ht]
    rw [evalText, read_expr hw, hcall]
    rfl
  | some t =>
    rw [evalText_expr hw (reading_setVar ht), eval, hlocal]
    rfl

/-! ## Scans -/

/-- A tick of the task, or a write to a variable from elsewhere. -/
inductive Event (F64 : Type) where
  | scan (now : Int)
  | write (id : String) (value : Json F64) (now : Int)

def Event.isWrite : Event F64 → Bool
  | .scan _ => false
  | .write _ _ _ => true

def Event.writes (id : String) : Event F64 → Prop
  | .scan _ => False
  | .write id' _ _ => id' = id

variable (O) in
/-- What a tick does is logged when it fails, and the task goes on. -/
def step (p : Program) (s : EngineState F64) : Event F64 → EngineState F64
  | .scan now =>
    match compile p with
    | some body => (execute O body now s).2
    | none => s
  | .write id value now => { s with vars := (VariableStore.set s.vars id value now).1 }

variable (O) in
def run (p : Program) (events : List (Event F64)) (s : EngineState F64) : EngineState F64 :=
  events.foldl (step O p) s

variable (O) in
/-- A scan up to the first of the statements. -/
def prologue (p : Program) (now : Int) (s : EngineState F64) : Except RunError Flow × Frame F64 :=
  execBlock (machine O (context (functionBody p) now)) (initials p) ⟨s, fun _ => none⟩

/-- A scan whose initial values can be set goes on from there. -/
theorem execute_functionBody (p : Program) (now : Int) (s : EngineState F64) :
    execute O (functionBody p) now s =
      match prologue O p now s with
      | (.ok .next, f) =>
        let r := execBlock (machine O (context (functionBody p) now))
          ((if p.statements = [] ∧ p.varBlocks = [] then [.pass] else []) ++ block p.statements) f
        (r.1, r.2.engine)
      | (r, f) => (r, f.engine) := by
  have hbody : functionBody p = initials p ++
      ((if p.statements = [] ∧ p.varBlocks = [] then [.pass] else []) ++ block p.statements) := by
    rw [functionBody, List.append_assoc]
  have happend := congrFun (execBlock_append (machine O (context (functionBody p) now)) (initials p)
    ((if p.statements = [] ∧ p.varBlocks = [] then [.pass] else []) ++ block p.statements))
    ⟨s, fun _ => none⟩
  rw [← hbody] at happend
  simp only [execute, happend, Action.bind_apply, prologue]
  cases execBlock (machine O (context (functionBody p) now)) (initials p) ⟨s, fun _ => none⟩ with
  | mk r f =>
    cases r with
    | error e => rfl
    | ok flow => cases flow <;> rfl

variable (O) in
/-- Between two scans that follow each other, no declared variable has another value at the start
of the statements than at the end of the scan before, unless it was written from elsewhere. -/
def KeepsState (p : Program) (events : List (Event F64)) (s : EngineState F64) : Prop :=
  ∀ pre t₁ ws t₂ post, events = pre ++ .scan t₁ :: (ws ++ .scan t₂ :: post) →
    ws.all Event.isWrite = true → ∀ d ∈ varDecls p, (∀ e ∈ ws, ¬ e.writes (key d.name)) →
    ∀ f, prologue O p t₂ (run O p (pre ++ .scan t₁ :: ws) s) = (.ok .next, f) →
      VariableStore.get f.engine.vars (key d.name) =
        VariableStore.get (run O p (pre ++ [.scan t₁]) s).vars (key d.name)

variable (O) in
/-- Each initial value is a constant, and the variable has it. -/
def Settled (p : Program) (s : EngineState F64) : Prop :=
  ∀ d ∈ varDecls p, ∀ e, d.initial = some e →
    ∃ w : Value F64 O, (∀ now f, Evaluates (context (functionBody p) now) e f w f) ∧
      VariableStore.get s.vars (key d.name) = starlarkToGo w

/-! ## Initial values that are still there -/

omit [GoQuote] [Words] in
theorem key_injective {name name' : Text} (h : key name = key name') : name = name' := by
  have hlist := congrArg String.toList h
  simpa [key] using hlist

omit [Words] in
/-- A variable keeps a value that each assignment to it writes again. -/
theorem get_builtinSetVar {C : Context} {name x : Text} {w : Value F64 O} {v : Json F64}
    (h : name = x → starlarkToGo w = v) {f : Frame F64}
    (hv : VariableStore.get f.engine.vars (key x) = v) :
    VariableStore.get (builtinSetVar C name w f).2.engine.vars (key x) = v := by
  have hset : VariableStore.get
      (VariableStore.set f.engine.vars (key name) (starlarkToGo w) C.now).1 (key x) = v := by
    by_cases hx : name = x
    · rw [h hx, hx]
      exact VariableStore.get_set_same hv C.now
    · have hkey : key x ≠ key name := fun hk => hx (key_injective hk).symm
      rw [VariableStore.get_set_other _ hkey, hv]
  unfold builtinSetVar
  split
  · rename_i vars hvars
    rw [hvars] at hset
    exact hset
  · exact hv

/-- Setting variables to constants keeps a variable that is set to the value it has. -/
theorem keeps_setVar {C : Context} {name x : Text} {e : Expression} {w : Value F64 O} {v : Json F64}
    (hname : name.all (· ≠ '\'') = true) (he : exprWellFormed e = true)
    (hconst : ∀ f : Frame F64, Evaluates C e f w f) (h : name = x → starlarkToGo w = v) :
    Action.Keeps (fun f : Frame F64 => VariableStore.get f.engine.vars (key x) = v)
      ((machine O C).effect (setVarText name e)) := by
  intro f hf
  cases hlocal : C.isLocal setVarWord with
  | true =>
    rw [effect_setVar_local hname he hlocal]
    exact hf
  | false =>
    have hw := hconst f
    unfold Evaluates at hw
    have hset := get_builtinSetVar (C := C) h hf
    rw [effect_setVar hname he hlocal, Action.bind_apply, hw, Action.andThen_ok, Action.bind_apply]
    cases hr : builtinSetVar C name w f with
    | mk r f' =>
      rw [hr] at hset
      cases r with
      | error e => exact hset
      | ok a => exact hset

omit [GoQuote] [Words] in
/-- The declarations of a well formed program are well formed. -/
theorem decl_wellFormed [LetterCase] {p : Program} (hw : wellFormed p = true)
    {d : VarDecl} (hd : d ∈ varDecls p) :
    d.name.all (· ≠ '\'') = true ∧ ∀ e, d.initial = some e → exprWellFormed e = true := by
  simp only [wellFormed, Bool.and_eq_true, List.all_eq_true] at hw
  obtain ⟨block, hblock, hmem⟩ := List.mem_flatMap.mp hd
  have hdecl := hw.1.2 block hblock d hmem
  simp only [declWellFormed, isIdent, Bool.and_eq_true] at hdecl
  obtain ⟨⟨⟨⟨hword, -⟩, -⟩, -⟩, hinitial⟩ := hdecl
  constructor
  · rw [List.all_eq_true]
    intro c hc
    have hne : c ≠ '\'' := by
      rintro rfl
      exact notMem_word hword rfl hc
    simpa using hne
  · intro e he
    simpa [he] using hinitial

/-- The initial value of a declaration is what the variable has already. -/
theorem prologue_keeps [LetterCase] {p : Program} (hw : wellFormed p = true)
    {s : EngineState F64} (hs : Settled O p s) (d : VarDecl) {s' : EngineState F64}
    (hsame : VariableStore.get s'.vars (key d.name) = VariableStore.get s.vars (key d.name))
    (now : Int) :
    VariableStore.get (prologue O p now s').2.engine.vars (key d.name) =
      VariableStore.get s.vars (key d.name) := by
  have hkeeps : BlockKeeps (machine O (context (functionBody p) now))
      (fun f => VariableStore.get f.engine.vars (key d.name) =
        VariableStore.get s.vars (key d.name)) (initials p) := by
    rw [blockKeeps_iff]
    intro code hcode
    obtain ⟨d', hd', hcode⟩ := List.mem_filterMap.mp hcode
    cases he : d'.initial with
    | none => simp [he] at hcode
    | some e =>
      obtain ⟨hname, hwf⟩ := decl_wellFormed hw hd'
      obtain ⟨w, hconst, hvalue⟩ := hs d' hd' e he
      simp only [he, Option.map_some, Option.some.injEq] at hcode
      rw [← hcode]
      refine keeps_setVar hname (hwf e he) (hconst now) fun hx => ?_
      rw [← hvalue, hx]
  exact keeps_execBlock _ hkeeps _ hsame

/-- Writes from outside leave the variables that they do not name. -/
theorem run_writes {p : Program} {ws : List (Event F64)} (hws : ws.all Event.isWrite = true)
    {id : String} (h : ∀ e ∈ ws, ¬ e.writes id) (s : EngineState F64) :
    VariableStore.get (run O p ws s).vars id = VariableStore.get s.vars id := by
  induction ws generalizing s with
  | nil => rfl
  | cons e ws ih =>
    rw [List.all_cons, Bool.and_eq_true] at hws
    have hrest := ih hws.2 (fun e' he' => h e' (List.mem_cons_of_mem e he')) (step O p s e)
    have hfirst : VariableStore.get (step O p s e).vars id = VariableStore.get s.vars id := by
      have hfree := h e List.mem_cons_self
      cases e with
      | scan now => cases hws.1
      | write id' value now => exact VariableStore.get_set_other _ (Ne.symm hfree) _ _
    exact hrest.trans hfirst

/-- In every run in which the initialised variables have their initial values at the end of each
scan, no variable changes between scans. -/
theorem run_keepsState [LetterCase] {p : Program} (hw : wellFormed p = true)
    {events : List (Event F64)} {s : EngineState F64}
    (h : ∀ pre t post, events = pre ++ .scan t :: post → Settled O p (run O p (pre ++ [.scan t]) s)) :
    KeepsState O p events s := by
  intro pre t₁ ws t₂ post hevents hws d _ hfree f hprologue
  have hsettled := h pre t₁ (ws ++ .scan t₂ :: post) hevents
  have hsame : VariableStore.get (run O p (pre ++ .scan t₁ :: ws) s).vars (key d.name) =
      VariableStore.get (run O p (pre ++ [.scan t₁]) s).vars (key d.name) := by
    have hsplit : run O p (pre ++ .scan t₁ :: ws) s = run O p ws (run O p (pre ++ [.scan t₁]) s) := by
      simp [run, List.foldl_append]
    rw [hsplit, run_writes hws hfree]
  have hkeeps := prologue_keeps hw hsettled d hsame t₂
  rw [hprologue] at hkeeps
  exact hkeeps

/-- Starlark can read the line that sets a variable if it can read the value. -/
theorem readable_setVar {name : Text} {e : Expression} (hname : name.all (· ≠ '\'') = true)
    (he : exprWellFormed e = true) {t : Starlark.Tree} (ht : reading e = some t) :
    readable (setVar name e) = true := by
  have hread : Starlark.read (setVarText name e) =
      some (.call setVarWord [.literal (quote name), t]) := by
    rw [setVarText, read_expr (setVar_wellFormed hname he), reading_setVar ht]
  have hreadable : readable (setVar name e) = (Starlark.read (setVarText name e)).isSome := rfl
  rw [hreadable, hread]
  rfl

/-- A registered variable is set. -/
theorem exec_setVar {C : Context} {name : Text} {e : Expression} {w : Value F64 O}
    {f : Frame F64} {v : RuntimeVariable F64} (hname : name.all (· ≠ '\'') = true)
    (he : exprWellFormed e = true) (hlocal : C.isLocal setVarWord = false)
    (hw : Evaluates C e f w f) (hv : f.engine.vars.lookup (key name) = some v) :
    exec (machine O C) (setVar name e) f = (.ok .next, { f with engine := { f.engine with
      vars := (VariableStore.set f.engine.vars (key name) (starlarkToGo w) C.now).1 } }) := by
  unfold Evaluates at hw
  have hset : VariableStore.set f.engine.vars (key name) (starlarkToGo w) C.now =
      ((VariableStore.set f.engine.vars (key name) (starlarkToGo w) C.now).1, true) := by
    simp [VariableStore.set, hv]
  have heffect := effect_setVar (O := O) hname he hlocal f
  rw [Action.bind_apply, hw, Action.andThen_ok, Action.bind_apply, builtinSetVar, hset] at heffect
  rw [setVar, exec, Action.bind_apply]
  exact congrArg (Action.andThen · _) heffect

end Scans

/-! ## A variable that is set back -/

/-- `VAR x : INT := d; END_VAR x := 5;` -/
def countProgram (d : Char) : Program :=
  ⟨mainWord, [⟨.var, [⟨['x'], "INT".toList, some (digitLit d)⟩]⟩],
    [.assignStmt ['x'] (digitLit '5')]⟩

def countState : EngineState ℚ :=
  { vars := AList.singleton "x" ⟨"x", "INT", "internal", .number 0, "good", 0, false⟩ }

/-- Setting `x` to a digit, in the program and in a state that has the variable. -/
theorem exec_setDigit (c : Char) (now : Int) {d : Char} {n : Int} (hd : isNumber [d] = true)
    (hn : asciiLiteral [d] = some (.int n)) (hin : inInt64 n) (f : Frame ℚ)
    (hv : f.engine.vars.lookup "x" ≠ none) :
    letI := Starlark.scannerWords
    letI := asciiQuote
    letI := asciiRuntime
    ∃ f', exec (machine Empty (context (functionBody (countProgram c)) now))
        (setVar ['x'] (digitLit d)) f = (.ok .next, f') ∧
      VariableStore.get f'.engine.vars "x" = .number n ∧ f'.engine.vars.lookup "x" ≠ none := by
  let _ := Starlark.scannerWords
  let _ := asciiQuote
  let _ := asciiRuntime
  obtain ⟨v, hv⟩ := Option.ne_none_iff_exists'.mp hv
  have hw : Evaluates (context (functionBody (countProgram c)) now) (digitLit d) f
      (.int n : Value ℚ Empty) f := evaluates_numberLit hd hn f
  refine ⟨_, exec_setVar (by decide) hd rfl hw hv, ?_⟩
  have hgo : starlarkToGo (.int n : Value ℚ Empty) = .number (n : ℚ) := by
    rw [starlarkToGo, if_pos hin]
    rfl
  have hkey : key ['x'] = "x" := rfl
  rw [hgo, hkey]
  simp [VariableStore.set, VariableStore.get, hv]

/-- A scan leaves 5 in `x`, whatever its initial value. -/
theorem step_countProgram {c : Char} {n : Int} (hc : isNumber [c] = true)
    (hn : asciiLiteral [c] = some (.int n)) (hin : inInt64 n) (now : Int) (s : EngineState ℚ)
    (hv : s.vars.lookup "x" ≠ none) :
    letI := Starlark.scannerWords
    letI := asciiQuote
    letI := asciiRuntime
    VariableStore.get (step Empty (countProgram c) s (.scan now)).vars "x" = .number 5 ∧
      (step Empty (countProgram c) s (.scan now)).vars.lookup "x" ≠ none := by
  let _ := Starlark.scannerWords
  let _ := asciiQuote
  let _ := asciiRuntime
  obtain ⟨f₁, hexec₁, -, hv₁⟩ := exec_setDigit c now hc hn hin ⟨s, fun _ => none⟩ hv
  obtain ⟨f₂, hexec₂, hget₂, hv₂⟩ := exec_setDigit c now (d := '5') (by decide) rfl (by decide)
    f₁ hv₁
  have hbody : functionBody (countProgram c) =
      [setVar ['x'] (digitLit c), setVar ['x'] (digitLit '5')] := rfl
  have hcompile : compile (countProgram c) = some (functionBody (countProgram c)) := by
    have hfirst : readable (setVar ['x'] (digitLit c)) = true := readable_setVar (by decide) hc rfl
    have hsecond : readable (setVar ['x'] (digitLit '5')) = true :=
      readable_setVar (by decide) (by decide) rfl
    have hread : readableBlock (functionBody (countProgram c)) = true := by
      rw [hbody, readableBlock, readableBlock, readableBlock, hfirst, hsecond]
      rfl
    rw [compile, if_pos ⟨rfl, by rw [hbody]; exact List.cons_ne_nil _ _, hread⟩]
  have hstep : step Empty (countProgram c) s (.scan now) = f₂.engine := by
    rw [step, hcompile]
    simp only [execute, hbody]
    rw [hbody] at hexec₁ hexec₂
    simp only [execBlock, Action.bind_apply, hexec₁, hexec₂, Action.andThen_ok, Action.pure_apply]
  rw [hstep]
  exact ⟨hget₂, hv₂⟩

/-- With the initial value 5, which `x` also has at the end of each scan. -/
theorem run_keepsState_countProgram :
    letI := Starlark.scannerWords
    letI := asciiQuote
    letI := asciiRuntime
    KeepsState Empty (countProgram '5') [.scan 0, .scan 1] countState := by
  let _ := Starlark.scannerWords
  let _ := asciiQuote
  let _ := asciiRuntime
  let _ := asciiCase
  apply run_keepsState (by decide)
  have hscan : ∀ now (s : EngineState ℚ), s.vars.lookup "x" ≠ none →
      VariableStore.get (step Empty (countProgram '5') s (.scan now)).vars "x" = .number 5 ∧
        (step Empty (countProgram '5') s (.scan now)).vars.lookup "x" ≠ none :=
    step_countProgram (by decide) rfl (by decide)
  have hfirst := hscan 0 countState (by decide)
  have hsecond := hscan 1 _ hfirst.2
  intro pre t post hevents d hd e he
  obtain rfl := List.mem_singleton.mp hd
  obtain rfl : digitLit '5' = e := Option.some.inj he
  have hfive : starlarkToGo (.int 5 : Value ℚ Empty) = .number (5 : ℚ) := rfl
  refine ⟨.int 5, fun now f => evaluates_numberLit (by decide) rfl f, ?_⟩
  rw [hfive]
  obtain _ | ⟨e₁, pre⟩ := pre
  · obtain rfl : 0 = t := by
      cases hevents
      rfl
    exact hfirst.1
  · obtain _ | ⟨e₂, pre⟩ := pre
    · cases hevents
      exact hsecond.1
    · simp at hevents

def backProgram : Program := countProgram '0'

/-- With the initial value 0: `x` is 5 at the end of the first scan and 0 when the statements of the
second one start. -/
theorem backProgram_set_back :
    letI := Starlark.scannerWords
    letI := asciiQuote
    letI := asciiRuntime
    ¬ KeepsState Empty backProgram [.scan 0, .scan 1] countState := by
  let _ := Starlark.scannerWords
  let _ := asciiQuote
  let _ := asciiRuntime
  intro h
  obtain ⟨hget, hv⟩ := step_countProgram (c := '0') (by decide) rfl (by decide) 0 countState
    (by decide)
  obtain ⟨f, hexec, hzero, -⟩ := exec_setDigit '0' 1 (d := '0') (by decide) rfl (by decide)
    ⟨run Empty backProgram [.scan 0] countState, fun _ => none⟩ hv
  have hprologue : prologue Empty backProgram 1 (run Empty backProgram [.scan 0] countState) =
      (.ok .next, f) := by
    have hinitials : initials backProgram = [setVar ['x'] (digitLit '0')] := rfl
    have hexec' : exec (machine Empty (context (functionBody backProgram) 1))
        (setVar ['x'] (digitLit '0')) _ = (.ok .next, f) := hexec
    rw [prologue, hinitials]
    simp only [execBlock, Action.bind_apply, hexec', Action.andThen_ok, Action.pure_apply]
  have hkept := h [] 0 [] 1 [] rfl rfl ⟨['x'], "INT".toList, some (digitLit '0')⟩
    List.mem_cons_self (by simp) f hprologue
  have hfive : VariableStore.get (run Empty backProgram ([] ++ [.scan 0]) countState).vars
      (key ['x']) = .number 5 := hget
  rw [hfive] at hkept
  have hx : key ['x'] = "x" := rfl
  rw [hx, hzero] at hkept
  have hdigits : digitsValue ['0'] = 0 := by decide
  simp [hdigits] at hkept

end StScans
