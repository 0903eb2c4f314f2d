import Tentacle.StScans

/-!
# Structured Text: statements

The meaning of assignments, IF, WHILE, REPEAT, CASE and RETURN on the store of the engine, and that
the generated statements have it. Starlark has no WHILE, so a loop of the program becomes one over a
range, which a `break` leaves; what the translation of expressions does is taken as given. The
comparisons of a CASE are put together from two such texts without parentheses, which goes wrong
when one of them is a NOT.
-/

namespace StStatements
open StSyntax StRender StCodegen StReading StarlarkRuntime StLoops StScans GoValues PlcVariables
open BlockScript
open LadderEngine (EngineState)
open Starlark (Words Tree)

/-! ## Meaning -/

/-- How statements end. -/
inductive Outcome where
  | next
  | returned
  /-- An assignment to a variable that the store does not have. -/
  | unknown (name : Text)

variable {σ : Type}

/-- What statements do to a store, if each of their loops ends. -/
abbrev Effect (σ : Type) := σ → Option (Outcome × σ)

def seq (first second : Effect σ) : Effect σ := fun s =>
  match first s with
  | some (.next, s') => second s'
  | r => r

/-- WHILE, if it ends within so many iterations. -/
def whileLoop (condition : σ → Bool) (body : Effect σ) : Nat → Effect σ
  | 0 => fun s => if condition s then none else some (.next, s)
  | n + 1 => fun s =>
    if condition s then seq body (whileLoop condition body n) s else some (.next, s)

def repeatLoop (body : Effect σ) (condition : σ → Bool) : Nat → Effect σ
  | 0 => fun _ => none
  | n + 1 => seq body fun s =>
    if condition s then some (.next, s) else repeatLoop body condition n s

/-- The meaning of expressions. -/
structure Meaning (F64 V : Type) where
  value : Expression → EngineState F64 → V
  /-- What the store gets in an assignment. -/
  stored : V → Json F64
  isTrue : V → Bool
  equal : V → V → Bool

section Semantics

variable {F64 V : Type} (M : Meaning F64 V) (now : Int)

def Meaning.holds (condition : Expression) (s : EngineState F64) : Bool :=
  M.isTrue (M.value condition s)

/-- The selector has one of the values. -/
def Meaning.selects (selector : Expression) (values : List Expression) (s : EngineState F64) :
    Bool :=
  values.any fun v => M.equal (M.value selector s) (M.value v s)

def assign (target : Text) (value : Expression) : Effect (EngineState F64) := fun s =>
  match VariableStore.set s.vars (key target) (M.stored (M.value value s)) now with
  | (vars, true) => some (.next, { s with vars := vars })
  | (_, false) => some (.unknown target, s)

mutual

/-- A statement whose loops end within `n` iterations each. -/
def run (n : Nat) : Statement → Effect (EngineState F64)
  | .assignStmt target value => assign M now target value
  | .ifStmt condition thenBody elsIfs elseBody => fun s =>
    if M.holds condition s then runBlock n thenBody s
    else runElsIfs n elsIfs (runBlock n elseBody) s
  | .whileStmt condition body => whileLoop (M.holds condition) (runBlock n body) n
  | .repeatStmt body condition => repeatLoop (runBlock n body) (M.holds condition) n
  | .caseStmt selector cases elseBody => runCases n selector cases (runBlock n elseBody)
  | .returnStmt => fun s => some (.returned, s)
  | .forStmt _ _ _ _ _ => fun _ => none
  | .callStmt _ _ => fun _ => none

def runBlock (n : Nat) : List Statement → Effect (EngineState F64)
  | [] => fun s => some (.next, s)
  | stmt :: body => seq (run n stmt) (runBlock n body)

def runElsIfs (n : Nat) : List ElsIfClause → Effect (EngineState F64) → Effect (EngineState F64)
  | [], otherwise => otherwise
  | .mk condition body :: clauses, otherwise => fun s =>
    if M.holds condition s then runBlock n body s else runElsIfs n clauses otherwise s

def runCases (n : Nat) (selector : Expression) :
    List CaseClause → Effect (EngineState F64) → Effect (EngineState F64)
  | [], otherwise => otherwise
  | .mk values body :: clauses, otherwise => fun s =>
    if M.selects selector values s then runBlock n body s
    else runCases n selector clauses otherwise s

end

end Semantics

/-! ## The number of iterations -/

/-- What the first ends with, the second does too. -/
def Extends (x y : Effect σ) : Prop := ∀ s r, x s = some r → y s = some r

theorem Extends.refl (x : Effect σ) : Extends x x := fun _ _ h => h

/-- One effect after the other goes on where both do. -/
theorem Extends.seq {x x' y y' : Effect σ} (hx : Extends x x') (hy : Extends y y') :
    Extends (seq x y) (seq x' y') := by
  intro s r h
  unfold StStatements.seq at h ⊢
  cases hr : x s with
  | none =>
    rw [hr] at h
    cases h
  | some p =>
    rw [hx s p hr]
    rw [hr] at h
    obtain ⟨o, s'⟩ := p
    cases o with
    | next => exact hy s' r h
    | returned => exact h
    | unknown name => exact h

/-- A choice goes on where both sides do. -/
theorem extends_ite {c : σ → Bool} {x x' y y' : Effect σ} (hx : Extends x x')
    (hy : Extends y y') :
    Extends (fun s => if c s then x s else y s) (fun s => if c s then x' s else y' s) := by
  intro s r h
  cases hc : c s with
  | true =>
    simp only [hc, if_true] at h ⊢
    exact hx s r h
  | false =>
    simp only [hc, Bool.false_eq_true, if_false] at h ⊢
    exact hy s r h

/-- More iterations change nothing in a loop that ends. -/
theorem extends_whileLoop {c : σ → Bool} {x x' : Effect σ} (hx : Extends x x') {n m : Nat}
    (h : n ≤ m) : Extends (whileLoop c x n) (whileLoop c x' m) := by
  induction n generalizing m with
  | zero =>
    intro s r hr
    cases m with
    | zero => exact hr
    | succ m =>
      unfold whileLoop at hr ⊢
      cases hc : c s with
      | true => simp [hc] at hr
      | false => simpa [hc] using hr
  | succ n ih =>
    cases m with
    | zero => omega
    | succ m => exact extends_ite (hx.seq (ih (by omega))) (Extends.refl _)

theorem extends_repeatLoop {c : σ → Bool} {x x' : Effect σ} (hx : Extends x x') {n m : Nat}
    (h : n ≤ m) : Extends (repeatLoop x c n) (repeatLoop x' c m) := by
  induction n generalizing m with
  | zero => exact fun s r hr => nomatch hr
  | succ n ih =>
    cases m with
    | zero => omega
    | succ m => exact hx.seq (extends_ite (Extends.refl _) (ih (by omega)))

section Mono

variable {F64 V : Type} {M : Meaning F64 V} {now : Int} {n m : Nat}

mutual

/-- More iterations change nothing in a statement that ends. -/
theorem extends_run (h : n ≤ m) : ∀ stmt : Statement, Extends (run M now n stmt) (run M now m stmt)
  | .assignStmt _ _ => Extends.refl _
  | .ifStmt _ thenBody elsIfs elseBody =>
    extends_ite (extends_runBlock h thenBody)
      (extends_runElsIfs h elsIfs (extends_runBlock h elseBody))
  | .whileStmt _ body => extends_whileLoop (extends_runBlock h body) h
  | .repeatStmt body _ => extends_repeatLoop (extends_runBlock h body) h
  | .caseStmt selector cases elseBody =>
    extends_runCases h selector cases (extends_runBlock h elseBody)
  | .returnStmt => Extends.refl _
  | .forStmt _ _ _ _ _ => Extends.refl _
  | .callStmt _ _ => Extends.refl _

theorem extends_runBlock (h : n ≤ m) : ∀ body : List Statement,
    Extends (runBlock M now n body) (runBlock M now m body)
  | [] => Extends.refl _
  | stmt :: body => (extends_run h stmt).seq (extends_runBlock h body)

theorem extends_runElsIfs (h : n ≤ m) : ∀ (clauses : List ElsIfClause)
    {x y : Effect (EngineState F64)}, Extends x y →
      Extends (runElsIfs M now n clauses x) (runElsIfs M now m clauses y)
  | [], _, _, hx => hx
  | .mk _ body :: clauses, _, _, hx =>
    extends_ite (extends_runBlock h body) (extends_runElsIfs h clauses hx)

theorem extends_runCases (h : n ≤ m) (selector : Expression) : ∀ (clauses : List CaseClause)
    {x y : Effect (EngineState F64)}, Extends x y →
      Extends (runCases M now n selector clauses x) (runCases M now m selector clauses y)
  | [], _, _, hx => hx
  | .mk _ body :: clauses, _, _, hx =>
    extends_ite (extends_runBlock h body) (extends_runCases h selector clauses hx)

end

end Mono

/-! ## Expressions that are translated -/

def Outcome.flow : Outcome → Except RunError Flow
  | .next => .ok .next
  | .returned => .ok .return_
  | .unknown name => .error (.unknownVariable name)

section Translation

variable {F64 V : Type} [GoFloat64 F64] [GoFloat64OfInt F64] [GoQuote] [Words]
variable (O : Type) [Runtime F64 O] (M : Meaning F64 V) (C : Context)

/-- The generated text has no effect, and the value of the expression. -/
def SameValue (e : Expression) : Prop :=
  ∀ f : Frame F64, ∃ w : Value F64 O, Evaluates C e f w f ∧
    starlarkToGo w = M.stored (M.value e f.engine) ∧ truth w = M.holds e f.engine

/-- Starlark's `==` compares the values of a selector and another expression as they are to be
compared. -/
def SameEquality (selector e : Expression) : Prop :=
  ∀ (f : Frame F64) (w w' : Value F64 O), Evaluates C selector f w f → Evaluates C e f w' f →
    ∃ u : Value F64 O, Runtime.binary .eq w w' = .ok u ∧
      truth u = M.equal (M.value selector f.engine) (M.value e f.engine)

/-- The generated comparison has no effect, and the value of the comparison. -/
def SameComparison (selector e : Expression) : Prop :=
  ∀ f : Frame F64, ∃ w : Value F64 O, Evaluates C (.binaryExpr selector .equal e) f w f ∧
    truth w = M.equal (M.value selector f.engine) (M.value e f.engine)

mutual

/-- An assignment, IF, WHILE, REPEAT, CASE with a clause, or RETURN, whose expressions are
translated. -/
def Translated : Statement → Prop
  | .assignStmt _ value => SameValue O M C value
  | .ifStmt condition thenBody elsIfs elseBody =>
    SameValue O M C condition ∧ BlockTranslated thenBody ∧ ElsIfsTranslated elsIfs ∧
      BlockTranslated elseBody
  | .whileStmt condition body => SameValue O M C condition ∧ BlockTranslated body
  | .repeatStmt body condition => BlockTranslated body ∧ SameValue O M C condition
  | .caseStmt selector cases elseBody =>
    SameValue O M C selector ∧ cases ≠ [] ∧ CasesTranslated selector cases ∧
      BlockTranslated elseBody
  | .returnStmt => True
  | .forStmt _ _ _ _ _ => False
  | .callStmt _ _ => False

def BlockTranslated : List Statement → Prop
  | [] => True
  | stmt :: body => Translated stmt ∧ BlockTranslated body

def ElsIfsTranslated : List ElsIfClause → Prop
  | [] => True
  | .mk condition body :: clauses =>
    SameValue O M C condition ∧ BlockTranslated body ∧ ElsIfsTranslated clauses

def CasesTranslated (selector : Expression) : List CaseClause → Prop
  | [] => True
  | .mk values body :: clauses =>
    (∀ e ∈ values, SameValue O M C e ∧ SameEquality O M C selector e) ∧ BlockTranslated body ∧
      CasesTranslated selector clauses

end

end Translation

mutual

/-- The selectors and the values of every CASE in a statement meet conditions. -/
def casesMeet (selectorMeets valueMeets : Expression → Bool) : Statement → Bool
  | .ifStmt _ thenBody elsIfs elseBody =>
    blockMeets selectorMeets valueMeets thenBody && elsIfsMeet selectorMeets valueMeets elsIfs &&
      blockMeets selectorMeets valueMeets elseBody
  | .forStmt _ _ _ _ body => blockMeets selectorMeets valueMeets body
  | .whileStmt _ body => blockMeets selectorMeets valueMeets body
  | .repeatStmt body _ => blockMeets selectorMeets valueMeets body
  | .caseStmt selector cases elseBody =>
    selectorMeets selector && clausesMeet selectorMeets valueMeets cases &&
      blockMeets selectorMeets valueMeets elseBody
  | _ => true

def blockMeets (selectorMeets valueMeets : Expression → Bool) : List Statement → Bool
  | [] => true
  | stmt :: body =>
    casesMeet selectorMeets valueMeets stmt && blockMeets selectorMeets valueMeets body

def elsIfsMeet (selectorMeets valueMeets : Expression → Bool) : List ElsIfClause → Bool
  | [] => true
  | .mk _ body :: clauses =>
    blockMeets selectorMeets valueMeets body && elsIfsMeet selectorMeets valueMeets clauses

def clausesMeet (selectorMeets valueMeets : Expression → Bool) : List CaseClause → Bool
  | [] => true
  | .mk values body :: clauses =>
    values.all valueMeets && blockMeets selectorMeets valueMeets body &&
      clausesMeet selectorMeets valueMeets clauses

end

mutual

/-- Weaker conditions on the operands are met as well. -/
theorem casesMeet_mono {p p' q q' : Expression → Bool} (hp : ∀ e, p e = true → p' e = true)
    (hq : ∀ e, q e = true → q' e = true) :
    ∀ stmt' : Statement, casesMeet p q stmt' = true → casesMeet p' q' stmt' = true
  | .ifStmt _ thenBody elsIfs elseBody, h => by
    simp only [casesMeet, Bool.and_eq_true] at h ⊢
    exact ⟨⟨blockMeets_mono hp hq thenBody h.1.1, elsIfsMeet_mono hp hq elsIfs h.1.2⟩,
      blockMeets_mono hp hq elseBody h.2⟩
  | .forStmt _ _ _ _ body, h => blockMeets_mono hp hq body h
  | .whileStmt _ body, h => blockMeets_mono hp hq body h
  | .repeatStmt body _, h => blockMeets_mono hp hq body h
  | .caseStmt selector cases elseBody, h => by
    simp only [casesMeet, Bool.and_eq_true] at h ⊢
    exact ⟨⟨hp selector h.1.1, clausesMeet_mono hp hq cases h.1.2⟩,
      blockMeets_mono hp hq elseBody h.2⟩
  | .assignStmt _ _, _ => rfl
  | .callStmt _ _, _ => rfl
  | .returnStmt, _ => rfl

theorem blockMeets_mono {p p' q q' : Expression → Bool} (hp : ∀ e, p e = true → p' e = true)
    (hq : ∀ e, q e = true → q' e = true) :
    ∀ body : List Statement, blockMeets p q body = true → blockMeets p' q' body = true
  | [], _ => rfl
  | stmt' :: body, h => by
    simp only [blockMeets, Bool.and_eq_true] at h ⊢
    exact ⟨casesMeet_mono hp hq stmt' h.1, blockMeets_mono hp hq body h.2⟩

theorem elsIfsMeet_mono {p p' q q' : Expression → Bool} (hp : ∀ e, p e = true → p' e = true)
    (hq : ∀ e, q e = true → q' e = true) :
    ∀ clauses : List ElsIfClause, elsIfsMeet p q clauses = true → elsIfsMeet p' q' clauses = true
  | [], _ => rfl
  | .mk _ body :: clauses, h => by
    simp only [elsIfsMeet, Bool.and_eq_true] at h ⊢
    exact ⟨blockMeets_mono hp hq body h.1, elsIfsMeet_mono hp hq clauses h.2⟩

theorem clausesMeet_mono {p p' q q' : Expression → Bool} (hp : ∀ e, p e = true → p' e = true)
    (hq : ∀ e, q e = true → q' e = true) :
    ∀ clauses : List CaseClause, clausesMeet p q clauses = true → clausesMeet p' q' clauses = true
  | [], _ => rfl
  | .mk values body :: clauses, h => by
    simp only [clausesMeet, Bool.and_eq_true, List.all_eq_true] at h ⊢
    exact ⟨⟨fun e he => hq e (h.1.1 e he), blockMeets_mono hp hq body h.1.2⟩,
      clausesMeet_mono hp hq clauses h.2⟩

end

def isPlainOperand (e : Expression) : Bool := !isNot e

section Tests

variable {F64 O V : Type} [GoFloat64 F64] [GoFloat64OfInt F64] [GoQuote] [Words] [Runtime F64 O]
variable {M : Meaning F64 V} {C : Context}

/-- The two operands and the comparison of their values are enough, unless one is a NOT, which the
comparison does not put in parentheses. -/
theorem sameComparison_of_sameValue {selector e : Expression}
    (hs : exprWellFormed selector = true) (he : exprWellFormed e = true)
    (hns : isNot selector = false) (hne : isNot e = false)
    (hselector : SameValue O M C selector) (hvalue : SameValue O M C e)
    (hequal : SameEquality O M C selector e) : SameComparison O M C selector e := by
  intro f
  obtain ⟨w, hw, -, -⟩ := hselector f
  obtain ⟨w', hw', -, -⟩ := hvalue f
  obtain ⟨u, hu, htruth⟩ := hequal f w w' hw hw'
  obtain ⟨t, ht, heval⟩ := hw.reading hs
  obtain ⟨t', ht', heval'⟩ := hw'.reading he
  have hreading : reading (.binaryExpr selector .equal e) = some (.binary t .eq t') := by
    have hop : isLogic .equal = false := rfl
    simp only [StReading.reading, ht, ht', Option.bind_eq_bind, Option.bind_some, hop, hne,
      Bool.false_eq_true, if_false, hoist_operand hns]
    rfl
  have hwf : exprWellFormed (.binaryExpr selector .equal e) = true := by
    simp [exprWellFormed, hs, he]
  refine ⟨u, ?_, htruth⟩
  rw [Evaluates, evalText_expr hwf hreading]
  simp only [eval, Action.bind_apply, heval, heval', Action.andThen_ok, hu]
  rfl

theorem test_expr {e : Expression} (h : SameValue O M C e) (f : Frame F64) :
    (machine O C).test (expr e) f = (.ok (M.holds e f.engine), f) := by
  obtain ⟨w, hw, -, htruth⟩ := h f
  unfold Evaluates at hw
  simp only [machine, Action.bind_apply, hw, Action.andThen_ok, Action.pure_apply, htruth]

/-- The test with which a WHILE is left. -/
theorem test_not_expr {e : Expression} (hw : exprWellFormed e = true) (h : SameValue O M C e)
    (f : Frame F64) :
    (machine O C).test ("not (".toList ++ expr e ++ [')']) f =
      (.ok (!M.holds e f.engine), f) := by
  obtain ⟨w, hvalue, -, htruth⟩ := h f
  obtain ⟨t, ht, heval⟩ := hvalue.reading hw
  have hread : (evalText C ("not (".toList ++ expr e ++ [')']) : Run F64 (Value F64 O)) =
      eval C (.not t) := by
    rw [evalText, read_not_parenthesised hw, ht, Option.map_some]
  simp only [machine, hread, Action.bind_apply, eval, heval, Action.andThen_ok, Action.pure_apply,
    htruth]
  rfl

omit [Words] in
/-- A chain of tests without effect. -/
theorem eval_or_chain {t : Expression → Tree} {holds : Expression → Bool} {f : Frame F64}
    {vs : List Expression}
    (h : ∀ v ∈ vs, ∃ w : Value F64 O, eval C (t v) f = (.ok w, f) ∧ truth w = holds v)
    {l : Tree} {w : Value F64 O} (hl : eval C l f = (.ok w, f)) :
    ∃ w' : Value F64 O, eval C (vs.foldl (fun l v => .binary l .or (t v)) l) f = (.ok w', f) ∧
      truth w' = (truth w || vs.any holds) := by
  induction vs generalizing l w with
  | nil => exact ⟨w, hl, by simp⟩
  | cons v vs ih =>
    obtain ⟨u, hu, htruth⟩ := h v List.mem_cons_self
    have hstep : eval C (.binary l .or (t v)) f = (.ok (if truth w then w else u), f) := by
      simp only [eval, Action.bind_apply, hl, Action.andThen_ok]
      cases truth w with
      | true => rfl
      | false => exact hu
    obtain ⟨w', hw', htruth'⟩ := ih (fun x hx => h x (List.mem_cons_of_mem v hx)) hstep
    refine ⟨w', hw', ?_⟩
    rw [htruth', List.any_cons, ← htruth]
    cases hw : truth w with
    | true => simp [hw]
    | false => simp

/-- The test of a clause of CASE. -/
theorem test_caseTest {selector : Expression} {values : List Expression}
    (hs : exprWellFormed selector = true) (hne : values.isEmpty = false)
    (hvs : argsWellFormed values = true) (h : ∀ e ∈ values, SameComparison O M C selector e)
    (f : Frame F64) :
    (machine O C).test (caseTest (expr selector) (exprs values)) f =
      (.ok (M.selects selector values f.engine), f) := by
  let t : Expression → Tree := fun v => (reading (.binaryExpr selector .equal v)).getD (.name [])
  have heach : ∀ v ∈ values, reading (.binaryExpr selector .equal v) = some (t v) ∧
      ∃ w : Value F64 O, eval C (t v) f = (.ok w, f) ∧
        truth w = M.equal (M.value selector f.engine) (M.value v f.engine) := by
    intro v hv
    obtain ⟨w, hw, htruth⟩ := h v hv f
    have hwf : exprWellFormed (.binaryExpr selector .equal v) = true := by
      simp [exprWellFormed, hs, mem_wellFormed hvs v hv]
    obtain ⟨tree, htree, heval⟩ := hw.reading hwf
    have ht : t v = tree := by simp [t, htree]
    rw [ht]
    exact ⟨htree, w, heval, htruth⟩
  cases values with
  | nil => cases hne
  | cons v vs =>
    obtain ⟨-, w, hw, htruth⟩ := heach v List.mem_cons_self
    obtain ⟨w', hw', htruth'⟩ := eval_or_chain
      (fun x hx => (heach x (List.mem_cons_of_mem v hx)).2) hw
    have hread : (evalText C (caseTest (expr selector) (exprs (v :: vs))) :
        Run F64 (Value F64 O)) = eval C (vs.foldl (fun l x => .binary l .or (t x)) (t v)) := by
      rw [evalText, read_caseTest hs hvs (fun x hx => (heach x hx).1)]
    simp only [machine, hread, Action.bind_apply, hw', Action.andThen_ok, Action.pure_apply,
      htruth', htruth, Meaning.selects, List.any_cons]

end Tests

/-! ## Generated statements -/

section Simulation

variable {F64 : Type} {N : Machine Text Text (Frame F64) RunError}

/-- Code that ends as statements do, with the same store. Its local variables are its own. -/
def Follows (x : Run F64 Flow) (r : Effect (EngineState F64)) : Prop :=
  ∀ (f : Frame F64) (o : Outcome) (s : EngineState F64), r f.engine = some (o, s) →
    ∃ f', x f = (o.flow, f') ∧ f'.engine = s

theorem follows_next : Follows (pure .next : Run F64 Flow) (fun s => some (.next, s)) := by
  intro f o s h
  cases h
  exact ⟨f, rfl, rfl⟩

/-- No statement of a program ends with `break`. -/
theorem Follows.andThen {x y : Run F64 Flow} {r r' : Effect (EngineState F64)} (hx : Follows x r)
    (hy : Follows y r') :
    Follows (do
      let flow ← x
      match flow with
      | .next => y
      | flow => pure flow) (seq r r') := by
  intro f o s h
  unfold StStatements.seq at h
  cases hr : r f.engine with
  | none =>
    rw [hr] at h
    cases h
  | some p =>
    obtain ⟨o', s'⟩ := p
    obtain ⟨f', hrun, hf'⟩ := hx f o' s' hr
    rw [hr] at h
    rw [Action.bind_apply, hrun]
    cases o' with
    | next =>
      subst hf'
      exact hy f' o s h
    | returned =>
      cases h
      exact ⟨f', rfl, hf'⟩
    | unknown name =>
      cases h
      exact ⟨f', rfl, hf'⟩

theorem Follows.execBlock_cons {c : Code} {body : List Code} {r r' : Effect (EngineState F64)}
    (hc : Follows (exec N c) r)
    (hbody : Follows (execBlock N body) r') : Follows (execBlock N (c :: body)) (seq r r') := by
  rw [execBlock]
  exact hc.andThen hbody

/-- A clause follows its test and its block. -/
theorem Follows.clause {test : Text} {body : List Code} {clauses : List (Clause Text Text)}
    {otherwise : Run F64 Flow} {b : EngineState F64 → Bool} {r r' : Effect (EngineState F64)}
    (htest : ∀ f, N.test test f = (.ok (b f.engine), f)) (hbody : Follows (execBlock N body) r)
    (hrest : Follows (execClauses N clauses otherwise) r') :
    Follows (execClauses N (.mk test body :: clauses) otherwise)
      (fun s => if b s then r s else r' s) := by
  intro f o s h
  rw [execClauses, Action.bind_apply, htest, Action.andThen_ok]
  cases hb : b f.engine with
  | true =>
    simp only [hb, if_true] at h ⊢
    exact hbody f o s h
  | false =>
    simp only [hb, Bool.false_eq_true, if_false] at h ⊢
    exact hrest f o s h

/-- An empty block gets a `pass`. -/
theorem execBlock_orPass (body : List Code) :
    execBlock N (orPass body) = execBlock N body := by
  cases body with
  | nil => rfl
  | cons c body => rfl

/-! ## Loops -/

/-- One iteration of a loop over a range, and what comes after it. -/
def iteration (body next : Run F64 Flow) : Run F64 Flow := do
  let flow ← body
  match flow with
  | .next => next
  | .break_ => pure .next
  | .return_ => pure .return_

/-- A loop over a range against a loop of the program with as many iterations. -/
theorem follows_iterate {body : Int → Run F64 Flow} {loop : Nat → Effect (EngineState F64)}
    (hend : Follows (pure .next) (loop 0))
    (hstep : ∀ n k next, Follows next (loop n) → Follows (iteration (body k) next) (loop (n + 1)))
    (ns : List Int) : Follows (iterate body ns) (loop ns.length) := by
  induction ns with
  | nil => exact hend
  | cons k ns ih => exact hstep ns.length k _ ih

theorem iteration_break {x next : Run F64 Flow} {f f' : Frame F64}
    (h : x f = (.ok .break_, f')) : iteration x next f = (.ok .next, f') := by
  unfold iteration
  rw [Action.bind_apply, h]
  rfl

/-- The end of an iteration that the program's loop does not leave. -/
theorem Follows.iteration_next {x next : Run F64 Flow} {r' : Effect (EngineState F64)}
    {f f' : Frame F64} {o : Outcome} (o' : Outcome) {s : EngineState F64} (hx : x f = (o'.flow, f'))
    (hnext : Follows next r')
    (h : seq (fun _ => some (o', f'.engine)) r' f.engine = some (o, s)) :
    ∃ f'', iteration x next f = (o.flow, f'') ∧ f''.engine = s := by
  unfold iteration
  rw [Action.bind_apply, hx]
  cases o' with
  | next => exact hnext f' o s h
  | returned =>
    cases h
    exact ⟨f', rfl, rfl⟩
  | unknown name =>
    cases h
    exact ⟨f', rfl, rfl⟩

/-- The line that leaves a loop. -/
theorem exec_breakIf {test : Text} {b : Bool} {f : Frame F64} (h : N.test test f = (.ok b, f)) :
    exec N (.if_ [.mk test [.break_]] []) f = (.ok (if b then .break_ else .next), f) := by
  rw [exec, execClauses, Action.bind_apply, h, Action.andThen_ok]
  cases b <;> rfl

/-- The loop with a break follows the WHILE that it stands for. -/
theorem follows_whileLoop {test : Text} {body : List Code} {condition : EngineState F64 → Bool}
    {r : Effect (EngineState F64)} (htest : ∀ f, N.test test f = (.ok (!condition f.engine), f))
    (hbody : Follows (execBlock N body) r) (ns : List Int) :
    Follows (iterate (fun k f => execBlock N (.if_ [.mk test [.break_]] [] :: body)
      (f.bind ['_'] k)) ns) (whileLoop condition r ns.length) := by
  apply follows_iterate
  · intro f o s h
    unfold whileLoop at h
    cases hc : condition f.engine with
    | true => simp [hc] at h
    | false =>
      simp only [hc, Bool.false_eq_true, if_false] at h
      exact follows_next f o s h
  · intro n k next hnext f o s h
    have hfirst := exec_breakIf (htest (f.bind ['_'] k))
    have hengine : (f.bind ['_'] k).engine = f.engine := rfl
    unfold whileLoop at h
    cases hc : condition f.engine with
    | false =>
      simp only [hc, Bool.false_eq_true, if_false] at h
      cases h
      refine ⟨f.bind ['_'] k, iteration_break ?_, rfl⟩
      rw [execBlock, Action.bind_apply, hfirst, hengine, hc]
      rfl
    | true =>
      simp only [hc, if_true] at h
      have hrest : execBlock N (.if_ [.mk test [.break_]] [] :: body) (f.bind ['_'] k) =
          execBlock N body (f.bind ['_'] k) := by
        rw [execBlock, Action.bind_apply, hfirst, hengine, hc]
        rfl
      cases hr : r f.engine with
      | none => simp [seq, hr] at h
      | some p =>
        obtain ⟨o', s'⟩ := p
        obtain ⟨f', hrun, rfl⟩ := hbody (f.bind ['_'] k) o' s' hr
        refine Follows.iteration_next _ (hrest.trans hrun) hnext ?_
        simpa only [seq, hr] using h

/-- The loop that breaks at its end follows the REPEAT. -/
theorem follows_repeatLoop {test : Text} {body : List Code} {condition : EngineState F64 → Bool}
    {r : Effect (EngineState F64)} (htest : ∀ f, N.test test f = (.ok (condition f.engine), f))
    (hbody : Follows (execBlock N body) r) (ns : List Int) :
    Follows (iterate (fun k f => execBlock N (body ++ [.if_ [.mk test [.break_]] []])
      (f.bind ['_'] k)) ns) (repeatLoop r condition ns.length) := by
  apply follows_iterate
  · intro f o s h
    cases h
  · intro n k next hnext f o s h
    unfold repeatLoop at h
    cases hr : r f.engine with
    | none => simp [seq, hr] at h
    | some p =>
      obtain ⟨o', s'⟩ := p
      obtain ⟨f', hrun, rfl⟩ := hbody (f.bind ['_'] k) o' s' hr
      have happend := congrFun (execBlock_append N body [.if_ [.mk test [.break_]] []])
        (f.bind ['_'] k)
      rw [Action.bind_apply, hrun] at happend
      cases o' with
      | next =>
        have hlast := exec_breakIf (htest f')
        have hend : execBlock N (body ++ [.if_ [.mk test [.break_]] []]) (f.bind ['_'] k) =
            (.ok (if condition f'.engine then .break_ else .next), f') := by
          have hblock : execBlock N [.if_ [.mk test [.break_]] []] f' =
              (.ok (if condition f'.engine then .break_ else .next), f') := by
            rw [execBlock, Action.bind_apply, hlast, Action.andThen_ok]
            cases condition f'.engine <;> rfl
          exact happend.trans hblock
        simp only [seq, hr] at h
        cases hc : condition f'.engine with
        | true =>
          simp only [hc, if_true] at h hend
          cases h
          exact ⟨f', iteration_break hend, rfl⟩
        | false =>
          simp only [hc, Bool.false_eq_true, if_false] at h hend
          exact Follows.iteration_next .next hend hnext h
      | returned =>
        simp only [seq, hr] at h
        exact Follows.iteration_next .returned happend hnext h
      | unknown name =>
        simp only [seq, hr] at h
        exact Follows.iteration_next (.unknown name) happend hnext h

end Simulation

/-! ## Statements -/

section Statements

variable {F64 O V : Type} [GoFloat64 F64] [GoFloat64OfInt F64] [GoQuote] [Words] [Runtime F64 O]
variable {M : Meaning F64 V} {C : Context}

omit [GoQuote] [Words] in
theorem name_unquoted {name : Text} (h : isName name = true) :
    name.all (· ≠ '\'') = true := by
  rw [List.all_eq_true]
  intro c hc
  have hne : c ≠ '\'' := by
    rintro rfl
    exact notMem_name h rfl (by decide) hc
  simpa using hne

/-- The call that sets a variable follows the assignment. -/
theorem follows_assign {target : Text} {value : Expression} (htarget : isName target = true)
    (hw : exprWellFormed value = true) (hlocal : C.isLocal setVarWord = false)
    (h : SameValue O M C value) :
    Follows (exec (machine O C) (setVar target value)) (assign M C.now target value) := by
  intro f o s hassign
  obtain ⟨w, hvalue, hstored, -⟩ := h f
  unfold Evaluates at hvalue
  have heffect := effect_setVar (O := O) (name_unquoted htarget) hw hlocal f
  rw [Action.bind_apply, hvalue, Action.andThen_ok, Action.bind_apply, builtinSetVar, hstored]
    at heffect
  have hexec : exec (machine O C) (setVar target value) f =
      Action.andThen ((machine O C).effect (setVarText target value) f) fun _ => pure .next := rfl
  unfold assign at hassign
  rw [hexec, heffect]
  cases hset : VariableStore.set f.engine.vars (key target)
      (M.stored (M.value value f.engine)) C.now with
  | mk vars known =>
    rw [hset] at hassign
    cases known with
    | true =>
      cases hassign
      exact ⟨_, rfl, rfl⟩
    | false =>
      cases hassign
      exact ⟨f, rfl, rfl⟩

/-- The range of a loop has as many numbers as a loop may have iterations. -/
theorem range_maxLoopIterations (hlocal : C.isLocal rangeWord = false) (f : Frame F64) :
    ∃ ns : List Int, ns.length = maxLoopIterations ∧
      (machine O C).range ['_'] [itoa maxLoopIterations] f = (.ok ns, f) := by
  have hblank : Words.reserved ['_'] = false := Words.blank_name
  have hliteral : Runtime.literal (itoa maxLoopIterations) =
      some (.int maxLoopIterations : Value F64 O) := by
    have hdigits : itoa maxLoopIterations = Nat.toDigits 10 maxLoopIterations := by
      rw [itoa, if_neg (Int.not_lt.mpr (Int.natCast_nonneg _)), Int.natAbs_natCast]
    rw [hdigits]
    exact Runtime.literal_digits maxLoopIterations
  have hnumber : isNumber (itoa maxLoopIterations) = true := by decide
  have hvalue := evaluates_numberLit (C := C) hnumber hliteral f
  unfold Evaluates at hvalue
  have hexpr : expr (.numberLit (itoa maxLoopIterations)) = itoa maxLoopIterations := rfl
  rw [hexpr] at hvalue
  have hrange : rangeOf 0 maxLoopIterations 1 = .ok (rangeList 0 maxLoopIterations 1) := by
    have hin : inInt64 0 ∧ inInt64 maxLoopIterations ∧ inInt64 1 ∧ (1 : Int) ≠ 0 := by decide
    rw [rangeOf, if_pos hin]
  have hlength : rangeLen 0 maxLoopIterations 1 = maxLoopIterations := by decide
  refine ⟨rangeList 0 maxLoopIterations 1, ?_, ?_⟩
  · simp [rangeList, hlength]
  · simp only [machine, hblank, hlocal, Bool.false_eq_true, if_false, Action.bind_apply, evalTexts,
      hvalue, Action.andThen_ok, Action.pure_apply, rangeValues, hrange, lift]

/-- The range of the loop gives it its iterations. -/
theorem follows_range (hlocal : C.isLocal rangeWord = false) {body : List Code}
    {r : Effect (EngineState F64)}
    (h : ∀ ns : List Int, ns.length = maxLoopIterations →
      Follows (iterate (fun k f => execBlock (machine O C) body (f.bind ['_'] k)) ns) r) :
    Follows (exec (machine O C) (.forRange ['_'] [itoa maxLoopIterations] body)) r := by
  intro f o s hr
  obtain ⟨ns, hlength, hrange⟩ := range_maxLoopIterations (O := O) hlocal f
  rw [exec, Action.bind_apply, hrange, Action.andThen_ok]
  exact h ns hlength f o s hr

mutual

/-- The code of a statement follows it, if no clause compares a negation. -/
theorem follows_stmt (hset : C.isLocal setVarWord = false) (hrange : C.isLocal rangeWord = false) :
    ∀ stmt' : Statement, stmtWellFormed stmt' = true → Translated O M C stmt' →
      casesMeet isPlainOperand isPlainOperand stmt' = true →
      Follows (exec (machine O C) (stmt stmt')) (run M C.now maxLoopIterations stmt')
  | .assignStmt target value, hw, h, _ => by
    simp only [stmtWellFormed, Bool.and_eq_true] at hw
    exact follows_assign hw.1 hw.2 hset h
  | .ifStmt condition thenBody elsIfs elseBody, hw, h, hp => by
    simp only [stmtWellFormed, Bool.and_eq_true] at hw
    simp only [casesMeet, Bool.and_eq_true] at hp
    obtain ⟨⟨⟨-, hthen⟩, helsIfs⟩, helse⟩ := hw
    obtain ⟨hc, hthen', helsIfs', helse'⟩ := h
    refine Follows.clause (test_expr hc) ?_
      (follows_elsIfs hset hrange elsIfs helsIfs helsIfs' hp.1.2
        (follows_block hset hrange elseBody helse helse' hp.2))
    rw [execBlock_orPass]
    exact follows_block hset hrange thenBody hthen hthen' hp.1.1
  | .whileStmt condition body, hw, h, hp => by
    simp only [stmtWellFormed, Bool.and_eq_true] at hw
    obtain ⟨hc, hbody⟩ := h
    apply follows_range hrange
    intro ns hlength
    rw [run, ← hlength]
    refine follows_whileLoop (test_not_expr hw.1 hc) ?_ ns
    rw [execBlock_orPass, hlength]
    exact follows_block hset hrange body hw.2 hbody hp
  | .repeatStmt body condition, hw, h, hp => by
    simp only [stmtWellFormed, Bool.and_eq_true] at hw
    obtain ⟨hbody, hc⟩ := h
    apply follows_range hrange
    intro ns hlength
    rw [run, ← hlength]
    refine follows_repeatLoop (test_expr hc) ?_ ns
    rw [execBlock_orPass, hlength]
    exact follows_block hset hrange body hw.1 hbody hp
  | .caseStmt selector cases elseBody, hw, h, hp => by
    simp only [stmtWellFormed, Bool.and_eq_true] at hw
    simp only [casesMeet, isPlainOperand, Bool.and_eq_true, Bool.not_eq_true'] at hp
    obtain ⟨⟨hselector, hcases⟩, helse⟩ := hw
    obtain ⟨hvalue, -, hcases', helse'⟩ := h
    exact follows_cases hset hrange hselector hvalue hp.1.1 cases hcases hcases' hp.1.2
      (follows_block hset hrange elseBody helse helse' hp.2)
  | .returnStmt, _, _, _ => fun f o s h => by
    cases h
    exact ⟨f, rfl, rfl⟩
  | .forStmt _ _ _ _ _, _, h, _ => h.elim
  | .callStmt _ _, _, h, _ => h.elim

theorem follows_block (hset : C.isLocal setVarWord = false)
    (hrange : C.isLocal rangeWord = false) : ∀ body : List Statement,
    blockWellFormed body = true → BlockTranslated O M C body →
    blockMeets isPlainOperand isPlainOperand body = true →
      Follows (execBlock (machine O C) (block body)) (runBlock M C.now maxLoopIterations body)
  | [], _, _, _ => follows_next
  | stmt' :: body, hw, h, hp => by
    simp only [blockWellFormed, Bool.and_eq_true] at hw
    simp only [blockMeets, Bool.and_eq_true] at hp
    exact (follows_stmt hset hrange stmt' hw.1 h.1 hp.1).execBlock_cons
      (follows_block hset hrange body hw.2 h.2 hp.2)

theorem follows_elsIfs (hset : C.isLocal setVarWord = false)
    (hrange : C.isLocal rangeWord = false) : ∀ clauses : List ElsIfClause,
    elsIfsWellFormed clauses = true → ElsIfsTranslated O M C clauses →
    elsIfsMeet isPlainOperand isPlainOperand clauses = true →
    ∀ {otherwise : Run F64 Flow} {r : Effect (EngineState F64)}, Follows otherwise r →
      Follows (execClauses (machine O C) (elsIfClauses clauses) otherwise)
        (runElsIfs M C.now maxLoopIterations clauses r)
  | [], _, _, _, _, _, hotherwise => hotherwise
  | .mk condition body :: clauses, hw, h, hp, _, _, hotherwise => by
    simp only [elsIfsWellFormed, Bool.and_eq_true] at hw
    simp only [elsIfsMeet, Bool.and_eq_true] at hp
    refine Follows.clause (test_expr h.1) ?_
      (follows_elsIfs hset hrange clauses hw.2 h.2.2 hp.2 hotherwise)
    rw [execBlock_orPass]
    exact follows_block hset hrange body hw.1.2 h.2.1 hp.1

theorem follows_cases (hset : C.isLocal setVarWord = false)
    (hrange : C.isLocal rangeWord = false) {selector : Expression}
    (hselector : exprWellFormed selector = true) (hvalue : SameValue O M C selector)
    (hplain : isNot selector = false) : ∀ clauses : List CaseClause,
    clausesWellFormed clauses = true → CasesTranslated O M C selector clauses →
    clausesMeet isPlainOperand isPlainOperand clauses = true →
    ∀ {otherwise : Run F64 Flow} {r : Effect (EngineState F64)}, Follows otherwise r →
      Follows (execClauses (machine O C) (caseClauses (expr selector) clauses) otherwise)
        (runCases M C.now maxLoopIterations selector clauses r)
  | [], _, _, _, _, _, hotherwise => hotherwise
  | .mk values body :: clauses, hw, h, hp, _, _, hotherwise => by
    simp only [clausesWellFormed, Bool.and_eq_true, Bool.not_eq_true'] at hw
    simp only [clausesMeet, isPlainOperand, Bool.and_eq_true, List.all_eq_true,
      Bool.not_eq_true'] at hp
    obtain ⟨⟨⟨hne, hvalues⟩, hbody⟩, hclauses⟩ := hw
    have hcomparison : ∀ e ∈ values, SameComparison O M C selector e := fun e he =>
      sameComparison_of_sameValue hselector (mem_wellFormed hvalues e he) hplain (hp.1.1 e he)
        hvalue (h.1 e he).1 (h.1 e he).2
    refine Follows.clause (test_caseTest hselector hne hvalues hcomparison) ?_
      (follows_cases hset hrange hselector hvalue hplain clauses hclauses h.2.2 hp.2 hotherwise)
    rw [execBlock_orPass]
    exact follows_block hset hrange body hbody h.2.1 hp.1.2

end

/-! The only local variable of the function is that of the ranges. -/

omit [GoQuote] [Words] in
theorem assignedBlock_append (first second : List Code) :
    assignedBlock (first ++ second) = assignedBlock first ++ assignedBlock second := by
  induction first with
  | nil => rfl
  | cons c first ih => rw [List.cons_append, assignedBlock, ih, assignedBlock, List.append_assoc]

omit [GoQuote] [Words] in
theorem mem_assigned_orPass {body : List Code} {w : Text} (h : w ∈ assignedBlock (orPass body)) :
    w ∈ assignedBlock body := by
  cases body with
  | nil => simp [orPass, assignedBlock, assigned] at h
  | cons c body => exact h

mutual

/-- The code of a statement assigns no variable of its own but `_`. -/
theorem assigned_stmt {w : Text} : ∀ stmt' : Statement, Translated O M C stmt' →
    w ∈ assigned (stmt stmt') → w = ['_']
  | .assignStmt _ _, _, hw => by simp [stmt, setVar, assigned] at hw
  | .ifStmt _ thenBody elsIfs elseBody, h, hw => by
    simp only [stmt, assigned, assignedClauses, List.mem_append] at hw
    obtain ⟨-, hthen, helsIfs, helse⟩ := h
    rcases hw with (hw | hw) | hw
    · exact assigned_block thenBody hthen (mem_assigned_orPass hw)
    · exact assigned_elsIfs elsIfs helsIfs hw
    · exact assigned_block elseBody helse hw
  | .whileStmt _ body, h, hw => by
    simp only [stmt, assigned, assignedBlock, assignedClauses, List.append_nil, List.nil_append,
      List.mem_cons] at hw
    rcases hw with hw | hw
    · exact hw
    · exact assigned_block body h.2 (mem_assigned_orPass hw)
  | .repeatStmt body _, h, hw => by
    simp only [stmt, assigned, assignedBlock_append, assignedBlock, assignedClauses,
      List.append_nil, List.mem_cons] at hw
    rcases hw with hw | hw
    · exact hw
    · exact assigned_block body h.1 (mem_assigned_orPass hw)
  | .caseStmt _ cases elseBody, h, hw => by
    simp only [stmt, assigned, List.mem_append] at hw
    rcases hw with hw | hw
    · exact assigned_cases cases h.2.2.1 hw
    · exact assigned_block elseBody h.2.2.2 hw
  | .returnStmt, _, hw => by simp [stmt, assigned] at hw
  | .forStmt _ _ _ _ _, h, _ => h.elim
  | .callStmt _ _, h, _ => h.elim

theorem assigned_block {w : Text} : ∀ body : List Statement, BlockTranslated O M C body →
    w ∈ assignedBlock (block body) → w = ['_']
  | [], _, hw => by simp [block, assignedBlock] at hw
  | stmt' :: body, h, hw => by
    simp only [block, assignedBlock, List.mem_append] at hw
    rcases hw with hw | hw
    · exact assigned_stmt stmt' h.1 hw
    · exact assigned_block body h.2 hw

theorem assigned_elsIfs {w : Text} : ∀ clauses : List ElsIfClause, ElsIfsTranslated O M C clauses →
    w ∈ assignedClauses (elsIfClauses clauses) → w = ['_']
  | [], _, hw => by simp [elsIfClauses, assignedClauses] at hw
  | .mk _ body :: clauses, h, hw => by
    simp only [elsIfClauses, assignedClauses, List.mem_append] at hw
    rcases hw with hw | hw
    · exact assigned_block body h.2.1 (mem_assigned_orPass hw)
    · exact assigned_elsIfs clauses h.2.2 hw

theorem assigned_cases {w : Text} {selector : Expression} : ∀ clauses : List CaseClause,
    CasesTranslated O M C selector clauses →
    w ∈ assignedClauses (caseClauses (expr selector) clauses) → w = ['_']
  | [], _, hw => by simp [caseClauses, assignedClauses] at hw
  | .mk _ body :: clauses, h, hw => by
    simp only [caseClauses, assignedClauses, List.mem_append] at hw
    rcases hw with hw | hw
    · exact assigned_block body h.2.1 (mem_assigned_orPass hw)
    · exact assigned_cases clauses h.2.2 hw

end

theorem SameValue.reading {e : Expression} (hw : exprWellFormed e = true)
    (h : SameValue O M C e) (f : Frame F64) : ∃ t, StReading.reading e = some t := by
  obtain ⟨w, hvalue, -, -⟩ := h f
  obtain ⟨t, ht, -⟩ := hvalue.reading hw
  exact ⟨t, ht⟩

theorem SameValue.readable {e : Expression} (hw : exprWellFormed e = true)
    (h : SameValue O M C e) (f : Frame F64) : (Starlark.read (expr e)).isSome = true := by
  obtain ⟨t, ht⟩ := h.reading hw f
  rw [read_expr hw, ht]
  rfl

/-- The test of a clause can be read unless one of its values is a NOT. -/
theorem readable_caseTest {selector : Expression} {values : List Expression}
    (hs : exprWellFormed selector = true) (hne : values.isEmpty = false)
    (hvs : argsWellFormed values = true) (hselector : SameValue O M C selector)
    (hvalues : ∀ e ∈ values, SameValue O M C e) (f : Frame F64) :
    (Starlark.read (caseTest (expr selector) (exprs values))).isSome =
      values.all isPlainOperand := by
  obtain ⟨l, hl⟩ := hselector.reading hs f
  have hreading : ∀ e ∈ values, ∃ r, reading (.binaryExpr selector .equal e) =
      if isNot e then none else some (hoist .equal r selector l) := by
    intro e he
    obtain ⟨r, hr⟩ := (hvalues e he).reading (mem_wellFormed hvs e he) f
    have hop : isLogic .equal = false := rfl
    exact ⟨r, by simp only [reading, hl, hr, Option.bind_eq_bind, Option.bind_some, hop,
      Bool.false_eq_true, if_false]⟩
  cases values with
  | nil => cases hne
  | cons v vs =>
    cases hall : (v :: vs).all isPlainOperand with
    | true =>
      let t : Expression → Tree := fun e =>
        (reading (.binaryExpr selector .equal e)).getD (.name [])
      have ht : ∀ e ∈ v :: vs, reading (.binaryExpr selector .equal e) = some (t e) := by
        intro e he
        have hplain : isNot e = false := by
          simpa [isPlainOperand] using List.all_eq_true.mp hall e he
        obtain ⟨r, hr⟩ := hreading e he
        rw [hplain] at hr
        simp [t, hr]
      rw [read_caseTest hs hvs ht]
      rfl
    | false =>
      obtain ⟨e, he, hnot⟩ := List.all_eq_false.mp hall
      have hnone : reading (.binaryExpr selector .equal e) = none := by
        have hisNot : isNot e = true := by simpa [isPlainOperand] using hnot
        obtain ⟨r, hr⟩ := hreading e he
        rw [hr, hisNot]
        rfl
      rw [read_caseTest_none hs hvs ⟨e, he, hnone⟩]
      rfl

/-- The loop that stands for a WHILE is readable if its body is. -/
theorem readable_loop {body : List Code} :
    readable (.forRange ['_'] [itoa maxLoopIterations] body) = readableBlock body := by
  have hnumber : exprWellFormed (.numberLit (itoa maxLoopIterations)) = true := by decide
  have hexpr : expr (.numberLit (itoa maxLoopIterations)) = itoa maxLoopIterations := rfl
  have hreading : reading (.numberLit (itoa maxLoopIterations)) =
      some (.literal (itoa maxLoopIterations)) := rfl
  have hread := read_expr hnumber
  rw [hexpr, hreading] at hread
  have hblank : Words.reserved ['_'] = false := Words.blank_name
  simp only [readable, hblank, hread, List.all_cons, List.all_nil, Option.isSome_some,
    Bool.not_false, Bool.and_self, Bool.true_and]

mutual

/-- Starlark can read the generated statements exactly when no value of a CASE is a NOT. -/
theorem readable_stmt (f : Frame F64) : ∀ stmt' : Statement, stmtWellFormed stmt' = true →
    Translated O M C stmt' →
      readable (stmt stmt') = casesMeet (fun _ => true) isPlainOperand stmt'
  | .assignStmt target value, hw, h => by
    simp only [stmtWellFormed, Bool.and_eq_true] at hw
    obtain ⟨t, ht⟩ := SameValue.reading hw.2 h f
    exact readable_setVar (name_unquoted hw.1) hw.2 ht
  | .ifStmt condition thenBody elsIfs elseBody, hw, h => by
    simp only [stmtWellFormed, Bool.and_eq_true] at hw
    obtain ⟨⟨⟨hwc, hthen⟩, helsIfs⟩, helse⟩ := hw
    obtain ⟨hc, hthen', helsIfs', helse'⟩ := h
    rw [stmt, readable, readableClauses, hc.readable hwc f, readableBlock_orPass,
      readable_block f thenBody hthen hthen', readable_elsIfs f elsIfs helsIfs helsIfs',
      readable_block f elseBody helse helse', casesMeet, Bool.true_and]
  | .whileStmt condition body, hw, h => by
    simp only [stmtWellFormed, Bool.and_eq_true] at hw
    obtain ⟨t, ht⟩ := SameValue.reading hw.1 h.1 f
    have htest : (Starlark.read ("not (".toList ++ expr condition ++ [')'])).isSome = true := by
      rw [read_not_parenthesised hw.1, ht]
      rfl
    have hbreak : readable (.if_ [.mk ("not (".toList ++ expr condition ++ [')']) [.break_]] []) =
        true := by
      rw [readable, readableClauses, htest]
      rfl
    rw [stmt, readable_loop, readableBlock, hbreak, Bool.true_and, readableBlock_orPass,
      readable_block f body hw.2 h.2, casesMeet]
  | .repeatStmt body condition, hw, h => by
    simp only [stmtWellFormed, Bool.and_eq_true] at hw
    have hbreak : readableBlock [.if_ [.mk (expr condition) [.break_]] []] = true := by
      rw [readableBlock, readable, readableClauses, h.2.readable hw.2 f]
      rfl
    rw [stmt, readable_loop, readableBlock_append, hbreak, Bool.and_true, readableBlock_orPass,
      readable_block f body hw.1 h.1, casesMeet]
  | .caseStmt selector cases elseBody, hw, h => by
    simp only [stmtWellFormed, Bool.and_eq_true] at hw
    obtain ⟨⟨hselector, hcases⟩, helse⟩ := hw
    obtain ⟨hvalue, -, hcases', helse'⟩ := h
    rw [stmt, readable, readable_cases f hselector hvalue cases hcases hcases',
      readable_block f elseBody helse helse', casesMeet, Bool.true_and]
  | .returnStmt, _, _ => rfl
  | .forStmt _ _ _ _ _, _, h => h.elim
  | .callStmt _ _, _, h => h.elim

/-- A block can be read exactly if no comparison of its clauses has a negation for an operand. -/
theorem readable_block (f : Frame F64) : ∀ body : List Statement, blockWellFormed body = true →
    BlockTranslated O M C body →
      readableBlock (block body) = blockMeets (fun _ => true) isPlainOperand body
  | [], _, _ => rfl
  | stmt' :: body, hw, h => by
    simp only [blockWellFormed, Bool.and_eq_true] at hw
    rw [block, readableBlock, readable_stmt f stmt' hw.1 h.1, readable_block f body hw.2 h.2,
      blockMeets]

theorem readable_elsIfs (f : Frame F64) : ∀ clauses : List ElsIfClause,
    elsIfsWellFormed clauses = true → ElsIfsTranslated O M C clauses →
      readableClauses (elsIfClauses clauses) = elsIfsMeet (fun _ => true) isPlainOperand clauses
  | [], _, _ => rfl
  | .mk condition body :: clauses, hw, h => by
    simp only [elsIfsWellFormed, Bool.and_eq_true] at hw
    rw [elsIfClauses, readableClauses, h.1.readable hw.1.1 f, readableBlock_orPass,
      readable_block f body hw.1.2 h.2.1, readable_elsIfs f clauses hw.2 h.2.2, elsIfsMeet,
      Bool.true_and]

theorem readable_cases (f : Frame F64) {selector : Expression}
    (hselector : exprWellFormed selector = true) (hvalue : SameValue O M C selector) :
    ∀ clauses : List CaseClause, clausesWellFormed clauses = true →
    CasesTranslated O M C selector clauses →
      readableClauses (caseClauses (expr selector) clauses) =
        clausesMeet (fun _ => true) isPlainOperand clauses
  | [], _, _ => rfl
  | .mk values body :: clauses, hw, h => by
    simp only [clausesWellFormed, Bool.and_eq_true, Bool.not_eq_true'] at hw
    obtain ⟨⟨⟨hne, hvalues⟩, hbody⟩, hclauses⟩ := hw
    rw [caseClauses, readableClauses,
      readable_caseTest hselector hne hvalues hvalue (fun e he => (h.1 e he).1) f,
      readableBlock_orPass, readable_block f body hbody h.2.1,
      readable_cases f hselector hvalue clauses hclauses h.2.2, clausesMeet]

end

end Statements

/-! ## A choice and a loop -/

section Choice

variable {C : Context}

end Choice

end StStatements
