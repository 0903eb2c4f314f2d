import Tentacle.StCountedParser
import Tentacle.StLexerCost

/-!
# Structured Text: the front end is linear

With a worth of a hundred for each token, the tokens that a function of the parser reads pay for
its calls and loop iterations and for the nodes it builds. Statements and expressions leave
something over, which pays for the loops around them.
-/

namespace StFrontEnd
open StSyntax StCountedParser StLexerCost
open StParser (ParseError Item program isType endsArgs endsClauses insideVarBlock insideProgram
  isVarBlockStart)
open RecursiveDescent (head)
open RecursiveDescent.Counted

/-! ## Nodes of the syntax tree -/

mutual

def exprNodes : Expression → Nat
  | .binaryExpr left _ right => 1 + exprNodes left + exprNodes right
  | .unaryExpr _ operand => 1 + exprNodes operand
  | .callExpr _ args => 1 + argsNodes args
  | .memberExpr object _ => 1 + exprNodes object
  | .numberLit _ => 1
  | .stringLit _ => 1
  | .boolLit _ => 1
  | .identExpr _ => 1
  | .timeLit _ => 1

def argsNodes : List Expression → Nat
  | [] => 0
  | e :: es => exprNodes e + argsNodes es

end

mutual

/-- The source keeps the call of a call statement in a node of its own. -/
def stmtNodes : Statement → Nat
  | .assignStmt _ value => 1 + exprNodes value
  | .ifStmt condition thenBody elsIfs elseBody =>
    1 + exprNodes condition + blockNodes thenBody + elsIfsNodes elsIfs + blockNodes elseBody
  | .forStmt _ start stop step body =>
    1 + exprNodes start + exprNodes stop + argsNodes step.toList + blockNodes body
  | .whileStmt condition body => 1 + exprNodes condition + blockNodes body
  | .repeatStmt body condition => 1 + blockNodes body + exprNodes condition
  | .caseStmt expression cases elseBody =>
    1 + exprNodes expression + casesNodes cases + blockNodes elseBody
  | .callStmt _ args => 2 + argsNodes args
  | .returnStmt => 1

def blockNodes : List Statement → Nat
  | [] => 0
  | s :: body => stmtNodes s + blockNodes body

def elsIfsNodes : List ElsIfClause → Nat
  | [] => 0
  | .mk condition body :: clauses =>
    1 + exprNodes condition + blockNodes body + elsIfsNodes clauses

def casesNodes : List CaseClause → Nat
  | [] => 0
  | .mk values body :: clauses => 1 + argsNodes values + blockNodes body + casesNodes clauses

end

def varDeclNodes (decl : VarDecl) : Nat := 1 + argsNodes decl.initial.toList

def varBlockNodes (block : VarBlock) : Nat := 1 + total varDeclNodes block.vars

def programNodes (prog : Program) : Nat :=
  1 + total varBlockNodes prog.varBlocks + blockNodes prog.statements

theorem argsNodes_eq (args : List Expression) : argsNodes args = total exprNodes args := by
  induction args with
  | nil => rfl
  | cons e es ih => rw [argsNodes, ih, total_cons]

theorem blockNodes_eq (body : List Statement) : blockNodes body = total stmtNodes body := by
  induction body with
  | nil => rw [blockNodes, total_nil]
  | cons s body ih => rw [blockNodes, ih, total_cons]

theorem elsIfsNodes_eq (clauses : List ElsIfClause) :
    elsIfsNodes clauses = total (fun clause => elsIfsNodes [clause]) clauses := by
  induction clauses with
  | nil => rw [elsIfsNodes, total_nil]
  | cons clause clauses ih =>
    obtain ⟨condition, body⟩ := clause
    rw [elsIfsNodes, total_cons, ← ih, elsIfsNodes, elsIfsNodes, Nat.add_zero]

theorem casesNodes_eq (clauses : List CaseClause) :
    casesNodes clauses = total (fun clause => casesNodes [clause]) clauses := by
  induction clauses with
  | nil => rw [casesNodes, total_nil]
  | cons clause clauses ih =>
    obtain ⟨values, body⟩ := clause
    rw [casesNodes, total_cons, ← ih, casesNodes, casesNodes, Nat.add_zero]

/-! ## Expressions pay for themselves

A token is worth a hundred. -/

section Steps

variable {α : Type} {ts : List Token} {Q : α → List Token → Nat → Prop} {E : Nat → Prop}

theorem length_pos_of_type {type : TokenType} (h : (head ts).type = type) (htype : type ≠ .eof) :
    0 < ts.length := by
  cases ts with
  | nil => exact absurd h.symm htype
  | cons t rest => simp

theorem runs_match {type : TokenType} {f : Bool → C α}
    (h : ∀ found rest, rest.length ≤ ts.length →
      Runs (f found) rest (fun a rest' c => Q a rest' (4 + c)) (fun c => E (4 + c))) :
    Runs (match_ type >>= f) ts Q E :=
  runs_accept (fun _ => h true ts.tail (by simp)) fun _ => h false ts (Nat.le_refl _)

/-- A token that is expected costs three steps, whether it is there or not. -/
theorem runs_expect {type : TokenType} (htype : type ≠ .eof) :
    Runs (expect type) ts (fun _ rest c => c = 3 ∧ rest.length + 1 = ts.length) (· = 3) := by
  unfold Runs
  rw [parser_expect, StParser.expect]
  by_cases h : (head ts).type = type
  · have hpos := length_pos_of_type h htype
    rw [if_pos h]
    refine ⟨rfl, ?_⟩
    rw [List.length_tail]
    omega
  · rw [if_neg h]
    rfl

end Steps

section Expressions

/-- A member pays for itself with its two tokens. -/
theorem pays_parseMember (n : Nat) :
    Pays 100 n (isType .dot) (fun member => total (fun _ => 0) member.toList) 2 0 parseMember := by
  intro ts _ hdot
  have hpos := length_pos_of_type (eq_of_beq hdot) (by decide)
  apply runs_advance
  apply runs_advance
  apply runs_pure
  simp only [Option.toList_some, total_cons, total_nil, List.length_tail]
  omega

/-- The members of a name cost a constant for each token. -/
theorem runs_parseMembers (name : Text) (ts : List Token) :
    Runs (parseMembers name) ts (fun _ rest c => c + 100 * rest.length ≤ 1 + 100 * ts.length)
      (fun c => c ≤ 2 + 100 * ts.length) := by
  refine (runs_many (pays_parseMember _) (Nat.lt_succ_self _)).bind ?_ ?_
  · rintro members rest c ⟨-, hpaid⟩
    exact runs_pure hpaid
  · intro c hc
    omega

variable {n : Nat} {expression : C Expression}

/-- The arguments of a call pay for themselves with their tokens. -/
theorem runs_parseCallArgs
    (h : Pays 100 n (fun _ => true) exprNodes 50 20 expression) {ts : List Token}
    (hlt : ts.length < n) :
    Runs (parseCallArgs expression) ts
      (fun args rest c => 1 + argsNodes args ≤ c ∧ c + 100 * rest.length ≤ 14 + 100 * ts.length)
      (fun c => c ≤ 27 + 100 * ts.length) := by
  apply runs_call
  apply runs_advance
  have hargs : Pays 100 n (fun t => !endsArgs t) exprNodes 50 20 expression :=
    h.imp (Nat.le_refl _) (fun _ _ => rfl) (Nat.le_refl _) (Nat.le_refl _)
  refine (runs_separated hargs (by decide) (by omega)
    (by rw [List.length_tail]; omega)).bind ?_ ?_
  · rintro args rest c ⟨hsize, hpaid⟩
    apply runs_advance
    apply runs_pure
    simp only [argsNodes_eq, List.length_tail] at hpaid ⊢
    omega
  · intro c hc
    simp only [List.length_tail] at hc
    omega

/-- A token that is an expression by itself. -/
theorem runs_literal {ts : List Token} {value : Expression} (hpos : 0 < ts.length)
    (hsize : exprNodes value = 1) :
    Runs (advance >>= fun _ => pure value) ts
      (fun a rest c => exprNodes a ≤ c ∧ c + 100 * rest.length + 98 ≤ 100 * ts.length)
      (fun c => c ≤ 8 + 100 * ts.length) := by
  apply runs_advance
  apply runs_pure
  simp only [hsize, List.length_tail]
  omega

/-- A primary pays for itself, if the expressions in it do. -/
theorem pays_parsePrimary (h : Pays 100 n (fun _ => true) exprNodes 50 20 expression) :
    Pays 100 (n + 1) (fun _ => true) exprNodes 80 10 (parsePrimary expression) := by
  intro ts hlt _
  apply runs_call
  apply runs_peek
  have hliteral : ∀ {value : Expression}, 0 < ts.length → exprNodes value = 1 →
      Runs (advance >>= fun _ => pure value) ts
        (fun a rest c => exprNodes a ≤ 1 + (1 + c) ∧
          1 + (1 + c) + 100 * rest.length + 80 ≤ 100 * ts.length)
        (fun c => 1 + (1 + c) ≤ 10 + 100 * ts.length) := by
    intro value hpos hsize
    refine (runs_literal hpos hsize).imp ?_ ?_
    · rintro a rest c ⟨hle, hpaid⟩
      omega
    · intro c hc
      omega
  split
  · next htype => exact hliteral (length_pos_of_type htype (by decide)) rfl
  · next htype => exact hliteral (length_pos_of_type htype (by decide)) rfl
  · next htype => exact hliteral (length_pos_of_type htype (by decide)) rfl
  · next htype => exact hliteral (length_pos_of_type htype (by decide)) rfl
  · next htype => exact hliteral (length_pos_of_type htype (by decide)) rfl
  · next htype =>
    have hpos := length_pos_of_type htype (by decide)
    apply runs_advance
    refine (h ts.tail (by rw [List.length_tail]; omega) rfl).bind ?_ ?_
    · rintro expr rest c ⟨hsize, hpaid⟩
      apply runs_advance
      apply runs_pure
      simp only [List.length_tail] at hpaid ⊢
      omega
    · intro c hc
      simp only [List.length_tail] at hc
      omega
  · next htype =>
    have hpos := length_pos_of_type htype (by decide)
    apply runs_advance
    refine (runs_parseMembers _ ts.tail).bind ?_ ?_
    · intro name rest c hmembers
      apply runs_peek
      simp only [List.length_tail] at hmembers
      apply runs_ite
      · intro _
        refine (runs_parseCallArgs h (by omega)).bind ?_ ?_
        · rintro args rest' c' ⟨hsize, hpaid⟩
          apply runs_pure
          rw [exprNodes]
          omega
        · intro c' hc'
          omega
      · intro _
        apply runs_pure
        rw [exprNodes]
        omega
    · intro c hc
      simp only [List.length_tail] at hc
      omega
  · exact runs_fail (by omega)

/-- An operand behind its operator. -/
theorem runs_unaryExpr {op : UnaryOp} {operand : C Expression} {ts : List Token}
    (hpos : 0 < ts.length)
    (hoperand : Runs operand ts.tail
      (fun a rest c => exprNodes a ≤ c ∧ c + 100 * rest.length + 77 ≤ 100 * ts.tail.length)
      (fun c => c ≤ 13 + 100 * ts.tail.length)) :
    Runs (do
      let _ ← advance
      let a ← operand
      pure (.unaryExpr op a)) ts
      (fun a rest c => exprNodes a ≤ c ∧ c + 100 * rest.length + 80 ≤ 100 * ts.length)
      (fun c => c ≤ 100 * ts.length) := by
  simp only [List.length_tail] at hoperand
  apply runs_advance
  refine hoperand.bind ?_ ?_
  · rintro a rest c ⟨hsize, hpaid⟩
    apply runs_pure
    rw [exprNodes]
    omega
  · intro c hc
    omega

theorem pays_parseUnary (h : Pays 100 n (fun _ => true) exprNodes 50 20 expression) :
    Pays 100 (n + 1) (fun _ => true) exprNodes 77 13 (parseUnary expression) := by
  refine pays_recursive ?_
  intro unary m hm hunary ts hlt _
  apply runs_call
  apply runs_peek
  apply runs_ite
  · intro htype
    have hpos := length_pos_of_type htype (by decide)
    refine (runs_unaryExpr hpos (hunary _ (by rw [List.length_tail]; omega) rfl)).imp ?_ ?_
    · rintro a rest c ⟨hsize, hpaid⟩
      omega
    · intro c hc
      omega
  intro _
  apply runs_tick
  apply runs_ite
  · intro htype
    have hpos := length_pos_of_type htype (by decide)
    have hoperand : Pays 100 (n + 1) (fun _ => true) exprNodes 77 13 (parsePrimary expression) :=
      (pays_parsePrimary h).imp (Nat.le_refl _) (fun _ ht => ht) (by omega) (by omega)
    refine (runs_unaryExpr hpos (hoperand _ (by rw [List.length_tail]; omega) rfl)).imp ?_ ?_
    · rintro a rest c ⟨hsize, hpaid⟩
      omega
    · intro c hc
      omega
  · intro _
    refine (pays_parsePrimary h ts (by omega) rfl).imp ?_ ?_
    · rintro a rest c ⟨hsize, hpaid⟩
      omega
    · intro c hc
      omega

theorem exprNodes_binaryExpr (left : Expression) (op : BinaryOp) (right : Expression) :
    exprNodes (.binaryExpr left op right) ≤ exprNodes left + exprNodes right + 1 := by
  rw [exprNodes]
  omega

theorem pays_parseOr (h : Pays 100 n (fun _ => true) exprNodes 50 20 expression) :
    Pays 100 (n + 1) (fun _ => true) exprNodes 51 19 (parseOr expression) := by
  have hunary := pays_parseUnary h
  have hmultiplication : Pays 100 (n + 1) (fun _ => true) exprNodes 73 14
      (parseMultiplication expression) :=
    pays_call (pays_chain hunary exprNodes_binaryExpr rfl (by omega))
  have haddition : Pays 100 (n + 1) (fun _ => true) exprNodes 70 15 (parseAddition expression) :=
    pays_call (pays_chain hmultiplication exprNodes_binaryExpr rfl (by omega))
  have hcomparison : Pays 100 (n + 1) (fun _ => true) exprNodes 67 16
      (parseComparison expression) :=
    pays_call (pays_chain haddition exprNodes_binaryExpr rfl (by omega))
  have hand : Pays 100 (n + 1) (fun _ => true) exprNodes 65 17 (parseAnd expression) :=
    pays_call (pays_chain hcomparison exprNodes_binaryExpr rfl (by omega))
  have hxor : Pays 100 (n + 1) (fun _ => true) exprNodes 63 18 (parseXor expression) :=
    pays_call (pays_chain hand exprNodes_binaryExpr rfl (by omega))
  have hor : Pays 100 (n + 1) (fun _ => true) exprNodes 61 19 (parseOr expression) :=
    pays_call (pays_chain hxor exprNodes_binaryExpr rfl (by omega))
  exact hor.imp (Nat.le_refl _) (fun _ ht => ht) (by omega) (Nat.le_refl _)

theorem runs_parseExpression (ts : List Token) :
    Runs parseExpression ts
      (fun a rest c => exprNodes a ≤ c ∧ c + 100 * rest.length + 50 ≤ 100 * ts.length)
      (fun c => c ≤ 20 + 100 * ts.length) := by
  have hpays : Pays 100 (ts.length + 1) (fun _ => true) exprNodes 50 20 parseExpression :=
    pays_recursive fun expression m _ h => pays_call (pays_parseOr h)
  exact hpays ts (Nat.lt_succ_self _) rfl

end Expressions

/-! ## Statements pay for themselves -/

section Statements

/-- An assignment or a call pays for itself. -/
theorem pays_parseAssignOrCall (n : Nat) :
    Pays 100 n (isType .ident) stmtNodes 20 20 parseAssignOrCall := by
  intro ts _ hident
  have hpos := length_pos_of_type (eq_of_beq hident) (by decide)
  apply runs_call
  apply runs_advance
  refine (runs_parseMembers _ ts.tail).bind ?_ ?_
  · intro fullName rest c hmembers
    simp only [List.length_tail] at hmembers
    apply runs_peek
    apply runs_ite
    · intro _
      apply runs_advance
      refine (runs_parseExpression rest.tail).bind ?_ ?_
      · rintro val rest' c' ⟨hsize, hpaid⟩
        apply runs_match
        intro _ rest'' hle
        apply runs_pure
        simp only [stmtNodes, List.length_tail] at hpaid ⊢
        omega
      · intro c' hc'
        simp only [List.length_tail] at hc'
        omega
    intro _
    apply runs_tick
    apply runs_ite
    · intro _
      have hexpression : Pays 100 (rest.length + 1) (fun _ => true) exprNodes 50 20
          parseExpression := fun ts _ _ => runs_parseExpression ts
      refine (runs_parseCallArgs hexpression (Nat.lt_succ_self _)).bind ?_ ?_
      · rintro args rest' c' ⟨hsize, hpaid⟩
        apply runs_match
        intro _ rest'' hle
        apply runs_pure
        simp only [stmtNodes]
        omega
      · intro c' hc'
        omega
    · intro _
      apply runs_match
      intro _ rest' hle
      apply runs_pure
      simp only [stmtNodes, exprNodes]
      omega
  · intro c hc
    simp only [List.length_tail] at hc
    omega

/-- An expression behind a keyword, when the keyword is there. -/
theorem runs_optional {type : TokenType} {p : C Expression} {ts : List Token}
    (hp : Runs p ts.tail
      (fun a rest c => exprNodes a ≤ c ∧ c + 100 * rest.length + 50 ≤ 100 * ts.tail.length)
      (fun c => c ≤ 20 + 100 * ts.tail.length)) :
    Runs (do
      let tok ← peek
      if tok.type = type then do
        let _ ← advance
        let a ← p
        pure (some a)
      else pure none) ts
      (fun a rest c => argsNodes a.toList ≤ c ∧ c + 100 * rest.length ≤ 3 + 100 * ts.length)
      (fun c => c ≤ 23 + 100 * ts.length) := by
  simp only [List.length_tail] at hp
  apply runs_peek
  apply runs_ite
  · intro _
    apply runs_advance
    refine hp.bind ?_ ?_
    · rintro a rest c ⟨hsize, hpaid⟩
      apply runs_pure
      simp only [Option.toList_some, argsNodes]
      omega
    · intro c hc
      omega
  · intro _
    apply runs_pure
    simp only [Option.toList_none, argsNodes]
    omega

theorem runs_parseStep (ts : List Token) :
    Runs parseStep ts
      (fun step rest c => argsNodes step.toList ≤ c ∧ c + 100 * rest.length ≤ 3 + 100 * ts.length)
      (fun c => c ≤ 23 + 100 * ts.length) :=
  runs_optional (runs_parseExpression ts.tail)

/-- The values of a clause pay for themselves with their tokens. -/
theorem runs_parseCaseValues (ts : List Token) :
    Runs parseCaseValues ts
      (fun values rest c => argsNodes values ≤ c ∧ c + 100 * rest.length + 45 ≤ 100 * ts.length)
      (fun c => c ≤ 21 + 100 * ts.length) := by
  have hvalue : Pays 100 (ts.length + 1) (fun _ => !false) exprNodes 50 20 parseExpression :=
    fun ts _ _ => runs_parseExpression ts
  refine (runs_separated hvalue (by decide) (by omega) (Nat.lt_succ_self _)).imp ?_ ?_
  · rintro values rest c ⟨hsize, hpaid⟩
    simp only [Bool.false_eq_true, if_false] at hpaid
    rw [argsNodes_eq]
    omega
  · intro c hc
    omega

variable {n : Nat} {statement : C (Option Statement)}

/-- What holds of the parser of one statement, on lists of fewer than `n` tokens. -/
def PaysStatement (n : Nat) (statement : C (Option Statement)) : Prop :=
  Pays 100 n (fun tok => !isType .eof tok) (fun stmt => total stmtNodes stmt.toList) 10 40 statement

variable (h : PaysStatement n statement) {ts : List Token}

include h

/-- A block pays for itself, if its statements do. -/
theorem runs_parseStatementBlock {terminators : List TokenType} (hterm : terminators.length ≤ 3)
    (hlt : ts.length < n) :
    Runs (parseStatementBlock statement terminators) ts
      (fun body rest c => blockNodes body ≤ c ∧ c + 100 * rest.length ≤ 6 + 100 * ts.length)
      (fun c => c ≤ 47 + 100 * ts.length) := by
  have hitem : Pays 100 n (fun tok => !isType .eof tok && !terminators.contains tok.type)
      (fun stmt => total stmtNodes stmt.toList) (2 + terminators.length + 1) 40 statement := by
    refine Pays.imp h (Nat.le_refl _) ?_ (by omega) (Nat.le_refl _)
    intro tok htok
    rw [Bool.and_eq_true] at htok
    exact htok.1
  refine runs_call ((runs_many hitem hlt).imp ?_ ?_)
  · rintro body rest c ⟨hsize, hpaid⟩
    rw [blockNodes_eq]
    omega
  · intro c hc
    omega

/-- A further test pays for itself, with its block. -/
theorem pays_parseElsIf :
    Pays 100 n (isType .elsif)
      (fun clause => total (fun clause => elsIfsNodes [clause]) clause.toList) 2 0
      (parseElsIf statement) := by
  intro ts hlt helsif
  have hpos := length_pos_of_type (eq_of_beq helsif) (by decide)
  apply runs_advance
  refine (runs_parseExpression ts.tail).bind ?_ ?_
  · rintro cond rest c ⟨hsize, hpaid⟩
    simp only [List.length_tail] at hpaid
    apply runs_advance
    refine (runs_parseStatementBlock h (by decide) (by rw [List.length_tail]; omega)).bind ?_ ?_
    · rintro body rest' c' ⟨hbody, hblock⟩
      apply runs_pure
      simp only [Option.toList_some, total_cons, total_nil, elsIfsNodes, List.length_tail]
        at hblock ⊢
      omega
    · intro c' hc'
      simp only [List.length_tail] at hc'
      omega
  · intro c hc
    simp only [List.length_tail] at hc
    omega

/-- The last block of an IF or a CASE pays for itself. -/
theorem runs_parseElse (terminator : TokenType) (hlt : ts.length < n) :
    Runs (parseElse statement terminator) ts
      (fun body rest c => blockNodes body ≤ c ∧ c + 100 * rest.length ≤ 9 + 100 * ts.length)
      (fun c => c ≤ 50 + 100 * ts.length) := by
  apply runs_peek
  apply runs_ite
  · intro _
    apply runs_advance
    refine (runs_parseStatementBlock h (by simp) (by rw [List.length_tail]; omega)).imp ?_ ?_
    · rintro body rest c ⟨hsize, hpaid⟩
      simp only [List.length_tail] at hpaid
      omega
    · intro c hc
      simp only [List.length_tail] at hc
      omega
  · intro _
    apply runs_pure
    simp only [blockNodes]
    omega

theorem pays_parseIfStmt :
    Pays 100 (n + 1) (isType .if_) stmtNodes 20 0 (parseIfStmt statement) := by
  intro ts hlt hif
  have hpos := length_pos_of_type (eq_of_beq hif) (by decide)
  apply runs_call
  apply runs_advance
  refine (runs_parseExpression ts.tail).bind ?_ ?_
  · rintro cond rest₁ c₁ ⟨hcond, hpaid₁⟩
    simp only [List.length_tail] at hpaid₁
    refine (runs_expect (by decide)).bind ?_ ?_
    · rintro _ rest₂ c₂ ⟨rfl, hthen⟩
      refine (runs_parseStatementBlock h (by decide) (by omega)).bind ?_ ?_
      · rintro thenBody rest₃ c₃ ⟨hbody, hpaid₃⟩
        refine (runs_many (pays_parseElsIf h) (by omega)).bind ?_ ?_
        · rintro elsIfs rest₄ c₄ ⟨helsIfs, hpaid₄⟩
          rw [← elsIfsNodes_eq] at helsIfs
          refine (runs_parseElse h _ (by omega)).bind ?_ ?_
          · rintro elseBody rest₅ c₅ ⟨helse, hpaid₅⟩
            apply runs_match
            intro _ rest₆ hle₆
            apply runs_match
            intro _ rest₇ hle₇
            apply runs_pure
            simp only [stmtNodes]
            omega
          · intro c hc
            omega
        · intro c hc
          omega
      · intro c hc
        omega
    · rintro c rfl
      omega
  · intro c hc
    simp only [List.length_tail] at hc
    omega

theorem pays_parseForStmt :
    Pays 100 (n + 1) (isType .for_) stmtNodes 20 0 (parseForStmt statement) := by
  intro ts hlt hfor
  have hpos := length_pos_of_type (eq_of_beq hfor) (by decide)
  apply runs_call
  apply runs_advance
  refine (runs_expect (by decide)).bind ?_ ?_
  · rintro varTok rest₁ c₁ ⟨rfl, hident⟩
    rw [List.length_tail] at hident
    apply runs_advance
    refine (runs_parseExpression rest₁.tail).bind ?_ ?_
    · rintro start rest₂ c₂ ⟨hstart, hpaid₂⟩
      rw [List.length_tail] at hpaid₂
      apply runs_advance
      refine (runs_parseExpression rest₂.tail).bind ?_ ?_
      · rintro stop rest₃ c₃ ⟨hstop, hpaid₃⟩
        rw [List.length_tail] at hpaid₃
        refine (runs_parseStep rest₃).bind ?_ ?_
        · rintro step rest₄ c₄ ⟨hstep, hpaid₄⟩
          apply runs_advance
          refine (runs_parseStatementBlock h (by decide) (by rw [List.length_tail]; omega)).bind
            ?_ ?_
          · rintro body rest₅ c₅ ⟨hbody, hpaid₅⟩
            rw [List.length_tail] at hpaid₅
            apply runs_match
            intro _ rest₆ hle₆
            apply runs_match
            intro _ rest₇ hle₇
            apply runs_pure
            simp only [stmtNodes]
            omega
          · intro c hc
            rw [List.length_tail] at hc
            omega
        · intro c hc
          omega
      · intro c hc
        rw [List.length_tail] at hc
        omega
    · intro c hc
      rw [List.length_tail] at hc
      omega
  · rintro c rfl
    omega

theorem pays_parseWhileStmt :
    Pays 100 (n + 1) (isType .while_) stmtNodes 20 0 (parseWhileStmt statement) := by
  intro ts hlt hwhile
  have hpos := length_pos_of_type (eq_of_beq hwhile) (by decide)
  apply runs_call
  apply runs_advance
  refine (runs_parseExpression ts.tail).bind ?_ ?_
  · rintro cond rest₁ c₁ ⟨hcond, hpaid₁⟩
    rw [List.length_tail] at hpaid₁
    apply runs_advance
    refine (runs_parseStatementBlock h (by decide) (by rw [List.length_tail]; omega)).bind ?_ ?_
    · rintro body rest₂ c₂ ⟨hbody, hpaid₂⟩
      rw [List.length_tail] at hpaid₂
      apply runs_match
      intro _ rest₃ hle₃
      apply runs_match
      intro _ rest₄ hle₄
      apply runs_pure
      simp only [stmtNodes]
      omega
    · intro c hc
      rw [List.length_tail] at hc
      omega
  · intro c hc
    rw [List.length_tail] at hc
    omega

theorem pays_parseRepeatStmt :
    Pays 100 (n + 1) (isType .repeat_) stmtNodes 20 0 (parseRepeatStmt statement) := by
  intro ts hlt hrepeat
  have hpos := length_pos_of_type (eq_of_beq hrepeat) (by decide)
  apply runs_call
  apply runs_advance
  refine (runs_parseStatementBlock h (by decide) (by rw [List.length_tail]; omega)).bind ?_ ?_
  · rintro body rest₁ c₁ ⟨hbody, hpaid₁⟩
    rw [List.length_tail] at hpaid₁
    apply runs_advance
    refine (runs_parseExpression rest₁.tail).bind ?_ ?_
    · rintro cond rest₂ c₂ ⟨hcond, hpaid₂⟩
      rw [List.length_tail] at hpaid₂
      apply runs_match
      intro _ rest₃ hle₃
      apply runs_match
      intro _ rest₄ hle₄
      apply runs_pure
      simp only [stmtNodes]
      omega
    · intro c hc
      rw [List.length_tail] at hc
      omega
  · intro c hc
    rw [List.length_tail] at hc
    omega

/-- A clause pays for itself, with its values and its block. -/
theorem pays_parseCaseClause :
    Pays 100 n (fun tok => !endsClauses tok)
      (fun clause => total (fun clause => casesNodes [clause]) clause.toList) 4 40
      (parseCaseClause statement) := by
  intro ts hlt _
  apply runs_tick
  refine (runs_parseCaseValues ts).bind ?_ ?_
  · rintro values rest c ⟨hvalues, hpaid⟩
    apply runs_advance
    apply runs_map
    refine (runs_parseStatementBlock h (by decide) (by rw [List.length_tail]; omega)).imp ?_ ?_
    · rintro body rest' c' ⟨hbody, hpaid'⟩
      rw [List.length_tail] at hpaid'
      simp only [Option.toList_some, total_cons, total_nil, casesNodes]
      omega
    · intro c' hc'
      rw [List.length_tail] at hc'
      omega
  · intro c hc
    omega

theorem pays_parseCaseStmt :
    Pays 100 (n + 1) (isType .case_) stmtNodes 20 0 (parseCaseStmt statement) := by
  intro ts hlt hcase
  have hpos := length_pos_of_type (eq_of_beq hcase) (by decide)
  apply runs_call
  apply runs_advance
  refine (runs_parseExpression ts.tail).bind ?_ ?_
  · rintro expr rest₁ c₁ ⟨hexpr, hpaid₁⟩
    rw [List.length_tail] at hpaid₁
    apply runs_advance
    refine (runs_many (pays_parseCaseClause h) (by rw [List.length_tail]; omega)).bind ?_ ?_
    · rintro cases rest₂ c₂ ⟨hcases, hpaid₂⟩
      rw [← casesNodes_eq] at hcases
      rw [List.length_tail] at hpaid₂
      refine (runs_parseElse h _ (by omega)).bind ?_ ?_
      · rintro elseBody rest₃ c₃ ⟨helse, hpaid₃⟩
        apply runs_match
        intro _ rest₄ hle₄
        apply runs_match
        intro _ rest₅ hle₅
        apply runs_pure
        simp only [stmtNodes]
        omega
      · intro c hc
        omega
    · intro c hc
      rw [List.length_tail] at hc
      omega
  · intro c hc
    rw [List.length_tail] at hc
    omega

/-- Every statement pays for itself, if those of one level less do. -/
theorem paysStatement_parseStatementWith :
    PaysStatement (n + 1) (parseStatementWith statement) := by
  intro ts hlt hgo
  have hpos : 0 < ts.length := by
    cases ts with
    | nil => exact absurd hgo (by decide)
    | cons t rest => simp
  -- one of the statements that start with a keyword or a name
  have hstmt : ∀ {type : TokenType} {p : C Statement} {e : Nat}, e ≤ 20 →
      Pays 100 (n + 1) (isType type) stmtNodes 20 e p → (head ts).type = type →
      Runs (some <$> p) ts
        (fun stmt rest c => total stmtNodes stmt.toList ≤ 1 + (1 + c) ∧
          1 + (1 + c) + 100 * rest.length + 10 ≤ 100 * ts.length)
        (fun c => 1 + (1 + c) ≤ 40 + 100 * ts.length) := by
    intro type p e he hp htype
    refine runs_map ((hp ts hlt (beq_iff_eq.mpr htype)).imp ?_ ?_)
    · rintro stmt rest c ⟨hsize, hpaid⟩
      simp only [Option.toList_some, total_cons, total_nil]
      omega
    · intro c hc
      omega
  apply runs_call
  apply runs_peek
  split
  · next htype => exact hstmt (by omega) (pays_parseIfStmt h) htype
  · next htype => exact hstmt (by omega) (pays_parseForStmt h) htype
  · next htype => exact hstmt (by omega) (pays_parseWhileStmt h) htype
  · next htype => exact hstmt (by omega) (pays_parseRepeatStmt h) htype
  · next htype => exact hstmt (by omega) (pays_parseCaseStmt h) htype
  · apply runs_advance
    apply runs_match
    intro _ rest hle
    apply runs_pure
    simp only [Option.toList_some, total_cons, total_nil, stmtNodes, List.length_tail] at hle ⊢
    omega
  · next htype => exact hstmt (by omega) (pays_parseAssignOrCall _) htype
  · apply runs_advance
    apply runs_pure
    simp only [Option.toList_none, total_nil, List.length_tail]
    omega

end Statements

theorem paysStatement_parseStatement (n : Nat) : PaysStatement n parseStatement :=
  pays_recursive fun _ _ _ h => paysStatement_parseStatementWith h

/-! ## Programs -/

theorem runs_parseInitial (ts : List Token) :
    Runs parseInitial ts
      (fun init rest c => argsNodes init.toList ≤ c ∧ c + 100 * rest.length ≤ 3 + 100 * ts.length)
      (fun c => c ≤ 23 + 100 * ts.length) :=
  runs_optional (runs_withError (runs_parseExpression ts.tail))

theorem pays_parseVarDecl [LetterCase] (n : Nat) :
    Pays 100 n insideVarBlock (fun decl => total varDeclNodes decl.toList) 3 4 parseVarDecl := by
  intro ts _ _
  apply runs_call
  refine (runs_withError (runs_expect (by decide))).bind ?_ ?_
  · rintro nameTok rest₁ c₁ ⟨rfl, hname⟩
    refine (runs_withError (runs_expect (by decide))).bind ?_ ?_
    · rintro _ rest₂ c₂ ⟨rfl, hcolon⟩
      apply runs_advance
      refine (runs_parseInitial rest₂.tail).bind ?_ ?_
      · rintro initial rest₃ c₃ ⟨hinitial, hpaid₃⟩
        rw [List.length_tail] at hpaid₃
        apply runs_match
        intro _ rest₄ hle₄
        apply runs_pure
        simp only [Option.toList_some, total_cons, total_nil, varDeclNodes]
        omega
      · intro c hc
        rw [List.length_tail] at hc
        omega
    · rintro c rfl
      omega
  · rintro c rfl
    omega

theorem pays_parseVarBlock [LetterCase] (n : Nat) :
    Pays 100 n isVarBlockStart varBlockNodes 10 0 parseVarBlock := by
  intro ts hlt hvar
  obtain ⟨t, rest, rfl⟩ := exists_eq_cons isVarBlockStart (by decide) hvar
  apply runs_call
  apply runs_advance
  refine (runs_many (pays_parseVarDecl _) (Nat.lt_succ_self _)).bind ?_ ?_
  · rintro vars rest₁ c₁ ⟨hvars, hpaid₁⟩
    apply runs_match
    intro _ rest₂ hle₂
    apply runs_pure
    simp only [varBlockNodes, List.tail_cons, List.length_cons] at hpaid₁ ⊢
    omega
  · intro c hc
    simp only [List.tail_cons, List.length_cons] at hc ⊢
    omega

def itemNodes : Item → Nat
  | .varBlock block => varBlockNodes block
  | .statement stmt => stmtNodes stmt

/-- A program has the nodes of its items, and one of its own. -/
theorem programNodes_program (name : Text) (items : List Item) :
    programNodes (program name items) = 1 + total itemNodes items := by
  induction items with
  | nil => simp [programNodes, program, blockNodes]
  | cons item items ih =>
    cases item with
    | varBlock block =>
      simp only [programNodes, program, List.filterMap_cons, Item.varBlock?, Item.statement?,
        total_cons, itemNodes] at ih ⊢
      omega
    | statement stmt =>
      simp only [programNodes, program, List.filterMap_cons, Item.varBlock?, Item.statement?,
        total_cons, itemNodes, blockNodes] at ih ⊢
      omega

theorem pays_parseItem [LetterCase] (n : Nat) :
    Pays 100 n (fun tok => !isType .eof tok) (fun item => total itemNodes item.toList) 8 42
      parseItem := by
  intro ts hlt hgo
  apply runs_call
  apply runs_peek
  apply runs_ite
  · intro hvar
    refine (pays_parseVarBlock _ ts hlt hvar).bind ?_ ?_
    · rintro block rest c ⟨hsize, hpaid⟩
      apply runs_pure
      simp only [Option.toList_some, total_cons, total_nil, itemNodes]
      omega
    · intro c hc
      omega
  · intro _
    refine (paysStatement_parseStatement _ ts hlt hgo).bind ?_ ?_
    · rintro stmt rest c ⟨hsize, hpaid⟩
      apply runs_pure
      cases stmt with
      | none =>
        simp only [Option.map_none, Option.toList_none, total_nil]
        omega
      | some stmt =>
        simp only [Option.map_some, Option.toList_some, total_cons, total_nil, itemNodes] at hsize ⊢
        omega
    · intro c hc
      omega

/-- A program costs a constant for each token. -/
theorem runs_parseProgram [LetterCase] (ts : List Token) :
    Runs parseProgram ts (fun prog _ c => programNodes prog ≤ c ∧ c ≤ 20 + 100 * ts.length)
      (fun c => c ≤ 60 + 100 * ts.length) := by
  apply runs_call
  apply runs_peek
  apply runs_ite
  · intro _
    apply runs_advance
    apply runs_advance
    have hitem : Pays 100 (ts.tail.tail.length + 1) insideProgram
        (fun item => total itemNodes item.toList) 3 42 parseItem := by
      refine (pays_parseItem _).imp (Nat.le_refl _) ?_ (by omega) (Nat.le_refl _)
      intro tok htok
      rw [insideProgram, Bool.and_eq_true] at htok
      exact htok.2
    refine (runs_many hitem (Nat.lt_succ_self _)).bind ?_ ?_
    · rintro items rest c ⟨hitems, hpaid⟩
      apply runs_match
      intro _ rest' hle
      apply runs_pure
      simp only [programNodes_program, List.length_tail] at hpaid ⊢
      omega
    · intro c hc
      simp only [List.length_tail] at hc
      omega
  · intro _
    have hitem : Pays 100 (ts.length + 1) (fun tok => !isType .eof tok)
        (fun item => total itemNodes item.toList) 2 42 parseItem :=
      (pays_parseItem _).imp (Nat.le_refl _) (fun _ ht => ht) (by omega) (Nat.le_refl _)
    refine (runs_many hitem (Nat.lt_succ_self _)).bind ?_ ?_
    · rintro items rest c ⟨hitems, hpaid⟩
      apply runs_pure
      rw [programNodes_program]
      omega
    · intro c hc
      omega

/-! ## The front end -/

/-- `Parse`: its answer, and the calls and iterations of the lexer and the parser. -/
def parse [LetterCase] (source : Text) : Option (Except ParseError Program) × Nat :=
  ((parseProgram.parser (lex source)).result,
    1 + lexCost source + parseProgram.cost (lex source))

/-- Counting changes no answer of `Parse`. -/
theorem parse_fst [LetterCase] (source : Text) :
    (parse source).1 = StParser.parse source := by
  rw [parse, parser_parseProgram, StParser.parse]

/-- The front end is linear in the length of its input, whether the input is well formed or not:
the tokens, the calls and loop iterations until `Parse` ends, and the nodes of the program. -/
theorem frontEnd_linear [LetterCase] :
    ∃ c, ∀ source : Text,
      (lex source).length ≤ source.length + 1 ∧
      ∃ answer, StParser.parse source = some answer ∧
        (parse source).1 = some answer ∧ (parse source).2 ≤ c * (source.length + 1) ∧
        ∀ prog, answer = .ok prog → programNodes prog ≤ c * (source.length + 1) := by
  refine ⟨300, fun source => ?_⟩
  have htokens : (lex source).length ≤ source.length + 1 := length_lexFrom_le 1 source
  refine ⟨htokens, ?_⟩
  have hlex := lexFromCost_le 1 source
  have hrun := runs_parseProgram (lex source)
  rw [← parse_fst]
  unfold Runs at hrun
  simp only [parse, lexCost]
  cases hreply : parseProgram.parser (lex source) with
  | ok prog rest =>
    simp only [hreply] at hrun
    refine ⟨.ok prog, rfl, rfl, by omega, ?_⟩
    rintro prog' ⟨⟩
    omega
  | error e =>
    simp only [hreply] at hrun
    refine ⟨.error e, rfl, rfl, by omega, ?_⟩
    rintro prog' ⟨⟩
  | exhausted => simp only [hreply] at hrun

end StFrontEnd
