import Tentacle.StParser
import Tentacle.StRender

/-!
# Structured Text: parsing a rendered program

Parsing the canonical text of a well-formed program gives the program back exactly when no CASE of
it has more than one clause and no expression of it is a member access.
-/

namespace StRoundTrip
open StSyntax StParser StRender RecursiveDescent

/-! ## What the parser can build -/

mutual

/-- No member access. -/
def exprPlain : Expression → Bool
  | .binaryExpr left _ right => exprPlain left && exprPlain right
  | .unaryExpr _ operand => exprPlain operand
  | .callExpr _ args => argsPlain args
  | .memberExpr _ _ => false
  | _ => true

def argsPlain : List Expression → Bool
  | [] => true
  | e :: es => exprPlain e && argsPlain es

end

mutual

/-- At most one clause in each CASE, and plain expressions. -/
def stmtPlain : Statement → Bool
  | .assignStmt _ value => exprPlain value
  | .ifStmt condition thenBody elsIfs elseBody =>
    exprPlain condition && blockPlain thenBody && elsIfsPlain elsIfs && blockPlain elseBody
  | .forStmt _ start stop step body =>
    exprPlain start && exprPlain stop && step.all exprPlain && blockPlain body
  | .whileStmt condition body => exprPlain condition && blockPlain body
  | .repeatStmt body condition => blockPlain body && exprPlain condition
  | .caseStmt expression cases elseBody =>
    exprPlain expression && clausesPlain cases && decide (cases.length ≤ 1) && blockPlain elseBody
  | .callStmt _ args => argsPlain args
  | .returnStmt => true

def blockPlain : List Statement → Bool
  | [] => true
  | s :: body => stmtPlain s && blockPlain body

def elsIfsPlain : List ElsIfClause → Bool
  | [] => true
  | .mk condition body :: clauses => exprPlain condition && blockPlain body && elsIfsPlain clauses

def clausesPlain : List CaseClause → Bool
  | [] => true
  | .mk values body :: clauses => argsPlain values && blockPlain body && clausesPlain clauses

end

def declPlain (decl : VarDecl) : Bool := decl.initial.all exprPlain

def plain (p : Program) : Bool :=
  p.varBlocks.all (fun block => block.vars.all declPlain) && blockPlain p.statements

/-! ## Reading expressions -/

@[simp] theorem fixed_type (type : TokenType) : (fixed type).type = type := rfl

def operators : List (Token → Option BinaryOp) :=
  [multiplicationOp, additionOp, comparisonOp, andOp, xorOp, orOp]

theorem parseOr_eq (expression : P Expression) :
    parseOr expression = levels operators (parseUnary expression) .binaryExpr := rfl

/-- A token that does not go on with a name. -/
def endsName (tok : Token) : Bool := tok.type ≠ .dot && tok.type ≠ .lparen

/-- A token that does not go on with an expression. -/
def endsExpr (tok : Token) : Bool := endsName tok && operators.all fun op => op tok = none

theorem read_members (members : List Text) {rest : List Token} (h : (head rest).type ≠ .dot) :
    many (isType .dot) parseMember (memberTokens members ++ rest) = .ok members rest := by
  induction members with
  | nil => exact many_stop (by simpa [isType, memberTokens] using h)
  | cons member members ih =>
    have hlt : (memberTokens members ++ rest).length <
        (memberTokens (member :: members) ++ rest).length := by
      simp only [memberTokens, List.cons_append, List.length_cons]
      omega
    exact many_next (a := some member) rfl rfl hlt ih

theorem read_name {name : Text} (h : isName name = true) :
    ∃ first members, nameTokens name = ⟨.ident, first, 1⟩ :: memberTokens members ∧
      ∀ rest, (head rest).type ≠ .dot →
        parseMembers first (memberTokens members ++ rest) = .ok name rest := by
  have hjoin : ['.'].intercalate (name.splitOn '.') = name := List.intercalate_splitOn '.'
  unfold isName at h
  unfold nameTokens
  split at h
  · cases h
  · rename_i first members hsplit
    simp only [isIdent, Bool.and_eq_true, beq_iff_eq] at h
    refine ⟨first, members, ?_, ?_⟩
    · simp [word, h.1.2]
    · intro rest hrest
      simp only [parseMembers, bind_apply, read_members members hrest, Reply.ok_bind, pure_apply,
        foldl_members]
      rw [← hsplit, hjoin]

theorem read_unary {expression : P Expression} {ts rest : List Token} {e : Expression}
    (hnot : (head ts).type ≠ .not) (hminus : (head ts).type ≠ .minus)
    (h : parsePrimary expression ts = .ok e rest) : parseUnary expression ts = .ok e rest := by
  simp [parseUnary, recursive, unroll, hnot, hminus, h]

theorem read_not {expression : P Expression} {tok : Token} {ts rest : List Token} {e : Expression}
    (htok : tok.type = .not) (h : parseUnary expression ts = .ok e rest) :
    parseUnary expression (tok :: ts) = .ok (.unaryExpr .not e) rest := by
  unfold parseUnary recursive at h ⊢
  rw [List.length_cons, unroll]
  simp only [bind_apply, peek_apply, head_cons, Reply.ok_bind, htok, if_true, advance_apply,
    List.tail_cons, h, pure_apply]

theorem read_minus {expression : P Expression} {tok : Token} {ts rest : List Token}
    {e : Expression} (htok : tok.type = .minus) (h : parsePrimary expression ts = .ok e rest) :
    parseUnary expression (tok :: ts) = .ok (.unaryExpr .minus e) rest := by
  simp [parseUnary, recursive, unroll, htok, h]

/-- The first token of a rendered expression. -/
def startsExpr (tok : Token) : Bool :=
  [.number, .string, .true_, .false_, .ident, .lparen, .timeLiteral].contains tok.type

theorem exprTokens_starts {e : Expression} (hw : exprWellFormed e = true)
    (hp : exprPlain e = true) (rest : List Token) :
    startsExpr (head (exprTokens e ++ rest)) = true := by
  cases e with
  | boolLit value => cases value <;> rfl
  | identExpr name =>
    obtain ⟨first, members, hname, -⟩ := read_name hw
    rw [exprTokens, hname]
    rfl
  | callExpr name args =>
    rw [exprWellFormed, Bool.and_eq_true] at hw
    obtain ⟨first, members, hname, -⟩ := read_name hw.1
    rw [exprTokens, hname]
    rfl
  | memberExpr object member => cases hp
  | _ => rfl

/-- The parser of operands reads the rendering of the expression. -/
def ReadsExpr (e : Expression) : Prop :=
  ∀ n rest, (exprTokens e).length ≤ n → endsName (head rest) = true →
    parsePrimary (unroll parseOr n) (exprTokens e ++ rest) = .ok e rest

/-- An expression in brackets or without an operator is read as an operand. -/
theorem read_operand {e : Expression} (hw : exprWellFormed e = true) (hp : exprPlain e = true)
    (hread : ReadsExpr e) {n : Nat} {rest : List Token} (hn : (exprTokens e).length ≤ n)
    (hrest : endsName (head rest) = true) :
    parseUnary (unroll parseOr n) (exprTokens e ++ rest) = .ok e rest := by
  have hstart := exprTokens_starts hw hp rest
  apply read_unary _ _ (hread n rest hn hrest)
  · intro h
    simp [startsExpr, h] at hstart
  · intro h
    simp [startsExpr, h] at hstart

theorem read_unroll {e : Expression} (hw : exprWellFormed e = true) (hp : exprPlain e = true)
    (hread : ReadsExpr e) {n : Nat} {rest : List Token} (hn : (exprTokens e).length < n)
    (hrest : endsExpr (head rest) = true) :
    unroll parseOr n (exprTokens e ++ rest) = .ok e rest := by
  simp only [endsExpr, Bool.and_eq_true, List.all_eq_true, decide_eq_true_eq] at hrest
  obtain ⟨m, rfl⟩ := Nat.exists_eq_add_of_lt hn
  exact levels_single (read_operand hw hp hread (by omega) hrest.1) hrest.2

/-- Each operator stands in one level of the parser. -/
theorem operators_split (op : BinaryOp) : ∃ tighter own looser,
    operators = tighter ++ own :: looser ∧ (∀ op' ∈ tighter, op' (fixed (binaryType op)) = none) ∧
      own (fixed (binaryType op)) = some op := by
  cases op with
  | star | slash | mod =>
    exact ⟨[], _, [additionOp, comparisonOp, andOp, xorOp, orOp], rfl, by simp, rfl⟩
  | plus | minus =>
    exact ⟨[multiplicationOp], _, [comparisonOp, andOp, xorOp, orOp], rfl, by simp; rfl, rfl⟩
  | equal | notEqual | less | lessEq | greater | greaterEq =>
    exact ⟨[multiplicationOp, additionOp], _, [andOp, xorOp, orOp], rfl, by simp; exact ⟨rfl, rfl⟩,
      rfl⟩
  | and =>
    exact ⟨[multiplicationOp, additionOp, comparisonOp], _, [xorOp, orOp], rfl,
      by simp; exact ⟨rfl, rfl, rfl⟩, rfl⟩
  | xor =>
    exact ⟨[multiplicationOp, additionOp, comparisonOp, andOp], _, [orOp], rfl,
      by simp; exact ⟨rfl, rfl, rfl, rfl⟩, rfl⟩
  | or =>
    exact ⟨[multiplicationOp, additionOp, comparisonOp, andOp, xorOp], _, [], rfl,
      by simp; exact ⟨rfl, rfl, rfl, rfl, rfl⟩, rfl⟩

theorem endsName_binary (op : BinaryOp) : endsName (fixed (binaryType op)) = true := by
  cases op <;> rfl

theorem operators_rparen : ∀ op ∈ operators, op (fixed .rparen) = none := by
  simp [operators, multiplicationOp, additionOp, comparisonOp, andOp, xorOp, orOp]

/-- Two operands with an operator between them, inside parentheses. -/
theorem read_binary {left right : Expression} (op : BinaryOp)
    (hwl : exprWellFormed left = true) (hpl : exprPlain left = true) (hl : ReadsExpr left)
    (hwr : exprWellFormed right = true) (hpr : exprPlain right = true) (hr : ReadsExpr right)
    {n : Nat} {rest : List Token} (hnl : (exprTokens left).length ≤ n)
    (hnr : (exprTokens right).length ≤ n) (hrest : endsExpr (head rest) = true) :
    parseOr (unroll parseOr n)
        (exprTokens left ++ fixed (binaryType op) :: (exprTokens right ++ rest)) =
      .ok (.binaryExpr left op right) rest := by
  obtain ⟨tighter, own, looser, hops, htighter, hown⟩ := operators_split op
  simp only [endsExpr, Bool.and_eq_true, List.all_eq_true, decide_eq_true_eq] at hrest
  rw [parseOr_eq, hops]
  exact levels_pair (read_operand hwl hpl hl hnl (endsName_binary op))
    (read_operand hwr hpr hr hnr hrest.1) htighter hown (hops ▸ hrest.2)

/-- A list of expressions with commas between them, up to a token that ends it. -/
theorem read_separated {stop : Token → Bool} {item : P Expression} {args : List Expression}
    {rest : List Token}
    (hitem : ∀ e ∈ args, ∀ rest, endsExpr (head rest) = true →
      item (exprTokens e ++ rest) = .ok e rest)
    (hstop : ∀ e ∈ args, ∀ rest, stop (head (exprTokens e ++ rest)) = false)
    (hcomma : isType .comma (head rest) = false) (hend : endsExpr (head rest) = true)
    (hnil : args = [] → stop (head rest) = true) :
    separated stop (isType .comma) item (argTokens args ++ rest) = .ok args rest := by
  induction args with
  | nil => exact separated_stop (hnil rfl)
  | cons e args ih =>
    have he := hitem e List.mem_cons_self
    have hs := hstop e List.mem_cons_self
    cases args with
    | nil => exact separated_last (hs rest) (he rest hend) hcomma
    | cons e' args =>
      have hmore := ih (fun x hx => hitem x (List.mem_cons_of_mem e hx))
        (fun x hx => hstop x (List.mem_cons_of_mem e hx)) (by simp)
      simp only [argTokens, List.append_assoc, List.cons_append]
      exact separated_next (hs _) (he _ rfl) rfl (by simp; omega) hmore

theorem endsArgs_starts {e : Expression} (hw : exprWellFormed e = true) (hp : exprPlain e = true)
    (rest : List Token) : endsArgs (head (exprTokens e ++ rest)) = false := by
  have hstart := exprTokens_starts hw hp rest
  by_contra hends
  simp only [endsArgs, isType, Bool.not_eq_false, Bool.or_eq_true, beq_iff_eq] at hends
  rcases hends with h | h <;> simp [startsExpr, h] at hstart

theorem read_callArgs {expression : P Expression} {args : List Expression}
    (hitem : ∀ e ∈ args, ∀ rest, endsExpr (head rest) = true →
      expression (exprTokens e ++ rest) = .ok e rest)
    (hw : ∀ e ∈ args, exprWellFormed e = true) (hp : ∀ e ∈ args, exprPlain e = true)
    (rest : List Token) :
    parseCallArgs expression (fixed .lparen :: (argTokens args ++ fixed .rparen :: rest)) =
      .ok args rest := by
  have hread : separated endsArgs (isType .comma) expression
      (argTokens args ++ fixed .rparen :: rest) = .ok args (fixed .rparen :: rest) :=
    read_separated hitem (fun e he => endsArgs_starts (hw e he) (hp e he)) rfl rfl fun _ => rfl
  simp [parseCallArgs, expectAny, hread]

theorem length_le_argTokens {e : Expression} {args : List Expression} (h : e ∈ args) :
    (exprTokens e).length ≤ (argTokens args).length := by
  induction args with
  | nil => cases h
  | cons e' args ih =>
    cases args with
    | nil =>
      rw [List.mem_singleton.mp h]
      exact Nat.le_refl _
    | cons e'' args =>
      rcases List.mem_cons.mp h with rfl | h
      · simp [argTokens]
      · have := ih h
        simp only [argTokens, List.length_append, List.length_cons] at this ⊢
        omega

theorem mem_plain {args : List Expression} (h : argsPlain args = true) :
    ∀ e ∈ args, exprPlain e = true := by
  induction args with
  | nil => simp
  | cons e args ih =>
    rw [argsPlain, Bool.and_eq_true] at h
    simpa [h.1] using ih h.2

mutual

theorem read_expr : ∀ e : Expression, exprWellFormed e = true → exprPlain e = true → ReadsExpr e
  | .numberLit value, _, _ => fun n rest _ _ => rfl
  | .stringLit value, _, _ => fun n rest _ _ => rfl
  | .boolLit value, _, _ => fun n rest _ _ => by cases value <;> rfl
  | .timeLit raw, _, _ => fun n rest _ _ => rfl
  | .identExpr name, hw, _ => by
    intro n rest hn hrest
    obtain ⟨first, members, hname, hread⟩ := read_name hw
    simp only [endsName, Bool.and_eq_true, decide_eq_true_eq] at hrest
    simp [parsePrimary, exprTokens, hname, hread rest hrest.1, hrest.2]
  | .binaryExpr left op right, hw, hp => by
    intro n rest hn hrest
    simp only [exprWellFormed, exprPlain, Bool.and_eq_true] at hw hp
    have hl := read_expr left hw.1 hp.1
    have hr := read_expr right hw.2 hp.2
    simp only [exprTokens, List.length_cons, List.length_append, List.length_nil] at hn
    obtain ⟨m, rfl⟩ : ∃ m, n = m + 1 := ⟨n - 1, by omega⟩
    have hread : parseOr (unroll parseOr m) (exprTokens left ++ fixed (binaryType op) ::
        (exprTokens right ++ fixed .rparen :: rest)) =
          .ok (.binaryExpr left op right) (fixed .rparen :: rest) :=
      read_binary op hw.1 hp.1 hl hw.2 hp.2 hr (by omega) (by omega) rfl
    simp [parsePrimary, exprTokens, unroll, expectAny, hread]
  | .unaryExpr op operand, hw, hp => by
    intro n rest hn hrest
    have hx := read_expr operand hw hp
    simp only [exprTokens, List.length_cons, List.length_append, List.length_nil] at hn
    obtain ⟨m, rfl⟩ : ∃ m, n = m + 1 := ⟨n - 1, by omega⟩
    have hread : parseUnary (unroll parseOr m)
        (fixed (unaryType op) :: (exprTokens operand ++ fixed .rparen :: rest)) =
          .ok (.unaryExpr op operand) (fixed .rparen :: rest) := by
      cases op with
      | not => exact read_not rfl (read_operand (e := operand) hw hp hx (by omega) rfl)
      | minus => exact read_minus rfl (hx m _ (by omega) rfl)
    have hlevels : parseOr (unroll parseOr m)
        (fixed (unaryType op) :: (exprTokens operand ++ fixed .rparen :: rest)) =
          .ok (.unaryExpr op operand) (fixed .rparen :: rest) :=
      levels_single hread operators_rparen
    simp [parsePrimary, exprTokens, unroll, expectAny, hlevels]
  | .callExpr name args, hw, hp => by
    intro n rest hn hrest
    simp only [exprWellFormed, exprPlain, Bool.and_eq_true] at hw hp
    obtain ⟨first, members, hname, hread⟩ := read_name hw.1
    simp only [exprTokens, List.length_cons, List.length_append, List.length_nil] at hn
    have hitem : ∀ e ∈ args, ∀ rest, endsExpr (head rest) = true →
        unroll parseOr n (exprTokens e ++ rest) = .ok e rest := by
      intro e he rest hrest
      have hlength := length_le_argTokens he
      exact read_unroll (mem_wellFormed hw.2 e he) (mem_plain hp e he)
        (read_all args hw.2 hp e he) (by omega) hrest
    have hargs := read_callArgs hitem (mem_wellFormed hw.2) (mem_plain hp) rest
    have hmembers := hread (fixed .lparen :: (argTokens args ++ fixed .rparen :: rest)) (by simp)
    simp [parsePrimary, exprTokens, hname, hmembers, hargs]
  | .memberExpr object member, _, hp => by cases hp

theorem read_all : ∀ args : List Expression, argsWellFormed args = true → argsPlain args = true →
    ∀ e ∈ args, ReadsExpr e
  | [], _, _ => by simp
  | e :: args, hw, hp => by
    simp only [argsWellFormed, argsPlain, Bool.and_eq_true] at hw hp
    intro x hx
    rcases List.mem_cons.mp hx with heq | hx
    · exact heq ▸ read_expr e hw.1 hp.1
    · exact read_all args hw.2 hp.2 x hx

end

theorem read_expression {e : Expression} (hw : exprWellFormed e = true) (hp : exprPlain e = true)
    (rest : List Token) (hrest : endsExpr (head rest) = true) :
    parseExpression (exprTokens e ++ rest) = .ok e rest :=
  read_unroll hw hp (read_expr e hw hp) (by rw [List.length_append]; omega) hrest

theorem read_args {args : List Expression} (hw : argsWellFormed args = true)
    (hp : argsPlain args = true) (rest : List Token) :
    parseCallArgs parseExpression (fixed .lparen :: (argTokens args ++ fixed .rparen :: rest)) =
      .ok args rest :=
  read_callArgs (fun e he => read_expression (mem_wellFormed hw e he) (mem_plain hp e he))
    (mem_wellFormed hw) (mem_plain hp) rest

/-! ## Reading statements -/

def stmtTypes : List TokenType := [.ident, .if_, .for_, .while_, .repeat_, .case_, .return_]

/-- Every statement begins with a token that starts one. -/
theorem stmtTokens_starts {s : Statement} (hw : stmtWellFormed s = true) (rest : List Token) :
    (head (stmtTokens s ++ rest)).type ∈ stmtTypes := by
  cases s with
  | assignStmt target value =>
    rw [stmtWellFormed, Bool.and_eq_true] at hw
    obtain ⟨first, members, hname, -⟩ := read_name hw.1
    rw [stmtTokens, hname]
    simp [stmtTypes]
  | callStmt name args =>
    rw [stmtWellFormed, Bool.and_eq_true] at hw
    obtain ⟨first, members, hname, -⟩ := read_name hw.1
    rw [stmtTokens, hname]
    simp [stmtTypes]
  | _ => simp [stmtTokens, stmtTypes]

theorem stmtTokens_length_pos {s : Statement} (hw : stmtWellFormed s = true) :
    0 < (stmtTokens s).length := by
  have hstart := stmtTokens_starts hw []
  cases htokens : stmtTokens s with
  | nil =>
    rw [htokens] at hstart
    revert hstart
    decide
  | cons tok toks => simp

/-- The parser of statements reads the rendering of the statement. -/
def ReadsStmt (s : Statement) : Prop :=
  ∀ n rest, (stmtTokens s).length ≤ n →
    unroll parseStatementWith n (stmtTokens s ++ rest) = .ok (some s) rest

/-- Statements that are read back one by one are read back as a block. -/
theorem read_block {body : List Statement} (hread : ∀ s ∈ body, ReadsStmt s)
    (hw : blockWellFormed body = true) {terminators : List TokenType}
    (hterminators : ∀ type ∈ stmtTypes, type ∉ terminators) {n : Nat}
    (hn : (blockTokens body).length ≤ n) {rest : List Token}
    (hrest : (head rest).type ∈ terminators) :
    parseStatementBlock (unroll parseStatementWith n) terminators (blockTokens body ++ rest) =
      .ok body rest := by
  induction body with
  | nil => exact many_stop (by simp [blockTokens, hrest])
  | cons s body ih =>
    simp only [blockTokens, List.length_append, blockWellFormed, Bool.and_eq_true] at hn hw
    have hstart := stmtTokens_starts hw.1 (blockTokens body ++ rest)
    have hgo : (head (stmtTokens s ++ (blockTokens body ++ rest))).type ∉ terminators :=
      hterminators _ hstart
    have heof : (head (stmtTokens s ++ (blockTokens body ++ rest))).type ≠ .eof := by
      intro h
      rw [h] at hstart
      simp [stmtTypes] at hstart
    have hlength := stmtTokens_length_pos hw.1
    rw [blockTokens, List.append_assoc]
    exact many_next (by simp [isType, hgo, heof]) (hread s List.mem_cons_self n _ (by omega))
      (by simp; omega) (ih (fun x hx => hread x (List.mem_cons_of_mem s hx)) hw.2 (by omega))

theorem read_assign {target : Text} {value : Expression} (hname : isName target = true)
    (hw : exprWellFormed value = true) (hp : exprPlain value = true) :
    ReadsStmt (.assignStmt target value) := by
  intro n rest hn
  obtain ⟨first, members, htokens, hread⟩ := read_name hname
  simp only [stmtTokens, htokens, List.length_append, List.length_cons] at hn
  obtain ⟨m, rfl⟩ : ∃ m, n = m + 1 := ⟨n - 1, by omega⟩
  have hmembers := hread (fixed .assign :: (exprTokens value ++ fixed .semicolon :: rest)) (by simp)
  have hvalue : parseExpression (exprTokens value ++ fixed .semicolon :: rest) =
      .ok value (fixed .semicolon :: rest) := read_expression hw hp _ rfl
  simp [unroll, parseStatementWith, parseAssignOrCall, stmtTokens, htokens, hmembers, hvalue,
    match_, isType]

theorem read_call {name : Text} {args : List Expression} (hname : isName name = true)
    (hw : argsWellFormed args = true) (hp : argsPlain args = true) :
    ReadsStmt (.callStmt name args) := by
  intro n rest hn
  obtain ⟨first, members, htokens, hread⟩ := read_name hname
  simp only [stmtTokens, htokens, List.length_append, List.length_cons] at hn
  obtain ⟨m, rfl⟩ : ∃ m, n = m + 1 := ⟨n - 1, by omega⟩
  have hmembers := hread
    (fixed .lparen :: (argTokens args ++ fixed .rparen :: fixed .semicolon :: rest)) (by simp)
  have hargs := read_args hw hp (fixed .semicolon :: rest)
  simp [unroll, parseStatementWith, parseAssignOrCall, stmtTokens, htokens, hmembers, hargs,
    match_, isType]

/-- The parser of statements reads the rendering of each statement of the block. -/
structure ReadsBlock (body : List Statement) : Prop where
  reads : ∀ s ∈ body, ReadsStmt s
  wellFormed : blockWellFormed body = true

theorem ReadsBlock.read {body : List Statement} (h : ReadsBlock body) (terminators : List TokenType)
    (hterminators : ∀ type ∈ stmtTypes, type ∉ terminators) {n : Nat}
    (hn : (blockTokens body).length ≤ n) (rest : List Token)
    (hrest : (head rest).type ∈ terminators) :
    parseStatementBlock (unroll parseStatementWith n) terminators (blockTokens body ++ rest) =
      .ok body rest :=
  read_block h.reads h.wellFormed hterminators hn hrest

theorem elseTokens_eq (body : List Statement) :
    elseTokens body = if body = [] then [] else fixed .else_ :: blockTokens body := by
  cases body <;> simp [elseTokens, blockTokens]

/-- The tokens after the clauses of an IF or a CASE start with ELSE or the closing keyword. -/
theorem head_elseTokens (body : List Statement) (terminator : TokenType) (rest : List Token) :
    (head (elseTokens body ++ fixed terminator :: rest)).type ∈ [.else_, terminator] := by
  rw [elseTokens_eq]
  split <;> simp

/-- The last block is read back, whether it is there or not. -/
theorem read_else {body : List Statement} (h : ReadsBlock body) {terminator : TokenType}
    (hterminator : terminator ∉ stmtTypes) (helse : terminator ≠ .else_) {n : Nat}
    (hn : (elseTokens body).length ≤ n) (rest : List Token) :
    parseElse (unroll parseStatementWith n) terminator
        (elseTokens body ++ fixed terminator :: rest) = .ok body (fixed terminator :: rest) := by
  rw [elseTokens_eq] at hn ⊢
  split at hn
  · rename_i hnil
    simp [parseElse, hnil, helse]
  · rename_i hnil
    have hread := h.read (n := n) [terminator]
      (by rintro type htype hmem; exact hterminator (List.mem_singleton.mp hmem ▸ htype))
      (by simp at hn; omega) (fixed terminator :: rest) (by simp)
    simp [parseElse, hnil, hread]

theorem read_while {condition : Expression} {body : List Statement}
    (hw : exprWellFormed condition = true) (hp : exprPlain condition = true)
    (hbody : ReadsBlock body) : ReadsStmt (.whileStmt condition body) := by
  intro n rest hn
  simp only [stmtTokens, List.length_append, List.length_cons] at hn
  obtain ⟨m, rfl⟩ : ∃ m, n = m + 1 := ⟨n - 1, by omega⟩
  have hcondition := read_expression hw hp
    (fixed .do_ :: (blockTokens body ++ fixed .endWhile :: fixed .semicolon :: rest)) rfl
  have hblock := hbody.read (n := m) [.endWhile] (by decide) (by omega)
    (fixed .endWhile :: fixed .semicolon :: rest) (by simp)
  simp [unroll, parseStatementWith, parseWhileStmt, stmtTokens, expectAny, match_, isType,
    hcondition, hblock]

theorem read_repeat {condition : Expression} {body : List Statement}
    (hbody : ReadsBlock body) (hw : exprWellFormed condition = true)
    (hp : exprPlain condition = true) : ReadsStmt (.repeatStmt body condition) := by
  intro n rest hn
  simp only [stmtTokens, List.length_append, List.length_cons] at hn
  obtain ⟨m, rfl⟩ : ∃ m, n = m + 1 := ⟨n - 1, by omega⟩
  have hcondition := read_expression hw hp (fixed .endRepeat :: fixed .semicolon :: rest) rfl
  have hblock := hbody.read (n := m) [.until_] (by decide) (by omega)
    (fixed .until_ :: (exprTokens condition ++ fixed .endRepeat :: fixed .semicolon :: rest))
    (by simp)
  simp [unroll, parseStatementWith, parseRepeatStmt, stmtTokens, expectAny, match_, isType,
    hcondition, hblock]

/-- The step of a loop is read back, if it has one. -/
theorem read_step {step : Option Expression} (hw : step.all exprWellFormed = true)
    (hp : step.all exprPlain = true) (rest : List Token) :
    parseStep (stepTokens step ++ fixed .do_ :: rest) = .ok step (fixed .do_ :: rest) := by
  cases step with
  | none => simp [parseStep, stepTokens]
  | some e =>
    have he := read_expression hw hp (fixed .do_ :: rest) rfl
    simp [parseStep, stepTokens, he]

theorem endsExpr_step (step : Option Expression) (rest : List Token) :
    endsExpr (head (stepTokens step ++ fixed .do_ :: rest)) = true := by
  cases step <;> rfl

theorem read_for {var : Text} {start stop : Expression} {step : Option Expression}
    {body : List Statement} (hvar : isIdent var = true)
    (hw : exprWellFormed start = true ∧ exprWellFormed stop = true ∧ step.all exprWellFormed = true)
    (hp : exprPlain start = true ∧ exprPlain stop = true ∧ step.all exprPlain = true)
    (hbody : ReadsBlock body) : ReadsStmt (.forStmt var start stop step body) := by
  intro n rest hn
  simp only [stmtTokens, List.length_append, List.length_cons] at hn
  obtain ⟨m, rfl⟩ : ∃ m, n = m + 1 := ⟨n - 1, by omega⟩
  have hident : (word var).type = .ident := by
    simp only [isIdent, Bool.and_eq_true, beq_iff_eq] at hvar
    exact hvar.2
  have hstep := read_step hw.2.2 hp.2.2
    (blockTokens body ++ fixed .endFor :: fixed .semicolon :: rest)
  have hstop := read_expression hw.2.1 hp.2.1 _ (endsExpr_step step
    (blockTokens body ++ fixed .endFor :: fixed .semicolon :: rest))
  have hstart := read_expression hw.1 hp.1 (fixed .to :: (exprTokens stop ++ (stepTokens step ++
    fixed .do_ :: (blockTokens body ++ fixed .endFor :: fixed .semicolon :: rest)))) rfl
  have hblock := hbody.read (n := m) [.endFor] (by decide) (by omega)
    (fixed .endFor :: fixed .semicolon :: rest) (by simp)
  simp [unroll, parseStatementWith, parseForStmt, stmtTokens, expect, expectAny, match_, isType,
    hident, hstart, hstop, hstep, hblock]
  rfl

/-- The parser reads the rendering of the ELSIF clauses of an IF. -/
def ReadsElsIfs (clauses : List ElsIfClause) : Prop :=
  ∀ n rest, (elsIfTokens clauses).length ≤ n → (head rest).type ∈ [.else_, .endIf] →
    many (isType .elsif) (parseElsIf (unroll parseStatementWith n)) (elsIfTokens clauses ++ rest) =
      .ok clauses rest

/-- Behind the block of an IF stands what ends it. -/
theorem head_elsIfTokens (clauses : List ElsIfClause) {rest : List Token}
    (h : (head rest).type ∈ [.else_, .endIf]) :
    (head (elsIfTokens clauses ++ rest)).type ∈ [.elsif, .else_, .endIf] := by
  cases clauses with
  | nil => exact List.mem_cons_of_mem _ h
  | cons clause clauses =>
    cases clause
    simp [elsIfTokens]

theorem readsElsIfs_nil : ReadsElsIfs [] := by
  intro n rest _ hrest
  apply many_stop
  simp only [List.mem_cons, List.not_mem_nil, or_false] at hrest
  rcases hrest with h | h <;> simp [elsIfTokens, isType, h]

/-- A further test is read back with its block. -/
theorem readsElsIfs_cons {condition : Expression} {body : List Statement}
    {clauses : List ElsIfClause} (hw : exprWellFormed condition = true)
    (hp : exprPlain condition = true) (hbody : ReadsBlock body) (hclauses : ReadsElsIfs clauses) :
    ReadsElsIfs (.mk condition body :: clauses) := by
  intro n rest hn hrest
  simp only [elsIfTokens, List.length_cons, List.length_append] at hn
  have hcondition := read_expression hw hp
    (fixed .then_ :: (blockTokens body ++ (elsIfTokens clauses ++ rest))) rfl
  have hblock := hbody.read (n := n) [.elsif, .else_, .endIf] (by decide) (by omega)
    (elsIfTokens clauses ++ rest) (head_elsIfTokens clauses hrest)
  have hitem : parseElsIf (unroll parseStatementWith n) (fixed .elsif :: (exprTokens condition ++
      fixed .then_ :: (blockTokens body ++ (elsIfTokens clauses ++ rest)))) =
        .ok (some (.mk condition body)) (elsIfTokens clauses ++ rest) := by
    simp [parseElsIf, expectAny, hcondition, hblock]
  have hmany := many_next rfl hitem (by simp; omega) (hclauses n rest (by omega) hrest)
  simpa [elsIfTokens] using hmany

theorem read_if {condition : Expression} {thenBody elseBody : List Statement}
    {elsIfs : List ElsIfClause} (hw : exprWellFormed condition = true)
    (hp : exprPlain condition = true) (hthen : ReadsBlock thenBody) (helsIfs : ReadsElsIfs elsIfs)
    (helse : ReadsBlock elseBody) : ReadsStmt (.ifStmt condition thenBody elsIfs elseBody) := by
  intro n rest hn
  simp only [stmtTokens, List.length_append, List.length_cons] at hn
  obtain ⟨m, rfl⟩ : ∃ m, n = m + 1 := ⟨n - 1, by omega⟩
  have hhead := head_elseTokens elseBody .endIf (fixed .semicolon :: rest)
  have hcondition := read_expression hw hp (fixed .then_ :: (blockTokens thenBody ++
    (elsIfTokens elsIfs ++ (elseTokens elseBody ++ fixed .endIf :: fixed .semicolon :: rest)))) rfl
  have hblock := hthen.read (n := m) [.elsif, .else_, .endIf] (by decide) (by omega) _
    (head_elsIfTokens elsIfs hhead)
  have hclauses := helsIfs m _ (by omega) hhead
  have hrest := read_else helse (n := m) (by decide) (by decide : .endIf ≠ TokenType.else_)
    (by omega) (fixed .semicolon :: rest)
  simp [unroll, parseStatementWith, parseIfStmt, stmtTokens, expect, match_, isType, hcondition,
    hblock, hclauses, hrest]

theorem read_caseValues {values : List Expression} (hne : values ≠ [])
    (hw : argsWellFormed values = true) (hp : argsPlain values = true) (rest : List Token) :
    parseCaseValues (argTokens values ++ fixed .colon :: rest) = .ok values (fixed .colon :: rest) :=
  read_separated (fun e he => read_expression (mem_wellFormed hw e he) (mem_plain hp e he))
    (fun _ _ _ => rfl) rfl rfl (fun h => absurd h hne)

/-- The values of a clause start an expression. -/
theorem argTokens_starts {values : List Expression} (hne : values ≠ [])
    (hw : argsWellFormed values = true) (hp : argsPlain values = true) (rest : List Token) :
    startsExpr (head (argTokens values ++ rest)) = true := by
  cases values with
  | nil => exact absurd rfl hne
  | cons e values =>
    rw [argsWellFormed, Bool.and_eq_true] at hw
    rw [argsPlain, Bool.and_eq_true] at hp
    cases values with
    | nil => exact exprTokens_starts hw.1 hp.1 rest
    | cons e' values =>
      rw [argTokens, List.append_assoc]
      exact exprTokens_starts hw.1 hp.1 _

theorem endsClauses_head {rest : List Token} (h : (head rest).type ∈ [.else_, .endCase]) :
    endsClauses (head rest) = true := by
  simp only [List.mem_cons, List.not_mem_nil, or_false] at h
  rcases h with h | h <;> simp [endsClauses, isType, h]

/-- A CASE without clauses. -/
theorem readsClauses_nil {n : Nat} {rest : List Token} (h : (head rest).type ∈ [.else_, .endCase]) :
    many (fun tok => !endsClauses tok) (parseCaseClause (unroll parseStatementWith n)) rest =
      .ok [] rest :=
  many_stop (by simp [endsClauses_head h])

/-- A CASE with one clause: its body reaches up to ELSE or END_CASE. -/
theorem readsClauses_one {values : List Expression} {body : List Statement} (hne : values ≠ [])
    (hw : argsWellFormed values = true) (hp : argsPlain values = true) (hbody : ReadsBlock body)
    {n : Nat} (hn : (blockTokens body).length ≤ n) {rest : List Token}
    (h : (head rest).type ∈ [.else_, .endCase]) :
    many (fun tok => !endsClauses tok) (parseCaseClause (unroll parseStatementWith n))
        (argTokens values ++ fixed .colon :: (blockTokens body ++ rest)) =
      .ok [.mk values body] rest := by
  have hvalues := read_caseValues hne hw hp (blockTokens body ++ rest)
  have hblock := hbody.read [.endCase, .else_] (by decide) hn rest
    (by simpa [or_comm] using h)
  have hitem : parseCaseClause (unroll parseStatementWith n)
      (argTokens values ++ fixed .colon :: (blockTokens body ++ rest)) =
        .ok (some (.mk values body)) rest := by
    simp [parseCaseClause, expectAny, hvalues, hblock]
  have hgo : endsClauses (head (argTokens values ++ fixed .colon :: (blockTokens body ++ rest))) =
      false := by
    have hstart := argTokens_starts hne hw hp (fixed .colon :: (blockTokens body ++ rest))
    by_contra hends
    simp only [endsClauses, isType, Bool.not_eq_false, Bool.or_eq_true, beq_iff_eq] at hends
    rcases hends with (h | h) | h <;> simp [startsExpr, h] at hstart
  exact many_next (by simp [hgo]) hitem (by simp; omega) (readsClauses_nil h)

/-- A CASE whose clauses are read back is read back. -/
theorem read_case {expression : Expression} {cases : List CaseClause} {elseBody : List Statement}
    (hw : exprWellFormed expression = true) (hp : exprPlain expression = true)
    (hcases : ∀ n rest, (clauseTokens cases).length ≤ n → (head rest).type ∈ [.else_, .endCase] →
      many (fun tok => !endsClauses tok) (parseCaseClause (unroll parseStatementWith n))
        (clauseTokens cases ++ rest) = .ok cases rest)
    (helse : ReadsBlock elseBody) : ReadsStmt (.caseStmt expression cases elseBody) := by
  intro n rest hn
  simp only [stmtTokens, List.length_append, List.length_cons] at hn
  obtain ⟨m, rfl⟩ : ∃ m, n = m + 1 := ⟨n - 1, by omega⟩
  have hhead := head_elseTokens elseBody .endCase (fixed .semicolon :: rest)
  have hexpression := read_expression hw hp (fixed .of :: (clauseTokens cases ++
    (elseTokens elseBody ++ fixed .endCase :: fixed .semicolon :: rest))) rfl
  have hclauses := hcases m _ (by omega) hhead
  have hrest := read_else helse (n := m) (by decide) (by decide : .endCase ≠ TokenType.else_)
    (by omega) (fixed .semicolon :: rest)
  simp [unroll, parseStatementWith, parseCaseStmt, stmtTokens, expectAny, match_, isType,
    hexpression, hclauses, hrest]

mutual

theorem read_stmt : ∀ s : Statement, stmtWellFormed s = true → stmtPlain s = true → ReadsStmt s
  | .assignStmt target value, hw, hp => by
    simp only [stmtWellFormed, stmtPlain, Bool.and_eq_true] at hw hp
    exact read_assign hw.1 hw.2 hp
  | .ifStmt condition thenBody elsIfs elseBody, hw, hp => by
    simp only [stmtWellFormed, stmtPlain, Bool.and_eq_true] at hw hp
    exact read_if hw.1.1.1 hp.1.1.1 (read_stmts thenBody hw.1.1.2 hp.1.1.2)
      (read_elsIfs elsIfs hw.1.2 hp.1.2) (read_stmts elseBody hw.2 hp.2)
  | .forStmt var start stop step body, hw, hp => by
    simp only [stmtWellFormed, stmtPlain, Bool.and_eq_true] at hw hp
    exact read_for hw.1.1.1.1 ⟨hw.1.1.1.2, hw.1.1.2, hw.1.2⟩ ⟨hp.1.1.1, hp.1.1.2, hp.1.2⟩
      (read_stmts body hw.2 hp.2)
  | .whileStmt condition body, hw, hp => by
    simp only [stmtWellFormed, stmtPlain, Bool.and_eq_true] at hw hp
    exact read_while hw.1 hp.1 (read_stmts body hw.2 hp.2)
  | .repeatStmt body condition, hw, hp => by
    simp only [stmtWellFormed, stmtPlain, Bool.and_eq_true] at hw hp
    exact read_repeat (read_stmts body hw.1 hp.1) hw.2 hp.2
  | .caseStmt expression [] elseBody, hw, hp => by
    simp only [stmtWellFormed, stmtPlain, Bool.and_eq_true] at hw hp
    exact read_case hw.1.1 hp.1.1.1 (fun n rest _ hrest => readsClauses_nil hrest)
      (read_stmts elseBody hw.2 hp.2)
  | .caseStmt expression [.mk values body] elseBody, hw, hp => by
    simp only [stmtWellFormed, stmtPlain, clausesWellFormed, clausesPlain, Bool.and_eq_true] at hw hp
    have hbody := read_stmts body hw.1.2.1.2 hp.1.1.2.1.2
    have hne : values ≠ [] := by simpa using hw.1.2.1.1.1
    apply read_case hw.1.1 hp.1.1.1 _ (read_stmts elseBody hw.2 hp.2)
    intro n rest hn hrest
    simp only [clauseTokens, List.length_append, List.length_cons] at hn
    have hread := readsClauses_one hne hw.1.2.1.1.2 hp.1.1.2.1.1 hbody (n := n) (by omega) hrest
    simpa [clauseTokens] using hread
  | .caseStmt expression (_ :: _ :: _) elseBody, _, hp => by
    simp [stmtPlain] at hp
  | .callStmt name args, hw, hp => by
    simp only [stmtWellFormed, stmtPlain, Bool.and_eq_true] at hw hp
    exact read_call hw.1 hw.2 hp
  | .returnStmt, _, _ => by
    intro n rest hn
    obtain ⟨m, rfl⟩ : ∃ m, n = m + 1 := ⟨n - 1, by simp [stmtTokens] at hn; omega⟩
    simp [unroll, parseStatementWith, stmtTokens, match_, isType]

theorem read_stmts : ∀ body : List Statement, blockWellFormed body = true →
    blockPlain body = true → ReadsBlock body
  | [], _, _ => ⟨by simp, rfl⟩
  | s :: body, hw, hp => by
    have hwf := hw
    simp only [blockWellFormed, blockPlain, Bool.and_eq_true] at hw hp
    refine ⟨?_, hwf⟩
    intro x hx
    rcases List.mem_cons.mp hx with heq | hx
    · exact heq ▸ read_stmt s hw.1 hp.1
    · exact (read_stmts body hw.2 hp.2).reads x hx

theorem read_elsIfs : ∀ clauses : List ElsIfClause, elsIfsWellFormed clauses = true →
    elsIfsPlain clauses = true → ReadsElsIfs clauses
  | [], _, _ => readsElsIfs_nil
  | .mk condition body :: clauses, hw, hp => by
    simp only [elsIfsWellFormed, elsIfsPlain, Bool.and_eq_true] at hw hp
    exact readsElsIfs_cons hw.1.1 hp.1.1 (read_stmts body hw.1.2 hp.1.2)
      (read_elsIfs clauses hw.2 hp.2)

end

/-! ## Reading programs -/

/-- An initial value is read back, if there is one. -/
theorem read_initial {initial : Option Expression} (hw : initial.all exprWellFormed = true)
    (hp : initial.all exprPlain = true) (rest : List Token) :
    parseInitial (initialTokens initial ++ fixed .semicolon :: rest) =
      .ok initial (fixed .semicolon :: rest) := by
  cases initial with
  | none => simp [parseInitial, initialTokens]
  | some e =>
    have he := read_expression hw hp (fixed .semicolon :: rest) rfl
    simp [parseInitial, initialTokens, he]

theorem read_decl [LetterCase] {decl : VarDecl} (hw : declWellFormed decl = true)
    (hp : declPlain decl = true) (rest : List Token) :
    parseVarDecl (declTokens decl ++ rest) = .ok (some decl) rest := by
  simp only [declWellFormed, isIdent, Bool.and_eq_true, beq_iff_eq] at hw
  obtain ⟨⟨⟨⟨-, hident⟩, -⟩, hupper⟩, hinitial⟩ := hw
  have hread := read_initial hinitial hp rest
  have htype : (word decl.name).type = .ident := hident
  simp [parseVarDecl, declTokens, expect, match_, isType, htype, hread]
  simp [word, hupper]

theorem read_decls [LetterCase] {decls : List VarDecl}
    (hw : decls.all declWellFormed = true) (hp : decls.all declPlain = true) (rest : List Token) :
    many insideVarBlock parseVarDecl
        (decls.flatMap declTokens ++ fixed .endVar :: rest) = .ok decls (fixed .endVar :: rest) := by
  induction decls with
  | nil => exact many_stop rfl
  | cons decl decls ih =>
    simp only [List.all_cons, Bool.and_eq_true] at hw hp
    have hident : (word decl.name).type = .ident := by
      have hdecl := hw.1
      simp only [declWellFormed, isIdent, Bool.and_eq_true, beq_iff_eq] at hdecl
      exact hdecl.1.1.1.2
    rw [List.flatMap_cons, List.append_assoc]
    exact many_next (by simp [declTokens, insideVarBlock, isType, hident]) (read_decl hw.1 hp.1 _)
      (by simp [declTokens]; omega) (ih hw.2 hp.2)

theorem read_varBlock [LetterCase] {block : VarBlock}
    (hw : block.vars.all declWellFormed = true) (hp : block.vars.all declPlain = true)
    (rest : List Token) :
    parseItem (varBlockTokens block ++ rest) = .ok (some (.varBlock block)) rest := by
  obtain ⟨kind, vars⟩ := block
  have hread := read_decls hw hp rest
  cases kind <;>
    simp [parseItem, isVarBlockStart, isType, parseVarBlock, varBlockTokens, kindType, varKind,
      match_, hread]

/-- A statement is read back as an item of the program. -/
theorem read_item_stmt [LetterCase] {s : Statement} (hw : stmtWellFormed s = true)
    (hp : stmtPlain s = true) (rest : List Token) :
    parseItem (stmtTokens s ++ rest) = .ok (some (.statement s)) rest := by
  have hstart := stmtTokens_starts hw rest
  have hblock : isVarBlockStart (head (stmtTokens s ++ rest)) = false := by
    by_contra h
    simp only [isVarBlockStart, isType, Bool.not_eq_false, Bool.or_eq_true, beq_iff_eq] at h
    rcases h with (h | h) | h <;> simp [stmtTypes, h] at hstart
  have hread : parseStatement (stmtTokens s ++ rest) = .ok (some s) rest :=
    read_stmt s hw hp _ rest (by simp; omega)
  simp [parseItem, hblock, hread]

def programItems (p : Program) : List Item :=
  p.varBlocks.map .varBlock ++ p.statements.map .statement

theorem program_programItems (p : Program) : program p.name (programItems p) = p := by
  obtain ⟨name, varBlocks, statements⟩ := p
  simp [program, programItems, List.filterMap_append, List.filterMap_map, Function.comp_def,
    Item.varBlock?, Item.statement?]

theorem read_items_stmts [LetterCase] {body : List Statement}
    (hw : blockWellFormed body = true) (hp : blockPlain body = true) (rest : List Token) :
    many insideProgram parseItem (blockTokens body ++ fixed .endProgram :: rest) =
      .ok (body.map .statement) (fixed .endProgram :: rest) := by
  induction body with
  | nil => exact many_stop rfl
  | cons s body ih =>
    simp only [blockWellFormed, blockPlain, Bool.and_eq_true] at hw hp
    have hstart := stmtTokens_starts hw.1 (blockTokens body ++ fixed .endProgram :: rest)
    have hgo : insideProgram (head (stmtTokens s ++ (blockTokens body ++
        fixed .endProgram :: rest))) = true := by
      by_contra h
      simp only [insideProgram, isType, Bool.not_eq_true, Bool.and_eq_false_iff,
        Bool.not_eq_false', beq_iff_eq] at h
      rcases h with h | h <;> simp [stmtTypes, h] at hstart
    have hlength := stmtTokens_length_pos hw.1
    rw [blockTokens, List.append_assoc]
    exact many_next hgo (read_item_stmt hw.1 hp.1 _) (by simp; omega) (ih hw.2 hp.2)

theorem read_items [LetterCase] {blocks : List VarBlock} {body : List Statement}
    (hwb : blocks.all (fun block => block.vars.all declWellFormed) = true)
    (hpb : blocks.all (fun block => block.vars.all declPlain) = true)
    (hw : blockWellFormed body = true) (hp : blockPlain body = true) (rest : List Token) :
    many insideProgram parseItem (blocks.flatMap varBlockTokens ++
        (blockTokens body ++ fixed .endProgram :: rest)) =
      .ok (blocks.map .varBlock ++ body.map .statement) (fixed .endProgram :: rest) := by
  induction blocks with
  | nil => exact read_items_stmts hw hp rest
  | cons block blocks ih =>
    simp only [List.all_cons, Bool.and_eq_true] at hwb hpb
    have hgo : insideProgram (fixed (kindType block.kind)) = true := by
      cases block.kind <;> rfl
    rw [List.flatMap_cons, List.append_assoc]
    exact many_next hgo (read_varBlock hwb.1 hpb.1 _) (by simp [varBlockTokens]; omega)
      (ih hwb.2 hpb.2)

theorem parse_render [LetterCase] {p : Program} (hw : wellFormed p = true) (hp : plain p = true) :
    parse (render p) = some (.ok p) := by
  have hlex := lex_render hw
  simp only [wellFormed, plain, Bool.and_eq_true] at hw hp
  have hitems := read_items hw.1.2 hp.1 hw.2 hp.2 [⟨.eof, [], 1⟩]
  have hread : parseProgram (programTokens p ++ [⟨.eof, [], 1⟩]) = .ok p [⟨.eof, [], 1⟩] := by
    simp [parseProgram, programTokens, hitems, match_, isType]
    exact program_programItems p
  rw [parse, hlex, hread]
  rfl

/-! ## Every program the parser builds is plain -/

theorem argsPlain_of_mem {args : List Expression} (h : ∀ e ∈ args, exprPlain e = true) :
    argsPlain args = true := by
  induction args with
  | nil => rfl
  | cons e args ih =>
    rw [argsPlain, h e List.mem_cons_self, ih fun x hx => h x (List.mem_cons_of_mem e hx)]
    rfl

theorem blockPlain_of_mem {body : List Statement} (h : ∀ s ∈ body, stmtPlain s = true) :
    blockPlain body = true := by
  induction body with
  | nil => rfl
  | cons s body ih =>
    rw [blockPlain, h s List.mem_cons_self, ih fun x hx => h x (List.mem_cons_of_mem s hx)]
    rfl

theorem elsIfsPlain_of_mem {clauses : List ElsIfClause}
    (hclauses : ∀ x ∈ clauses, elsIfsPlain [x] = true) : elsIfsPlain clauses = true := by
  induction clauses with
  | nil => rfl
  | cons clause clauses ih =>
    have hhead := hclauses clause List.mem_cons_self
    have htail := ih fun x hx => hclauses x (List.mem_cons_of_mem clause hx)
    cases clause
    simp_all [elsIfsPlain]

theorem clausesPlain_of_mem {clauses : List CaseClause}
    (hclauses : ∀ x ∈ clauses, clausesPlain [x] = true) : clausesPlain clauses = true := by
  induction clauses with
  | nil => rfl
  | cons clause clauses ih =>
    have hhead := hclauses clause List.mem_cons_self
    have htail := ih fun x hx => hclauses x (List.mem_cons_of_mem clause hx)
    cases clause
    simp_all [clausesPlain]

/-- A parser of expressions that builds no member access. -/
def PlainExpr (p : P Expression) : Prop := Ensures p fun e _ => exprPlain e = true

/-- Arguments that are parsed are plain, if their expressions are. -/
theorem ensures_callArgs {expression : P Expression} (h : PlainExpr expression) :
    Ensures (parseCallArgs expression) fun args _ => argsPlain args = true := by
  apply ensures_then
  intro _
  refine (ensures_separated h).bind ?_
  intro args hargs
  apply ensures_then
  intro _
  exact ensures_pure fun _ => argsPlain_of_mem hargs

theorem ensures_primary {expression : P Expression} (h : PlainExpr expression) :
    PlainExpr (parsePrimary expression) := by
  apply ensures_then
  intro tok
  split
  case h_6 =>
    exact ensures_then fun _ => h.bind fun _ he => ensures_then fun _ => ensures_pure fun _ => he
  case h_7 =>
    apply ensures_then
    intro _
    apply ensures_then
    intro name
    apply ensures_then
    intro next
    exact ensures_ite ((ensures_callArgs h).bind fun _ hargs => ensures_pure fun _ => hargs)
      (ensures_pure fun _ => rfl)
  case h_8 => exact ensures_fail
  all_goals exact ensures_then fun _ => ensures_pure fun _ => rfl

theorem ensures_unary {expression : P Expression} (h : PlainExpr expression) :
    PlainExpr (parseUnary expression) := by
  apply ensures_recursive
  intro unary hunary
  apply ensures_then
  intro tok
  apply ensures_ite
  · exact ensures_then fun _ => hunary.bind fun _ hoperand => ensures_pure fun _ => hoperand
  apply ensures_ite
  · exact ensures_then fun _ => (ensures_primary h).bind fun _ hoperand =>
      ensures_pure fun _ => hoperand
  · exact ensures_primary h

theorem ensures_level {op : Token → Option BinaryOp} {operand : P Expression}
    (h : PlainExpr operand) : PlainExpr (chain op operand .binaryExpr) :=
  ensures_chain h fun a b c ha hc => by simp [exprPlain, ha, hc]

theorem ensures_expression : PlainExpr parseExpression :=
  ensures_recursive fun _ h => ensures_level (ensures_level (ensures_level (ensures_level
    (ensures_level (ensures_level (ensures_unary h))))))

/-- A parser of statements that builds plain statements. -/
def PlainStmt (p : P (Option Statement)) : Prop := Ensures p fun s _ => ∀ x ∈ s, stmtPlain x = true

/-- An assignment or a call that is parsed is plain. -/
theorem ensures_assignOrCall : Ensures parseAssignOrCall fun s _ => stmtPlain s = true := by
  apply ensures_then
  intro nameTok
  apply ensures_then
  intro fullName
  apply ensures_then
  intro next
  apply ensures_ite
  · exact ensures_then fun _ => ensures_expression.bind fun _ hval => ensures_then fun _ =>
      ensures_pure fun _ => hval
  apply ensures_ite
  · exact (ensures_callArgs ensures_expression).bind fun _ hargs => ensures_then fun _ =>
      ensures_pure fun _ => hargs
  · exact ensures_then fun _ => ensures_pure fun _ => rfl

section

variable {statement : P (Option Statement)} (h : PlainStmt statement)

include h

theorem ensures_block (terminators : List TokenType) :
    Ensures (parseStatementBlock statement terminators) fun body rest => blockPlain body = true ∧
      ((head rest).type = .eof ∨ (head rest).type ∈ terminators) := by
  refine (ensures_many h).mono ?_
  rintro body rest ⟨hbody, hstop⟩
  refine ⟨blockPlain_of_mem hbody, ?_⟩
  simpa [isType, Decidable.or_iff_not_imp_left] using hstop

theorem ensures_body (terminators : List TokenType) :
    Ensures (parseStatementBlock statement terminators) fun body _ => blockPlain body = true :=
  (ensures_block h terminators).mono fun _ _ hbody => hbody.1

theorem ensures_else (terminator : TokenType) :
    Ensures (parseElse statement terminator) fun body _ => blockPlain body = true := by
  apply ensures_then
  intro tok
  exact ensures_ite (ensures_then fun _ => ensures_body h _) (ensures_pure fun _ => rfl)

theorem ensures_elsIf : Ensures (parseElsIf statement)
    fun clause _ => ∀ x ∈ clause, elsIfsPlain [x] = true := by
  apply ensures_then
  intro _
  refine ensures_expression.bind ?_
  intro condition hcondition
  apply ensures_then
  intro _
  refine (ensures_body h _).bind ?_
  intro body hbody
  apply ensures_pure
  rintro _ x hx
  cases hx
  simp [elsIfsPlain, hcondition, hbody]

theorem ensures_caseClause : Ensures (parseCaseClause statement) fun clause rest =>
    (∀ x ∈ clause, clausesPlain [x] = true) ∧ endsClauses (head rest) = true := by
  refine (ensures_separated ensures_expression).bind ?_
  intro values hvalues
  apply ensures_then
  intro _
  refine (ensures_block h _).map ?_
  rintro body rest ⟨hbody, hstop⟩
  constructor
  · rintro x hx
    cases hx
    simp [clausesPlain, hbody, argsPlain_of_mem hvalues]
  · simp only [List.mem_cons, List.not_mem_nil, or_false] at hstop
    rcases hstop with h | h | h <;> simp [endsClauses, isType, h]

theorem ensures_if : Ensures (parseIfStmt statement) fun s _ => stmtPlain s = true := by
  apply ensures_then
  intro _
  refine ensures_expression.bind fun condition hcondition => ?_
  apply ensures_then
  intro _
  refine (ensures_body h _).bind fun thenBody hthen => ?_
  refine ((ensures_many (ensures_elsIf h)).mono fun _ _ hmany => hmany.1).bind
    fun elsIfs helsIfs => ?_
  refine (ensures_else h _).bind fun elseBody helse => ?_
  apply ensures_then
  intro _
  apply ensures_then
  intro _
  apply ensures_pure
  intro _
  simp [stmtPlain, hcondition, hthen, elsIfsPlain_of_mem helsIfs, helse]

theorem ensures_for : Ensures (parseForStmt statement) fun s _ => stmtPlain s = true := by
  apply ensures_then
  intro _
  apply ensures_then
  intro varTok
  apply ensures_then
  intro _
  refine ensures_expression.bind fun start hstart => ?_
  apply ensures_then
  intro _
  refine ensures_expression.bind fun stop hstop => ?_
  have hstep : Ensures parseStep fun step _ => step.all exprPlain = true :=
    ensures_then fun _ => ensures_ite
      (ensures_then fun _ => ensures_expression.bind fun _ he => ensures_pure fun _ => he)
      (ensures_pure fun _ => rfl)
  refine hstep.bind fun step hstep => ?_
  apply ensures_then
  intro _
  refine (ensures_body h _).bind fun body hbody => ?_
  apply ensures_then
  intro _
  apply ensures_then
  intro _
  apply ensures_pure
  intro _
  simp [stmtPlain, hstart, hstop, hstep, hbody]

theorem ensures_while : Ensures (parseWhileStmt statement) fun s _ => stmtPlain s = true := by
  apply ensures_then
  intro _
  refine ensures_expression.bind fun condition hcondition => ?_
  apply ensures_then
  intro _
  refine (ensures_body h _).bind fun body hbody => ?_
  apply ensures_then
  intro _
  apply ensures_then
  intro _
  apply ensures_pure
  intro _
  simp [stmtPlain, hcondition, hbody]

theorem ensures_repeat : Ensures (parseRepeatStmt statement) fun s _ => stmtPlain s = true := by
  apply ensures_then
  intro _
  refine (ensures_body h _).bind fun body hbody => ?_
  apply ensures_then
  intro _
  refine ensures_expression.bind fun condition hcondition => ?_
  apply ensures_then
  intro _
  apply ensures_then
  intro _
  apply ensures_pure
  intro _
  simp [stmtPlain, hcondition, hbody]

/-- The block of the first clause runs up to ELSE or END_CASE, so there is no second one. -/
theorem ensures_case : Ensures (parseCaseStmt statement) fun s _ => stmtPlain s = true := by
  have hclause := ensures_caseClause h
  have hcases : Ensures (many (fun tok => !endsClauses tok) (parseCaseClause statement))
      fun cases _ => clausesPlain cases = true ∧ cases.length ≤ 1 := by
    intro ts cases rest hok
    have hplain := ensures_many (hclause.mono fun _ _ hx => hx.1) ts cases rest hok
    have honce := ensures_many_once (hclause.mono fun _ _ hx => by simp [hx.2]) ts cases rest hok
    exact ⟨clausesPlain_of_mem hplain.1, honce⟩
  apply ensures_then
  intro _
  refine ensures_expression.bind fun expr hexpr => ?_
  apply ensures_then
  intro _
  refine hcases.bind fun cases hcases => ?_
  refine (ensures_else h _).bind fun elseBody helse => ?_
  apply ensures_then
  intro _
  apply ensures_then
  intro _
  apply ensures_pure
  intro _
  simp [stmtPlain, hexpr, hcases, helse]

/-- Whatever statement is parsed is plain, if those in it are. -/
theorem ensures_statementWith : PlainStmt (parseStatementWith statement) := by
  have hsome : ∀ {p : P Statement}, (Ensures p fun s _ => stmtPlain s = true) →
      PlainStmt (some <$> p) :=
    fun hp => hp.map fun s _ hs x hx => by cases hx; exact hs
  apply ensures_then
  intro tok
  split
  · exact hsome (ensures_if h)
  · exact hsome (ensures_for h)
  · exact hsome (ensures_while h)
  · exact hsome (ensures_repeat h)
  · exact hsome (ensures_case h)
  · refine ensures_then fun _ => ensures_then fun _ => ensures_pure fun _ x hx => ?_
    cases hx
    rfl
  · exact hsome ensures_assignOrCall
  · exact ensures_then fun _ => ensures_pure fun _ x hx => by cases hx

end

theorem ensures_statement : PlainStmt parseStatement :=
  ensures_recursive fun _ h => ensures_statementWith h

theorem ensures_varBlock [LetterCase] :
    Ensures parseVarBlock fun block _ => block.vars.all declPlain = true := by
  have hinitial : Ensures parseInitial fun initial _ => initial.all exprPlain = true :=
    ensures_then fun _ => ensures_ite
      (ensures_then fun _ => (ensures_expression.withError _).bind fun _ he =>
        ensures_pure fun _ => he)
      (ensures_pure fun _ => rfl)
  have hdecl : Ensures parseVarDecl fun decl _ => ∀ x ∈ decl, declPlain x = true := by
    apply ensures_then
    intro _
    apply ensures_then
    intro _
    apply ensures_then
    intro _
    refine hinitial.bind fun initial hinitial => ?_
    refine ensures_then fun _ => ensures_pure fun _ x hx => ?_
    cases hx
    exact hinitial
  apply ensures_then
  intro _
  refine ((ensures_many hdecl).mono fun _ _ hmany => hmany.1).bind fun vars hvars => ?_
  exact ensures_then fun _ => ensures_pure fun _ => by simpa using hvars

def Item.plain : Item → Bool
  | .varBlock block => block.vars.all declPlain
  | .statement s => stmtPlain s

theorem ensures_item [LetterCase] :
    Ensures parseItem fun item _ => ∀ x ∈ item, Item.plain x = true := by
  apply ensures_then
  intro tok
  apply ensures_ite
  · refine ensures_varBlock.bind fun block hblock => ensures_pure fun _ x hx => ?_
    cases hx
    exact hblock
  · refine ensures_statement.bind fun s hs => ensures_pure fun _ x hx => ?_
    cases s with
    | none => cases hx
    | some s =>
      cases hx
      exact hs s rfl

theorem plain_program {name : Text} {items : List Item}
    (h : ∀ x ∈ items, Item.plain x = true) : plain (program name items) = true := by
  have hblocks : (items.filterMap Item.varBlock?).all
      (fun block => block.vars.all declPlain) = true := by
    rw [List.all_eq_true]
    intro block hblock
    obtain ⟨item, hitem, heq⟩ := List.mem_filterMap.mp hblock
    cases item with
    | varBlock b =>
      cases heq
      exact h _ hitem
    | statement s => cases heq
  have hstatements : blockPlain (items.filterMap Item.statement?) = true := by
    apply blockPlain_of_mem
    intro s hs
    obtain ⟨item, hitem, heq⟩ := List.mem_filterMap.mp hs
    cases item with
    | varBlock b => cases heq
    | statement s =>
      cases heq
      exact h _ hitem
  simp [plain, program, hblocks, hstatements]

theorem ensures_program [LetterCase] : Ensures parseProgram fun p _ => plain p = true := by
  have hitems : ∀ go, Ensures (many go parseItem) fun items _ => ∀ x ∈ items, Item.plain x = true :=
    fun go => (ensures_many ensures_item).mono fun _ _ hmany => hmany.1
  apply ensures_then
  intro tok
  apply ensures_ite
  · apply ensures_then
    intro _
    apply ensures_then
    intro nameTok
    refine (hitems _).bind fun items hplain => ?_
    exact ensures_then fun _ => ensures_pure fun _ => plain_program hplain
  · exact (hitems _).bind fun items hplain => ensures_pure fun _ => plain_program hplain

theorem plain_of_parse [LetterCase] {source : Text} {p : Program}
    (h : parse source = some (.ok p)) : plain p = true := by
  obtain ⟨rest, hok⟩ := Reply.result_eq_ok h
  exact ensures_program _ p rest hok

/-- The round trip of a well-formed program, exactly. -/
theorem parse_render_iff [LetterCase] {p : Program} (h : wellFormed p = true) :
    parse (render p) = some (.ok p) ↔ plain p = true :=
  ⟨plain_of_parse, parse_render h⟩

/-- `IF ( level > 5 ) THEN valve.open := TRUE ; ELSE alarm ( level ) ; END_IF ;` -/
def valveProgram : Program where
  name := "main".toList
  varBlocks := [⟨.var, [⟨"level".toList, "REAL".toList, some (.numberLit "0".toList)⟩]⟩]
  statements := [.ifStmt (.binaryExpr (.identExpr "level".toList) .greater (.numberLit "5".toList))
    [.assignStmt "valve.open".toList (.boolLit true)] []
    [.callStmt "alarm".toList [.identExpr "level".toList]]]

theorem parse_render_valveProgram :
    letI := asciiCase
    wellFormed valveProgram = true ∧ parse (render valveProgram) = some (.ok valveProgram) := by
  let _ := asciiCase
  exact ⟨by decide, (parse_render_iff (by decide)).mpr (by decide)⟩

/-- `CASE mode OF 1 : speed := 10 ; 2 : speed := 20 ; END_CASE ;` -/
def speedProgram : Program where
  name := "main".toList
  varBlocks := []
  statements := [.caseStmt (.identExpr "mode".toList)
    [.mk [.numberLit "1".toList] [.assignStmt "speed".toList (.numberLit "10".toList)],
      .mk [.numberLit "2".toList] [.assignStmt "speed".toList (.numberLit "20".toList)]] []]

/-- The same with both assignments in the first clause. -/
def speedProgramRead : Program where
  name := "main".toList
  varBlocks := []
  statements := [.caseStmt (.identExpr "mode".toList)
    [.mk [.numberLit "1".toList] [.assignStmt "speed".toList (.numberLit "10".toList),
      .assignStmt "speed".toList (.numberLit "20".toList)]] []]

theorem parse_render_speedProgram :
    letI := asciiCase
    wellFormed speedProgram = true ∧
      parse (render speedProgram) = some (.ok speedProgramRead) ∧
        speedProgramRead ≠ speedProgram := by
  let _ := asciiCase
  refine ⟨by decide, ?_, ?_⟩
  · rw [parse, lex_render (by decide)]
    rfl
  · intro h
    have hplain : plain speedProgramRead = plain speedProgram := by rw [h]
    revert hplain
    decide

end StRoundTrip
