import Tentacle.CountedDescent
import Tentacle.StParser

/-!
# Structured Text: the parser with its calls counted

The parser of `StParser` once more, function by function, with the calls and loop iterations of the
source counted: one for each call of a function of the parser, one for each iteration of a loop. A
condition counts with all the `peek`s it can make, and `match` as if it went over a token, so the
count is never below the source's.
-/

namespace StCountedParser
open StSyntax StParser
open RecursiveDescent.Counted

abbrev C (α : Type) := RecursiveDescent.Counted Token ParseError α

def peek : C Token := prim 1 RecursiveDescent.peek

/-- `advance` calls `peek`. -/
def advance : C Token := prim 2 RecursiveDescent.advance

def expect (type : TokenType) : C Token := prim 3 (StParser.expect type)

def expectAny (type : TokenType) : C Token := prim 3 (StParser.expectAny type)

def match_ (type : TokenType) : C Bool := prim 4 (StParser.match_ type)

/-! ## Expressions -/

def parseMember : C (Option Text) := do
  let _ ← advance
  let memberTok ← advance
  pure (some memberTok.literal)

def parseMembers (name : Text) : C Text := do
  let members ← many 1 (isType .dot) parseMember
  pure (members.foldl (fun fullName member => fullName ++ '.' :: member) name)

def parseCallArgs (expression : C Expression) : C (List Expression) :=
  call do
    let _ ← expectAny .lparen
    let args ← separated 2 4 endsArgs (isType .comma) expression
    let _ ← expectAny .rparen
    pure args

def parsePrimary (expression : C Expression) : C Expression :=
  call do
    let tok ← peek
    match tok.type with
    | .number => do
      let _ ← advance
      pure (.numberLit tok.literal)
    | .string => do
      let _ ← advance
      pure (.stringLit tok.literal)
    | .true_ => do
      let _ ← advance
      pure (.boolLit true)
    | .false_ => do
      let _ ← advance
      pure (.boolLit false)
    | .timeLiteral => do
      let _ ← advance
      pure (.timeLit tok.literal)
    | .lparen => do
      let _ ← advance
      let expr ← expression
      let _ ← expectAny .rparen
      pure expr
    | .ident => do
      let _ ← advance
      let name ← parseMembers tok.literal
      let next ← peek
      if next.type = .lparen then do
        let args ← parseCallArgs expression
        pure (.callExpr name args)
      else pure (.identExpr name)
    | _ => prim 0 (RecursiveDescent.fail (.unexpected tok.line tok.literal))

/-- The source looks at the token once for each of the two operators. -/
def parseUnary (expression : C Expression) : C Expression :=
  recursive fun unary => call do
    let tok ← peek
    if tok.type = .not then do
      let _ ← advance
      let operand ← unary
      pure (.unaryExpr .not operand)
    else
      tick 1 (if tok.type = .minus then do
        let _ ← advance
        let operand ← parsePrimary expression
        pure (.unaryExpr .minus operand)
      else parsePrimary expression)

def parseMultiplication (expression : C Expression) : C Expression :=
  call (chain 3 2 multiplicationOp (parseUnary expression) .binaryExpr)

def parseAddition (expression : C Expression) : C Expression :=
  call (chain 2 2 additionOp (parseMultiplication expression) .binaryExpr)

/-- The loop has its test inside, so the last iteration counts too. -/
def parseComparison (expression : C Expression) : C Expression :=
  call (chain 2 2 comparisonOp (parseAddition expression) .binaryExpr)

def parseAnd (expression : C Expression) : C Expression :=
  call (chain 1 2 andOp (parseComparison expression) .binaryExpr)

def parseXor (expression : C Expression) : C Expression :=
  call (chain 1 2 xorOp (parseAnd expression) .binaryExpr)

def parseOr (expression : C Expression) : C Expression :=
  call (chain 1 2 orOp (parseXor expression) .binaryExpr)

def parseExpression : C Expression := recursive fun expression => call (parseOr expression)

/-! ## Statements -/

def parseAssignOrCall : C Statement :=
  call do
    let nameTok ← advance
    let fullName ← parseMembers nameTok.literal
    let next ← peek
    if next.type = .assign then do
      let _ ← advance
      let val ← parseExpression
      let _ ← match_ .semicolon
      pure (.assignStmt fullName val)
    else
      tick 1 (if next.type = .lparen then do
        let args ← parseCallArgs parseExpression
        let _ ← match_ .semicolon
        pure (.callStmt fullName args)
      else do
        let _ ← match_ .semicolon
        pure (.assignStmt fullName (.identExpr fullName)))

section

variable (statement : C (Option Statement))

/-- The test goes over the terminators, inside the loop. -/
def parseStatementBlock (terminators : List TokenType) : C (List Statement) :=
  call (many (2 + terminators.length)
    (fun tok => !isType .eof tok && !terminators.contains tok.type) statement)

def parseElsIf : C (Option ElsIfClause) := do
  let _ ← advance
  let elsifCond ← parseExpression
  let _ ← expectAny .then_
  let body ← parseStatementBlock statement [.elsif, .else_, .endIf]
  pure (some (.mk elsifCond body))

def parseElse (terminator : TokenType) : C (List Statement) := do
  let tok ← peek
  if tok.type = .else_ then do
    let _ ← advance
    parseStatementBlock statement [terminator]
  else pure []

def parseIfStmt : C Statement :=
  call do
    let _ ← advance
    let cond ← parseExpression
    let _ ← expect .then_
    let thenBody ← parseStatementBlock statement [.elsif, .else_, .endIf]
    let elsIfs ← many 1 (isType .elsif) (parseElsIf statement)
    let elseBody ← parseElse statement .endIf
    let _ ← match_ .endIf
    let _ ← match_ .semicolon
    pure (.ifStmt cond thenBody elsIfs elseBody)

def parseStep : C (Option Expression) := do
  let tok ← peek
  if tok.type = .by_ then do
    let _ ← advance
    let step ← parseExpression
    pure (some step)
  else pure none

def parseForStmt : C Statement :=
  call do
    let _ ← advance
    let varTok ← expect .ident
    let _ ← expectAny .assign
    let start ← parseExpression
    let _ ← expectAny .to
    let stop ← parseExpression
    let step ← parseStep
    let _ ← expectAny .do_
    let body ← parseStatementBlock statement [.endFor]
    let _ ← match_ .endFor
    let _ ← match_ .semicolon
    pure (.forStmt varTok.literal start stop step body)

def parseWhileStmt : C Statement :=
  call do
    let _ ← advance
    let cond ← parseExpression
    let _ ← expectAny .do_
    let body ← parseStatementBlock statement [.endWhile]
    let _ ← match_ .endWhile
    let _ ← match_ .semicolon
    pure (.whileStmt cond body)

def parseRepeatStmt : C Statement :=
  call do
    let _ ← advance
    let body ← parseStatementBlock statement [.until_]
    let _ ← expectAny .until_
    let cond ← parseExpression
    let _ ← match_ .endRepeat
    let _ ← match_ .semicolon
    pure (.repeatStmt body cond)

def parseCaseValues : C (List Expression) :=
  separated 0 4 (fun _ => false) (isType .comma) parseExpression

/-- With the test of the source after each clause. -/
def parseCaseClause : C (Option CaseClause) :=
  tick 3 do
    let values ← parseCaseValues
    let _ ← expectAny .colon
    (fun body => some (.mk values body)) <$> parseStatementBlock statement [.endCase, .else_]

def parseCaseStmt : C Statement :=
  call do
    let _ ← advance
    let expr ← parseExpression
    let _ ← expectAny .of
    let cases ← many 3 (fun tok => !endsClauses tok) (parseCaseClause statement)
    let elseBody ← parseElse statement .endCase
    let _ ← match_ .endCase
    let _ ← match_ .semicolon
    pure (.caseStmt expr cases elseBody)

def parseStatementWith : C (Option Statement) :=
  call do
    let tok ← peek
    match tok.type with
    | .if_ => some <$> parseIfStmt statement
    | .for_ => some <$> parseForStmt statement
    | .while_ => some <$> parseWhileStmt statement
    | .repeat_ => some <$> parseRepeatStmt statement
    | .case_ => some <$> parseCaseStmt statement
    | .return_ => do
      let _ ← advance
      let _ ← match_ .semicolon
      pure (some .returnStmt)
    | .ident => some <$> parseAssignOrCall
    | _ => do
      let _ ← advance
      pure none

end

def parseStatement : C (Option Statement) := recursive parseStatementWith

/-! ## Programs -/

def parseInitial : C (Option Expression) := do
  let tok ← peek
  if tok.type = .assign then do
    let _ ← advance
    let init ← withError .varDeclInitial parseExpression
    pure (some init)
  else pure none

def parseVarDecl [LetterCase] : C (Option VarDecl) :=
  call do
    let nameTok ← withError .varDecl (expect .ident)
    let _ ← withError .varDecl (expect .colon)
    let dtTok ← advance
    let initial ← parseInitial
    let _ ← match_ .semicolon
    pure (some ⟨nameTok.literal, LetterCase.upper dtTok.literal, initial⟩)

def parseVarBlock [LetterCase] : C VarBlock :=
  call do
    let kindTok ← advance
    let vars ← many 2 insideVarBlock parseVarDecl
    let _ ← match_ .endVar
    pure ⟨varKind kindTok.type, vars⟩

/-- `isVarBlockStart` is a function of the parser: its call is counted, and its `peek`. -/
def parseItem [LetterCase] : C (Option Item) :=
  call do
    let tok ← peek
    if isVarBlockStart tok then do
      let block ← parseVarBlock
      pure (some (.varBlock block))
    else do
      let stmt ← parseStatement
      pure (stmt.map .statement)

def parseProgram [LetterCase] : C Program :=
  call do
    let tok ← peek
    if tok.type = .program then do
      let _ ← advance
      let nameTok ← advance
      let items ← many 2 insideProgram parseItem
      let _ ← match_ .endProgram
      pure (program nameTok.literal items)
    else do
      let items ← many 1 (fun tok => !isType .eof tok) parseItem
      pure (program "main".toList items)

/-! ## Counting changes no answer -/

@[simp] theorem parser_peek : peek.parser = RecursiveDescent.peek := rfl

@[simp] theorem parser_advance : advance.parser = RecursiveDescent.advance := rfl

@[simp] theorem parser_expect (type : TokenType) :
    (expect type).parser = StParser.expect type := rfl

@[simp] theorem parser_expectAny (type : TokenType) :
    (expectAny type).parser = StParser.expectAny type := rfl

@[simp] theorem parser_match_ (type : TokenType) :
    (match_ type).parser = StParser.match_ type := rfl

@[simp] theorem parser_parseMembers (name : Text) :
    (parseMembers name).parser = StParser.parseMembers name := by
  rw [parseMembers, parser_bind, parser_many]
  rfl

@[simp] theorem parser_parseCallArgs (expression : C Expression) :
    (parseCallArgs expression).parser = StParser.parseCallArgs expression.parser := by
  simp only [parseCallArgs, StParser.parseCallArgs, parser_call, parser_bind, parser_separated,
    parser_expectAny, parser_pure]

@[simp] theorem parser_parsePrimary (expression : C Expression) :
    (parsePrimary expression).parser = StParser.parsePrimary expression.parser := by
  rw [parsePrimary, parser_call, parser_bind, StParser.parsePrimary, parser_peek]
  congr
  funext tok
  cases tok.type <;> simp

@[simp] theorem parser_parseUnary (expression : C Expression) :
    (parseUnary expression).parser = StParser.parseUnary expression.parser := by
  apply parser_recursive
  intro unary
  simp

@[simp] theorem parser_parseMultiplication (expression : C Expression) :
    (parseMultiplication expression).parser = StParser.parseMultiplication expression.parser := by
  simp only [parseMultiplication, StParser.parseMultiplication, parser_call, parser_chain,
    parser_parseUnary]

@[simp] theorem parser_parseAddition (expression : C Expression) :
    (parseAddition expression).parser = StParser.parseAddition expression.parser := by
  simp only [parseAddition, StParser.parseAddition, parser_call, parser_chain,
    parser_parseMultiplication]

@[simp] theorem parser_parseOr (expression : C Expression) :
    (parseOr expression).parser = StParser.parseOr expression.parser := by
  simp only [parseOr, StParser.parseOr, parseXor, StParser.parseXor, parseAnd, StParser.parseAnd,
    parseComparison, StParser.parseComparison, parser_call, parser_chain, parser_parseAddition]

@[simp] theorem parser_parseExpression : parseExpression.parser = StParser.parseExpression := by
  apply parser_recursive
  intro expression
  rw [parser_call, parser_parseOr]

@[simp] theorem parser_parseAssignOrCall :
    parseAssignOrCall.parser = StParser.parseAssignOrCall := by
  simp [parseAssignOrCall, StParser.parseAssignOrCall]

section

variable (statement : C (Option Statement))

@[simp] theorem parser_parseStatementBlock (terminators : List TokenType) :
    (parseStatementBlock statement terminators).parser =
      StParser.parseStatementBlock statement.parser terminators := by
  rw [parseStatementBlock, parser_call, parser_many, StParser.parseStatementBlock]

@[simp] theorem parser_parseElsIf :
    (parseElsIf statement).parser = StParser.parseElsIf statement.parser := by
  simp [parseElsIf, StParser.parseElsIf]

@[simp] theorem parser_parseElse (terminator : TokenType) :
    (parseElse statement terminator).parser = StParser.parseElse statement.parser terminator := by
  simp [parseElse, StParser.parseElse]

@[simp] theorem parser_parseIfStmt :
    (parseIfStmt statement).parser = StParser.parseIfStmt statement.parser := by
  simp [parseIfStmt, StParser.parseIfStmt]

@[simp] theorem parser_parseStep : parseStep.parser = StParser.parseStep := by
  simp [parseStep, StParser.parseStep]

@[simp] theorem parser_parseForStmt :
    (parseForStmt statement).parser = StParser.parseForStmt statement.parser := by
  simp [parseForStmt, StParser.parseForStmt]

@[simp] theorem parser_parseWhileStmt :
    (parseWhileStmt statement).parser = StParser.parseWhileStmt statement.parser := by
  simp [parseWhileStmt, StParser.parseWhileStmt]

@[simp] theorem parser_parseRepeatStmt :
    (parseRepeatStmt statement).parser = StParser.parseRepeatStmt statement.parser := by
  simp [parseRepeatStmt, StParser.parseRepeatStmt]

@[simp] theorem parser_parseCaseClause :
    (parseCaseClause statement).parser = StParser.parseCaseClause statement.parser := by
  simp [parseCaseClause, StParser.parseCaseClause, parseCaseValues, StParser.parseCaseValues]

@[simp] theorem parser_parseCaseStmt :
    (parseCaseStmt statement).parser = StParser.parseCaseStmt statement.parser := by
  simp [parseCaseStmt, StParser.parseCaseStmt]

@[simp] theorem parser_parseStatementWith :
    (parseStatementWith statement).parser = StParser.parseStatementWith statement.parser := by
  rw [parseStatementWith, parser_call, parser_bind, StParser.parseStatementWith, parser_peek]
  congr
  funext tok
  cases tok.type <;> simp

end

@[simp] theorem parser_parseStatement : parseStatement.parser = StParser.parseStatement :=
  parser_recursive parser_parseStatementWith

@[simp] theorem parser_parseVarDecl [LetterCase] :
    parseVarDecl.parser = StParser.parseVarDecl := by
  simp [parseVarDecl, StParser.parseVarDecl, parseInitial, StParser.parseInitial]

@[simp] theorem parser_parseItem [LetterCase] : parseItem.parser = StParser.parseItem := by
  simp [parseItem, StParser.parseItem, parseVarBlock, StParser.parseVarBlock]

theorem parser_parseProgram [LetterCase] : parseProgram.parser = StParser.parseProgram := by
  simp [parseProgram, StParser.parseProgram]

end StCountedParser
