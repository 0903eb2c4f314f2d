import Tentacle.RecursiveDescent
import Tentacle.StSyntax

/-!
# Structured Text: parser

The recursive-descent parser over the tokens of `StSyntax.lex`. Where functions of the source call
each other, they take the parser at the top of their grammar as an argument: `expression` in the
expression grammar, `statement` in the statement grammar.
-/

namespace StParser
open StSyntax RecursiveDescent

inductive ParseError where
  | expected (line : Nat) (type : TokenType) (got : Text)
  | unexpected (line : Nat) (literal : Text)
  | varDecl (e : ParseError)
  | varDeclInitial (e : ParseError)
  deriving DecidableEq

abbrev P (α : Type) := Parser Token ParseError α

def isType (type : TokenType) (tok : Token) : Bool := tok.type == type

def expect (type : TokenType) : P Token := fun ts =>
  if (head ts).type = type then .ok (head ts) ts.tail
  else .error (.expected (head ts).line type (head ts).literal)

/-- An `expect` whose error the source drops: it advances over any token. -/
def expectAny (_ : TokenType) : P Token := advance

def match_ (type : TokenType) : P Bool := accept (isType type)

/-! ## Expressions -/

def parseMember : P (Option Text) := do
  let _ ← advance
  let memberTok ← advance
  pure (some memberTok.literal)

/-- The members after a name, joined to it by dots. -/
def parseMembers (name : Text) : P Text := do
  let members ← many (isType .dot) parseMember
  pure (members.foldl (fun fullName member => fullName ++ '.' :: member) name)

def endsArgs (tok : Token) : Bool := isType .rparen tok || isType .eof tok

def parseCallArgs (expression : P Expression) : P (List Expression) := do
  let _ ← expectAny .lparen
  let args ← separated endsArgs (isType .comma) expression
  let _ ← expectAny .rparen
  pure args

def parsePrimary (expression : P Expression) : P Expression := do
  let tok ← peek
  match tok.type with
  | .number => do
    let _ ← advance
    pure (.numberLit tok.literal)
  | .string => do
    let _ ← advance
    pure (.stringLit tok.literal)
  | .true_ => do
    let _ ← advance
    pure (.boolLit true)
  | .false_ => do
    let _ ← advance
    pure (.boolLit false)
  | .timeLiteral => do
    let _ ← advance
    pure (.timeLit tok.literal)
  | .lparen => do
    let _ ← advance
    let expr ← expression
    let _ ← expectAny .rparen
    pure expr
  | .ident => do
    let _ ← advance
    let name ← parseMembers tok.literal
    let next ← peek
    if next.type = .lparen then do
      let args ← parseCallArgs expression
      pure (.callExpr name args)
    else pure (.identExpr name)
  | _ => fail (.unexpected tok.line tok.literal)

def parseUnary (expression : P Expression) : P Expression :=
  recursive fun unary => do
    let tok ← peek
    if tok.type = .not then do
      let _ ← advance
      let operand ← unary
      pure (.unaryExpr .not operand)
    else if tok.type = .minus then do
      let _ ← advance
      let operand ← parsePrimary expression
      pure (.unaryExpr .minus operand)
    else parsePrimary expression

def multiplicationOp (tok : Token) : Option BinaryOp :=
  match tok.type with
  | .star => some .star
  | .slash => some .slash
  | .mod => some .mod
  | _ => none

def additionOp (tok : Token) : Option BinaryOp :=
  match tok.type with
  | .plus => some .plus
  | .minus => some .minus
  | _ => none

def comparisonOp (tok : Token) : Option BinaryOp :=
  match tok.type with
  | .equal => some .equal
  | .notEqual => some .notEqual
  | .less => some .less
  | .lessEq => some .lessEq
  | .greater => some .greater
  | .greaterEq => some .greaterEq
  | _ => none

def andOp (tok : Token) : Option BinaryOp :=
  if tok.type = .and then some .and else none

def xorOp (tok : Token) : Option BinaryOp :=
  if tok.type = .xor then some .xor else none

def orOp (tok : Token) : Option BinaryOp :=
  if tok.type = .or then some .or else none

def parseMultiplication (expression : P Expression) : P Expression :=
  chain multiplicationOp (parseUnary expression) .binaryExpr

def parseAddition (expression : P Expression) : P Expression :=
  chain additionOp (parseMultiplication expression) .binaryExpr

def parseComparison (expression : P Expression) : P Expression :=
  chain comparisonOp (parseAddition expression) .binaryExpr

def parseAnd (expression : P Expression) : P Expression :=
  chain andOp (parseComparison expression) .binaryExpr

def parseXor (expression : P Expression) : P Expression :=
  chain xorOp (parseAnd expression) .binaryExpr

def parseOr (expression : P Expression) : P Expression :=
  chain orOp (parseXor expression) .binaryExpr

def parseExpression : P Expression := recursive parseOr

/-! ## Statements -/

def parseAssignOrCall : P Statement := do
  let nameTok ← advance
  let fullName ← parseMembers nameTok.literal
  let next ← peek
  if next.type = .assign then do
    let _ ← advance
    let val ← parseExpression
    let _ ← match_ .semicolon
    pure (.assignStmt fullName val)
  else if next.type = .lparen then do
    let args ← parseCallArgs parseExpression
    let _ ← match_ .semicolon
    pure (.callStmt fullName args)
  else do
    let _ ← match_ .semicolon
    pure (.assignStmt fullName (.identExpr fullName))

section

variable (statement : P (Option Statement))

def parseStatementBlock (terminators : List TokenType) : P (List Statement) :=
  many (fun tok => !isType .eof tok && !terminators.contains tok.type) statement

def parseElsIf : P (Option ElsIfClause) := do
  let _ ← advance
  let elsifCond ← parseExpression
  let _ ← expectAny .then_
  let body ← parseStatementBlock statement [.elsif, .else_, .endIf]
  pure (some (.mk elsifCond body))

/-- An ELSE part, when one is there. -/
def parseElse (terminator : TokenType) : P (List Statement) := do
  let tok ← peek
  if tok.type = .else_ then do
    let _ ← advance
    parseStatementBlock statement [terminator]
  else pure []

def parseIfStmt : P Statement := do
  let _ ← advance
  let cond ← parseExpression
  let _ ← expect .then_
  let thenBody ← parseStatementBlock statement [.elsif, .else_, .endIf]
  let elsIfs ← many (isType .elsif) (parseElsIf statement)
  let elseBody ← parseElse statement .endIf
  let _ ← match_ .endIf
  let _ ← match_ .semicolon
  pure (.ifStmt cond thenBody elsIfs elseBody)

def parseStep : P (Option Expression) := do
  let tok ← peek
  if tok.type = .by_ then do
    let _ ← advance
    let step ← parseExpression
    pure (some step)
  else pure none

def parseForStmt : P Statement := do
  let _ ← advance
  let varTok ← expect .ident
  let _ ← expectAny .assign
  let start ← parseExpression
  let _ ← expectAny .to
  let stop ← parseExpression
  let step ← parseStep
  let _ ← expectAny .do_
  let body ← parseStatementBlock statement [.endFor]
  let _ ← match_ .endFor
  let _ ← match_ .semicolon
  pure (.forStmt varTok.literal start stop step body)

def parseWhileStmt : P Statement := do
  let _ ← advance
  let cond ← parseExpression
  let _ ← expectAny .do_
  let body ← parseStatementBlock statement [.endWhile]
  let _ ← match_ .endWhile
  let _ ← match_ .semicolon
  pure (.whileStmt cond body)

def parseRepeatStmt : P Statement := do
  let _ ← advance
  let body ← parseStatementBlock statement [.until_]
  let _ ← expectAny .until_
  let cond ← parseExpression
  let _ ← match_ .endRepeat
  let _ ← match_ .semicolon
  pure (.repeatStmt body cond)

def parseCaseValues : P (List Expression) :=
  separated (fun _ => false) (isType .comma) parseExpression

def parseCaseClause : P (Option CaseClause) := do
  let values ← parseCaseValues
  let _ ← expectAny .colon
  (fun body => some (.mk values body)) <$> parseStatementBlock statement [.endCase, .else_]

/-- The tokens at which the clauses of a CASE end. The source tests for them before each clause
and once more after it. -/
def endsClauses (tok : Token) : Bool :=
  isType .endCase tok || isType .else_ tok || isType .eof tok

def parseCaseStmt : P Statement := do
  let _ ← advance
  let expr ← parseExpression
  let _ ← expectAny .of
  let cases ← many (fun tok => !endsClauses tok) (parseCaseClause statement)
  let elseBody ← parseElse statement .endCase
  let _ ← match_ .endCase
  let _ ← match_ .semicolon
  pure (.caseStmt expr cases elseBody)

/-- One statement; semicolons and unknown tokens give none. -/
def parseStatementWith : P (Option Statement) := do
  let tok ← peek
  match tok.type with
  | .if_ => some <$> parseIfStmt statement
  | .for_ => some <$> parseForStmt statement
  | .while_ => some <$> parseWhileStmt statement
  | .repeat_ => some <$> parseRepeatStmt statement
  | .case_ => some <$> parseCaseStmt statement
  | .return_ => do
    let _ ← advance
    let _ ← match_ .semicolon
    pure (some .returnStmt)
  | .ident => some <$> parseAssignOrCall
  | _ => do
    let _ ← advance
    pure none

end

def parseStatement : P (Option Statement) := recursive parseStatementWith

/-! ## Programs -/

def varKind (type : TokenType) : VarKind :=
  match type with
  | .varInput => .varInput
  | .varOutput => .varOutput
  | _ => .var

def isVarBlockStart (tok : Token) : Bool :=
  isType .var tok || isType .varInput tok || isType .varOutput tok

def parseInitial : P (Option Expression) := do
  let tok ← peek
  if tok.type = .assign then do
    let _ ← advance
    let init ← withError .varDeclInitial parseExpression
    pure (some init)
  else pure none

def parseVarDecl [LetterCase] : P (Option VarDecl) := do
  let nameTok ← withError .varDecl (expect .ident)
  let _ ← withError .varDecl (expect .colon)
  let dtTok ← advance
  let initial ← parseInitial
  let _ ← match_ .semicolon
  pure (some ⟨nameTok.literal, LetterCase.upper dtTok.literal, initial⟩)

def insideVarBlock (tok : Token) : Bool := !isType .endVar tok && !isType .eof tok

def parseVarBlock [LetterCase] : P VarBlock := do
  let kindTok ← advance
  let vars ← many insideVarBlock parseVarDecl
  let _ ← match_ .endVar
  pure ⟨varKind kindTok.type, vars⟩

inductive Item where
  | varBlock (block : VarBlock)
  | statement (stmt : Statement)

def Item.varBlock? : Item → Option VarBlock
  | .varBlock block => some block
  | .statement _ => none

def Item.statement? : Item → Option Statement
  | .varBlock _ => none
  | .statement stmt => some stmt

def parseItem [LetterCase] : P (Option Item) := do
  let tok ← peek
  if isVarBlockStart tok then do
    let block ← parseVarBlock
    pure (some (.varBlock block))
  else do
    let stmt ← parseStatement
    pure (stmt.map .statement)

def program (name : Text) (items : List Item) : Program :=
  ⟨name, items.filterMap Item.varBlock?, items.filterMap Item.statement?⟩

def insideProgram (tok : Token) : Bool := !isType .endProgram tok && !isType .eof tok

def parseProgram [LetterCase] : P Program := do
  let tok ← peek
  if tok.type = .program then do
    let _ ← advance
    let nameTok ← advance
    let items ← many insideProgram parseItem
    let _ ← match_ .endProgram
    pure (program nameTok.literal items)
  else do
    let items ← many (fun tok => !isType .eof tok) parseItem
    pure (program "main".toList items)

def parse [LetterCase] (source : Text) : Option (Except ParseError Program) :=
  (parseProgram (lex source)).result

end StParser
