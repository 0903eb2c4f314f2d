import Mathlib
import Tentacle.BlockScript
import Tentacle.StParser

/-!
# Structured Text: generated Starlark

The code generator. It writes line after line; here the statements come first, as a tree with the
texts of the expressions, and `layout` gives the lines with their indentation.
-/

namespace StCodegen
open StSyntax
open BlockScript (Stmt Clause)

/-- The inside of a literal in double quotes: no quote and no backslash but in an escape. -/
def isEscaped : Text → Bool
  | [] => true
  | '\\' :: _ :: s => isEscaped s
  | '\\' :: [] => false
  | c :: s => c != '"' && isEscaped s

/-- `strconv.Quote`, as far as the generated text depends on it: it gives a literal in double
quotes. -/
class GoQuote where
  quote : Text → Text
  quote_literal : ∀ s, ∃ body, quote s = '"' :: (body ++ ['"']) ∧ isEscaped body = true

export GoQuote (quote)

def escapeAscii (c : Char) : Text := if c = '"' ∨ c = '\\' then ['\\', c] else [c]

/-- What is escaped one by one is escaped. -/
theorem isEscaped_flatMap (s : Text) : isEscaped (s.flatMap escapeAscii) = true := by
  induction s with
  | nil => rfl
  | cons c s ih =>
    rw [List.flatMap_cons, escapeAscii]
    split
    · exact ih
    · rename_i hc
      rw [not_or] at hc
      simp only [List.cons_append, List.nil_append]
      unfold isEscaped
      split <;> simp_all

def unescapeAscii : Text → Text
  | '\\' :: c :: s => c :: unescapeAscii s
  | c :: s => c :: unescapeAscii s
  | [] => []

theorem unescapeAscii_flatMap (s : Text) : unescapeAscii (s.flatMap escapeAscii) = s := by
  induction s with
  | nil => rfl
  | cons c s ih =>
    rw [List.flatMap_cons, escapeAscii]
    split
    · exact congrArg (c :: ·) ih
    · rename_i hc
      rw [not_or] at hc
      simp only [List.cons_append, List.nil_append]
      unfold unescapeAscii
      split <;> simp_all

/-- `strconv.Quote` of a text of printable ASCII characters. -/
@[reducible] def asciiQuote : GoQuote where
  quote s := '"' :: (s.flatMap escapeAscii ++ ['"'])
  quote_literal s := ⟨_, rfl, isEscaped_flatMap s⟩

def mapOp : BinaryOp → Text
  | .equal => "==".toList
  | .notEqual => "!=".toList
  | .and => "and".toList
  | .or => "or".toList
  | .xor => "^".toList
  | .mod => "%".toList
  | .plus => "+".toList
  | .minus => "-".toList
  | .star => "*".toList
  | .slash => "/".toList
  | .less => "<".toList
  | .lessEq => "<=".toList
  | .greater => ">".toList
  | .greaterEq => ">=".toList

def mapUnaryOp : UnaryOp → Text
  | .not => "not".toList
  | .minus => "-".toList

/-! ## Time literals -/

def maxInt : Int := 2 ^ 63 - 1

def digitsValue (s : Text) : Nat := s.foldl (fun n c => 10 * n + (c.toNat - '0'.toNat)) 0

/-- The digits of a number have its value. -/
theorem digitsValue_toDigits (n : Nat) : digitsValue (Nat.toDigits 10 n) = n := by
  induction n using Nat.strongRecOn with
  | ind n ih =>
    have hdigit : ∀ d < 10, (Nat.digitChar d).toNat - '0'.toNat = d := by decide
    by_cases hn : n < 10
    · rw [Nat.toDigits_of_lt_base hn]
      simpa [digitsValue] using hdigit n hn
    · have hrest := ih (n / 10) (by omega)
      have hlast := hdigit (n % 10) (by omega)
      unfold digitsValue at hrest ⊢
      rw [Nat.toDigits_of_base_le (by omega) (by omega), List.foldl_append, hrest, List.foldl_cons,
        List.foldl_nil, hlast]
      omega

/-- The number `strconv.Atoi` returns, whatever its error: 0 for a text that is no number, and the
nearest number of its type when the value is out of range. -/
def atoi (s : Text) : Int :=
  let digits := if s.head? = some '-' ∨ s.head? = some '+' then s.tail else s
  if digits = [] ∨ !digits.all isDigit then 0
  else if s.head? = some '-' then max (-(digitsValue digits : Int)) (-maxInt - 1)
  else min (digitsValue digits : Int) maxInt

/-- The product of two `int` values. -/
def mulInt (a b : Int) : Int := (a * b).bmod (2 ^ 64)

def isSpace (c : Char) : Bool :=
  c = ' ' || c = '\t' || c = '\n' || c = '\x0b' || c = '\x0c' || c = '\r'

def trimSpace (s : Text) : Text := ((s.dropWhile isSpace).reverse.dropWhile isSpace).reverse

/-- `strings.TrimSuffix` when the suffix is there. -/
def cutSuffix (s suffix : Text) : Option Text :=
  if suffix.isSuffixOf s then some (s.take (s.length - suffix.length)) else none

def parseTimeMs (raw : Text) : Int :=
  let raw := trimSpace raw
  match cutSuffix raw "ms".toList with
  | some s => atoi s
  | none =>
    match cutSuffix raw "s".toList with
    | some s => mulInt (atoi s) 1000
    | none =>
      match cutSuffix raw "m".toList with
      | some s => mulInt (atoi s) 60000
      | none =>
        match cutSuffix raw "h".toList with
        | some s => mulInt (atoi s) 3600000
        | none => atoi raw

def itoa (n : Int) : Text :=
  if n < 0 then '-' :: Nat.toDigits 10 n.natAbs else Nat.toDigits 10 n.natAbs

/-! ## Expressions -/

def memberPath : Expression → Text → Text
  | .memberExpr object inner, member => memberPath object inner ++ '.' :: member
  | .identExpr name, member => name ++ '.' :: member
  | _, member => member

/-- `strings.Join(_, ", ")`. -/
def joinComma : List Text → Text
  | [] => []
  | [s] => s
  | s :: s' :: ss => s ++ ',' :: ' ' :: joinComma (s' :: ss)

variable [GoQuote]

def getVarWord : Text := "get_var".toList

def boolWord (value : Bool) : Text := if value then "True".toList else "False".toList

def getVar (name : Text) : Text := getVarWord ++ '(' :: (quote name ++ [')'])

mutual

def expr : Expression → Text
  | .numberLit value => value
  | .stringLit value => quote value
  | .boolLit value => boolWord value
  | .identExpr name => getVar name
  | .binaryExpr left op right =>
    '(' :: (expr left ++ ' ' :: (mapOp op ++ ' ' :: (expr right ++ [')'])))
  | .unaryExpr op operand => mapUnaryOp op ++ ' ' :: expr operand
  | .callExpr name args => name ++ '(' :: (joinComma (exprs args) ++ [')'])
  | .memberExpr object member => getVar (memberPath object member)
  | .timeLit raw => itoa (parseTimeMs raw)

def exprs : List Expression → List Text
  | [] => []
  | e :: es => expr e :: exprs es

end

/-! ## Statements -/

abbrev Code := Stmt Text Text

def maxLoopIterations : Nat := 10000

def setVarWord : Text := "set_var".toList

/-- The line that sets a variable, which is a call. -/
def setVar (name : Text) (value : Expression) : Code :=
  .effect (expr (.callExpr setVarWord [.stringLit name, value]))

/-- `stmtBlock` of the statements generated so far. -/
def orPass : List Code → List Code
  | [] => [.pass]
  | s :: body => s :: body

def caseTest (expression : Text) (values : List Text) : Text :=
  " or ".toList.intercalate (values.map fun value => expression ++ " == ".toList ++ value)

def stepArgs : Option Expression → List Text
  | none => []
  | some step => [expr step]

mutual

def stmt : Statement → Code
  | .assignStmt target value => setVar target value
  | .ifStmt condition thenBody elsIfs elseBody =>
    .if_ (.mk (expr condition) (orPass (block thenBody)) :: elsIfClauses elsIfs) (block elseBody)
  | .forStmt var start stop step body =>
    .forRange var (expr start :: (expr stop ++ " + 1".toList) :: stepArgs step)
      (orPass (block body))
  | .whileStmt condition body =>
    .forRange ['_'] [itoa maxLoopIterations]
      (.if_ [.mk ("not (".toList ++ expr condition ++ [')']) [.break_]] [] :: orPass (block body))
  | .repeatStmt body condition =>
    .forRange ['_'] [itoa maxLoopIterations]
      (orPass (block body) ++ [.if_ [.mk (expr condition) [.break_]] []])
  | .caseStmt expression cases elseBody =>
    .if_ (caseClauses (expr expression) cases) (block elseBody)
  | .callStmt name args => .effect (expr (.callExpr name args))
  | .returnStmt => .return_

/-- The statements without the `pass` of an empty block. -/
def block : List Statement → List Code
  | [] => []
  | s :: body => stmt s :: block body

def elsIfClauses : List ElsIfClause → List (Clause Text Text)
  | [] => []
  | .mk condition body :: clauses =>
    .mk (expr condition) (orPass (block body)) :: elsIfClauses clauses

def caseClauses (expression : Text) : List CaseClause → List (Clause Text Text)
  | [] => []
  | .mk values body :: clauses =>
    .mk (caseTest expression (exprs values)) (orPass (block body)) :: caseClauses expression clauses

end

/-! ## Programs -/

/-- The variables of a program, in the order of their declaration. -/
def varDecls (p : Program) : List VarDecl := p.varBlocks.flatMap VarBlock.vars

/-- The initial values, which come before the statements. -/
def initials (p : Program) : List Code :=
  (varDecls p).filterMap fun v => v.initial.map (setVar v.name)

def mainWord : Text := "main".toList

def functionName (p : Program) : Text := if p.name = [] then mainWord else p.name

/-- The body of the function. -/
def functionBody (p : Program) : List Code :=
  initials p ++ (if p.statements = [] ∧ p.varBlocks = [] then [.pass] else []) ++
    block p.statements

/-! ## Lines -/

/-- A line with its indentation. -/
abbrev Line := Nat × Text

mutual

def layout (indent : Nat) : Code → List Line
  | .effect text => [(indent, text)]
  | .if_ clauses elseBody => layoutClauses indent "if ".toList clauses ++ layoutElse indent elseBody
  | .forRange var args body =>
    (indent, "for ".toList ++ var ++ " in range(".toList ++ joinComma args ++ "):".toList) ::
      layoutBlock (indent + 1) body
  | .break_ => [(indent, "break".toList)]
  | .return_ => [(indent, "return".toList)]
  | .pass => [(indent, "pass".toList)]

def layoutClauses (indent : Nat) (keyword : Text) : List (Clause Text Text) → List Line
  | [] => []
  | .mk test body :: clauses =>
    (indent, keyword ++ test ++ [':']) :: (layoutBlock (indent + 1) body ++
      layoutClauses indent "elif ".toList clauses)

def layoutElse (indent : Nat) : List Code → List Line
  | [] => []
  | s :: body =>
    (indent, "else:".toList) :: (layout (indent + 1) s ++ layoutBlock (indent + 1) body)

def layoutBlock (indent : Nat) : List Code → List Line
  | [] => []
  | s :: body => layout indent s ++ layoutBlock indent body

end

def writeLine (line : Line) : Text := List.replicate (4 * line.1) ' ' ++ line.2 ++ ['\n']

def generate (p : Program) : List Line :=
  (0, "def ".toList ++ functionName p ++ "():".toList) :: layoutBlock 1 (functionBody p)

/-- The generated text and the declared variables. -/
def transpile [LetterCase] (source : Text) :
    Option (Except StParser.ParseError (Text × List VarDecl)) :=
  (StParser.parse source).map fun r => r.map fun p => ((generate p).flatMap writeLine, varDecls p)

end StCodegen
