import Mathlib.Data.List.Basic

/-!
# Structured Text: syntax tree, tokens and lexer

A text is a list of characters, one for each byte of the source. Of a token's position the line is
kept, which the error texts of the parser show.
-/

namespace StSyntax

abbrev Text := List Char

inductive TokenType where
  | eof | ident | number | string | timeLiteral
  | program | endProgram | var | varInput | varOutput | endVar
  | if_ | then_ | elsif | else_ | endIf
  | for_ | to | by_ | do_ | endFor
  | while_ | endWhile | repeat_ | until_ | endRepeat
  | case_ | of | endCase | return_
  | true_ | false_ | and | or | not | xor | mod
  | int | real | bool | stringType | dint | lreal
  | assign | equal | notEqual | less | lessEq | greater | greaterEq
  | plus | minus | star | slash | lparen | rparen
  | semicolon | colon | comma | dot | hash
  deriving DecidableEq

structure Token where
  type : TokenType
  literal : Text
  line : Nat
  deriving DecidableEq

/-- What the parser sees past the last token. -/
instance : Inhabited Token := ⟨⟨.eof, [], 0⟩⟩

def keywords : List (Text × TokenType) := [
  ("PROGRAM".toList, .program), ("END_PROGRAM".toList, .endProgram),
  ("VAR".toList, .var), ("VAR_INPUT".toList, .varInput), ("VAR_OUTPUT".toList, .varOutput),
  ("END_VAR".toList, .endVar),
  ("IF".toList, .if_), ("THEN".toList, .then_), ("ELSIF".toList, .elsif), ("ELSE".toList, .else_),
  ("END_IF".toList, .endIf),
  ("FOR".toList, .for_), ("TO".toList, .to), ("BY".toList, .by_), ("DO".toList, .do_),
  ("END_FOR".toList, .endFor),
  ("WHILE".toList, .while_), ("END_WHILE".toList, .endWhile),
  ("REPEAT".toList, .repeat_), ("UNTIL".toList, .until_), ("END_REPEAT".toList, .endRepeat),
  ("CASE".toList, .case_), ("OF".toList, .of), ("END_CASE".toList, .endCase),
  ("RETURN".toList, .return_), ("TRUE".toList, .true_), ("FALSE".toList, .false_),
  ("AND".toList, .and), ("OR".toList, .or), ("NOT".toList, .not), ("XOR".toList, .xor),
  ("MOD".toList, .mod),
  ("INT".toList, .int), ("REAL".toList, .real), ("BOOL".toList, .bool),
  ("STRING".toList, .stringType), ("DINT".toList, .dint), ("LREAL".toList, .lreal)]

/-! ## Syntax tree -/

inductive BinaryOp where
  | plus | minus | star | slash | equal | notEqual | less | lessEq | greater | greaterEq
  | and | or | xor | mod
  deriving DecidableEq

inductive UnaryOp where
  | not | minus
  deriving DecidableEq

inductive Expression where
  | numberLit (value : Text)
  | stringLit (value : Text)
  | boolLit (value : Bool)
  | identExpr (name : Text)
  | binaryExpr (left : Expression) (op : BinaryOp) (right : Expression)
  | unaryExpr (op : UnaryOp) (operand : Expression)
  | callExpr (name : Text) (args : List Expression)
  | memberExpr (object : Expression) (member : Text)
  | timeLit (raw : Text)

mutual

inductive Statement where
  | assignStmt (target : Text) (value : Expression)
  | ifStmt (condition : Expression) (thenBody : List Statement) (elsIfs : List ElsIfClause)
      (elseBody : List Statement)
  | forStmt (var : Text) (start stop : Expression) (step : Option Expression)
      (body : List Statement)
  | whileStmt (condition : Expression) (body : List Statement)
  | repeatStmt (body : List Statement) (condition : Expression)
  | caseStmt (expression : Expression) (cases : List CaseClause) (elseBody : List Statement)
  | callStmt (name : Text) (args : List Expression)
  | returnStmt

inductive ElsIfClause where
  | mk (condition : Expression) (body : List Statement)

inductive CaseClause where
  | mk (values : List Expression) (body : List Statement)

end

structure VarDecl where
  name : Text
  datatype : Text
  initial : Option Expression

inductive VarKind where
  | var | varInput | varOutput
  deriving DecidableEq

structure VarBlock where
  kind : VarKind
  vars : List VarDecl

structure Program where
  name : Text
  varBlocks : List VarBlock
  statements : List Statement

/-! ## Lexer -/

def isDigit (ch : Char) : Bool := '0' ≤ ch && ch ≤ '9'

/-- `unicode.IsLetter` of a byte. -/
def isLetter (ch : Char) : Bool :=
  'a' ≤ ch && ch ≤ 'z' || 'A' ≤ ch && ch ≤ 'Z' || ch.toNat = 0xAA || ch.toNat = 0xB5 ||
    ch.toNat = 0xBA || 0xC0 ≤ ch.toNat && ch.toNat ≤ 0xFF && ch.toNat ≠ 0xD7 && ch.toNat ≠ 0xF7

def isIdentStart (ch : Char) : Bool := isLetter ch || ch = '_'

def isIdentPart (ch : Char) : Bool := isLetter ch || isDigit ch || ch = '_'

/-- `strings.ToUpper` of a word that is looked up. The keywords have ASCII letters only, and no
word with another letter becomes one. -/
def toUpper (s : Text) : Text := s.map Char.toUpper

/-- `strings.ToUpper` of the name of a type, which may have any letters. -/
class LetterCase where
  upper : Text → Text
  upper_ascii : ∀ s, (∀ c ∈ s, c.toNat < 128) → upper s = toUpper s

/-- Only the ASCII letters have an upper case. -/
@[reducible] def asciiCase : LetterCase := ⟨toUpper, fun _ _ => rfl⟩

def twoByteSymbols : List ((Char × Char) × TokenType) :=
  [((':', '='), .assign), (('<', '>'), .notEqual), (('<', '='), .lessEq), (('>', '='), .greaterEq)]

def symbols : List (Char × TokenType) :=
  [('<', .less), ('>', .greater), ('=', .equal), ('+', .plus), ('-', .minus), ('*', .star),
    ('/', .slash), ('(', .lparen), (')', .rparen), (';', .semicolon), (':', .colon), (',', .comma),
    ('.', .dot), ('#', .hash)]

/-- Inside a block comment. The source stops one byte before the end of a comment that is not
closed. -/
def skipBlock : Nat → Text → Nat × Text
  | line, '*' :: ')' :: s => (line, s)
  | line, c :: d :: s => skipBlock (if c = '\n' then line + 1 else line) (d :: s)
  | line, s => (line, s)

theorem length_skipBlock (line : Nat) (s : Text) : (skipBlock line s).2.length ≤ s.length := by
  fun_induction skipBlock line s with
  | case1 line s => simp only [List.length_cons]; omega
  | case2 line c d s _ ih => simp only [List.length_cons] at ih ⊢; omega
  | case3 line s => exact Nat.le_refl _

def skipWhitespaceAndComments (line : Nat) (s : Text) : Nat × Text :=
  match s with
  | [] => (line, [])
  | ch :: s =>
    if ch = ' ' ∨ ch = '\t' ∨ ch = '\r' then skipWhitespaceAndComments line s
    else if ch = '\n' then skipWhitespaceAndComments (line + 1) s
    else if ch = '(' ∧ s.head? = some '*' then
      skipWhitespaceAndComments (skipBlock line s.tail).1 (skipBlock line s.tail).2
    else if ch = '/' ∧ s.head? = some '/' then
      skipWhitespaceAndComments line (s.dropWhile (· ≠ '\n'))
    else (line, ch :: s)
termination_by s.length
decreasing_by
  · simp
  · simp
  · have h := length_skipBlock line s.tail
    simp only [List.length_tail, List.length_cons] at h ⊢
    omega
  · have h := (List.dropWhile_sublist (p := (· ≠ '\n')) (l := s)).length_le
    simp only [List.length_cons]
    omega

theorem length_skipWhitespaceAndComments (line : Nat) (s : Text) :
    (skipWhitespaceAndComments line s).2.length ≤ s.length := by
  fun_induction skipWhitespaceAndComments line s with
  | case1 line => exact Nat.le_refl _
  | case2 line ch s _ ih => simp only [List.length_cons]; omega
  | case3 line s _ ih => simp only [List.length_cons]; omega
  | case4 line ch s _ _ _ ih =>
    have h := length_skipBlock line s.tail
    simp only [List.length_tail, List.length_cons] at h ⊢
    omega
  | case5 line ch s _ _ _ _ ih =>
    have h := (List.dropWhile_sublist (p := (· ≠ '\n')) (l := s)).length_le
    simp only [List.length_cons]
    omega
  | case6 line ch s => exact Nat.le_refl _

def lexString (line : Nat) (s : Text) : Token × Text :=
  (⟨.string, s.takeWhile (· ≠ '\''), line⟩, (s.dropWhile (· ≠ '\'')).tail)

def isMantissa (ch : Char) : Bool := isDigit ch || ch = '.'

def isExponentMark (ch : Char) : Bool := ch = 'e' || ch = 'E'

def isSign (ch : Char) : Bool := ch = '+' || ch = '-'

/-- How far the exponent of a number reaches into the text after its mantissa. -/
def exponentLength : Text → Nat
  | mark :: s =>
    if isExponentMark mark then
      match s with
      | sign :: digits =>
        if isSign sign then 2 + (digits.takeWhile isDigit).length
        else 1 + (s.takeWhile isDigit).length
      | [] => 1
    else 0
  | [] => 0

def numberLength (s : Text) : Nat :=
  (s.takeWhile isMantissa).length + exponentLength (s.dropWhile isMantissa)

def lexNumber (line : Nat) (s : Text) : Token × Text :=
  (⟨.number, s.take (numberLength s), line⟩, s.drop (numberLength s))

def wordType (word : Text) : TokenType := (keywords.lookup (toUpper word)).getD .ident

def lexIdentOrKeyword (line : Nat) (s : Text) : Token × Text :=
  let word := s.takeWhile isIdentPart
  let rest := s.dropWhile isIdentPart
  if toUpper word = ['T'] ∧ rest.head? = some '#' then
    (⟨.timeLiteral, rest.tail.takeWhile isIdentPart, line⟩, rest.tail.dropWhile isIdentPart)
  else (⟨wordType word, word, line⟩, rest)

/-- One token from a text that starts with `ch`; unknown bytes give none. -/
def lexToken (line : Nat) (ch : Char) (s : Text) : Option Token × Text :=
  match twoByteSymbols.lookup (ch, s.headD '\x00') with
  | some type => (some ⟨type, [ch, s.headD '\x00'], line⟩, s.tail)
  | none =>
    match symbols.lookup ch with
    | some type => (some ⟨type, [ch], line⟩, s)
    | none =>
      if ch = '\'' then (some (lexString line s).1, (lexString line s).2)
      else if isDigit ch then (some (lexNumber line (ch :: s)).1, (lexNumber line (ch :: s)).2)
      else if isIdentStart ch then
        (some (lexIdentOrKeyword line (ch :: s)).1, (lexIdentOrKeyword line (ch :: s)).2)
      else (none, s)

theorem numberLength_pos {ch : Char} (h : isDigit ch = true) (s : Text) :
    0 < numberLength (ch :: s) := by
  have hm : isMantissa ch = true := by simp [isMantissa, h]
  simp only [numberLength, List.takeWhile_cons, hm, if_true, List.length_cons]
  omega

theorem isIdentPart_of_isIdentStart {ch : Char} (h : isIdentStart ch = true) :
    isIdentPart ch = true := by
  simp only [isIdentStart, isIdentPart, Bool.or_eq_true] at h ⊢
  tauto

theorem length_lexToken (line : Nat) (ch : Char) (s : Text) :
    (lexToken line ch s).2.length ≤ s.length := by
  have hdrop := fun (p : Char → Bool) (s : Text) => (List.dropWhile_sublist p (l := s)).length_le
  unfold lexToken
  split
  · simp
  split
  · exact Nat.le_refl _
  split_ifs with hquote hdigit hstart
  · have h := hdrop (· ≠ '\'') s
    simp only [lexString, List.length_tail]
    omega
  · have h := numberLength_pos hdigit s
    simp only [lexNumber, List.length_drop, List.length_cons]
    omega
  · have h := hdrop isIdentPart s
    have h' := hdrop isIdentPart (s.dropWhile isIdentPart).tail
    simp only [lexIdentOrKeyword, List.takeWhile_cons, List.dropWhile_cons,
      isIdentPart_of_isIdentStart hstart, if_true]
    split <;> simp only [List.length_tail] at * <;> omega
  · exact Nat.le_refl _

def lexFrom (line : Nat) (s : Text) : List Token :=
  match _h : skipWhitespaceAndComments line s with
  | (line', []) => [⟨.eof, [], line'⟩]
  | (line', ch :: s') =>
    (lexToken line' ch s').1.toList ++ lexFrom line' (lexToken line' ch s').2
termination_by s.length
decreasing_by
  have hskip := length_skipWhitespaceAndComments line s
  have htoken := length_lexToken line' ch s'
  rw [_h, List.length_cons] at hskip
  omega

def lex (input : Text) : List Token := lexFrom 1 input

end StSyntax
