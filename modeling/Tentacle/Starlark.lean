import Tentacle.Infix
import Tentacle.StSyntax

/-!
# Starlark expressions

How Starlark reads an expression: its tokens, and its operators from the loosest to the tightest:
`or`, `and`, `not`, the comparisons, which do not associate, `^`, `+` and `-`, `*`, `/` and `%`,
and the minus sign before an operand. A literal is one leaf, however it is spelled.
-/

namespace Starlark
open RecursiveDescent
open StSyntax (Text isIdentStart isIdentPart isDigit numberLength numberLength_pos)

inductive Binop where
  | or | and | eq | ne | lt | le | gt | ge | xor | add | sub | mul | div | mod
  deriving DecidableEq

inductive Tree where
  | literal (s : Text)
  | name (w : Text)
  | call (f : Text) (args : List Tree)
  | neg (x : Tree)
  | not (x : Tree)
  | binary (left : Tree) (op : Binop) (right : Tree)

mutual

/-- The number of leaves, a call counting as one with those of its arguments. -/
def Tree.size : Tree → Nat
  | .literal _ => 1
  | .name _ => 1
  | .call _ args => 1 + sizes args
  | .neg x => x.size
  | .not x => x.size
  | .binary left _ right => left.size + right.size

def sizes : List Tree → Nat
  | [] => 0
  | t :: ts => t.size + sizes ts

end

mutual

/-- How many leaves stand under each `not`, all together. -/
def Tree.weight : Tree → Nat
  | .literal _ => 0
  | .name _ => 0
  | .call _ args => weights args
  | .neg x => x.weight
  | .not x => x.size + x.weight
  | .binary left _ right => left.weight + right.weight

def weights : List Tree → Nat
  | [] => 0
  | t :: ts => t.weight + weights ts

end

theorem Tree.size_pos : ∀ t : Tree, 0 < t.size
  | .literal _ => Nat.one_pos
  | .name _ => Nat.one_pos
  | .call _ args => Nat.lt_of_lt_of_le Nat.one_pos (Nat.le_add_right 1 (sizes args))
  | .neg x => x.size_pos
  | .not x => x.size_pos
  | .binary left _ right => Nat.lt_of_lt_of_le left.size_pos (Nat.le_add_right _ right.size)

inductive Tok where
  | word (w : Text)
  | literal (s : Text)
  | punct (s : Text)
  | eof
  deriving DecidableEq

instance : Inhabited Tok := ⟨.eof⟩

/-- The words that are not names. Among them are the operators `and`, `or` and `not`. -/
class Words where
  reserved : Text → Bool
  reserved_and : reserved "and".toList = true
  reserved_or : reserved "or".toList = true
  reserved_not : reserved "not".toList = true
  get_var_name : reserved "get_var".toList = false
  set_var_name : reserved "set_var".toList = false
  true_name : reserved "True".toList = false
  false_name : reserved "False".toList = false
  blank_name : reserved "_".toList = false

/-- The words that the scanner of go.starlark.net reserves. -/
@[reducible] def scannerWords : Words where
  reserved w := (["and", "break", "continue", "def", "elif", "else", "for", "if", "in", "lambda",
    "load", "not", "or", "pass", "return", "while", "as", "class", "del", "except", "finally",
    "from", "global", "import", "is", "nonlocal", "raise", "try", "with", "yield"].map
      String.toList).contains w
  reserved_and := by decide
  reserved_or := by decide
  reserved_not := by decide
  get_var_name := by decide
  set_var_name := by decide
  true_name := by decide
  false_name := by decide
  blank_name := by decide

/-! ## Tokens -/

def twoByteSymbols : List Text :=
  ["==", "!=", "<=", ">=", "//", "**", "<<", ">>", "+=", "-=", "*=", "/=", "%=", "^=", "&=", "|="].map
    String.toList

/-- The length of a string literal from its opening quote on. -/
def stringLength : Text → Nat
  | [] => 0
  | '\\' :: _ :: s => 2 + stringLength s
  | '"' :: _ => 1
  | _ :: s => 1 + stringLength s

/-- One token from a text that starts with `ch`, which is no blank. -/
def lexToken (ch : Char) (s : Text) : Tok × Text :=
  if ch = '"' then (.literal ((ch :: s).take (1 + stringLength s)), s.drop (stringLength s))
  else if isDigit ch then
    (.literal ((ch :: s).take (numberLength (ch :: s))), (ch :: s).drop (numberLength (ch :: s)))
  else if isIdentStart ch then
    (.word (ch :: s.takeWhile isIdentPart), s.dropWhile isIdentPart)
  else if twoByteSymbols.contains (ch :: s.take 1) then (.punct (ch :: s.take 1), s.drop 1)
  else (.punct [ch], s)

/-- A token is not longer than the text. -/
theorem length_lexToken (ch : Char) (s : Text) : (lexToken ch s).2.length ≤ s.length := by
  unfold lexToken
  split_ifs with hquote hdigit hstart
  · simp
  · have h := numberLength_pos hdigit s
    simp only [List.length_drop, List.length_cons]
    omega
  · exact (List.dropWhile_sublist _).length_le
  · simp
  · exact Nat.le_refl _

def lex : Text → List Tok
  | [] => []
  | ch :: s =>
    if ch = ' ' then lex s else (lexToken ch s).1 :: lex (lexToken ch s).2
termination_by s => s.length
decreasing_by
  · simp
  · have h := length_lexToken ch s
    simp only [List.length_cons]
    omega

/-! ## Operators -/

def isPunct (s : String) (tok : Tok) : Bool := tok == .punct s.toList

def isWord (s : String) (tok : Tok) : Bool := tok == .word s.toList

def mulOp (tok : Tok) : Option Binop :=
  if isPunct "*" tok then some .mul else if isPunct "/" tok then some .div
  else if isPunct "%" tok then some .mod else none

def addOp (tok : Tok) : Option Binop :=
  if isPunct "+" tok then some .add else if isPunct "-" tok then some .sub else none

def xorOp (tok : Tok) : Option Binop := if isPunct "^" tok then some .xor else none

def comparisonOp (tok : Tok) : Option Binop :=
  if isPunct "==" tok then some .eq else if isPunct "!=" tok then some .ne
  else if isPunct "<" tok then some .lt else if isPunct "<=" tok then some .le
  else if isPunct ">" tok then some .gt else if isPunct ">=" tok then some .ge else none

def andOp (tok : Tok) : Option Binop := if isWord "and" tok then some .and else none

def orOp (tok : Tok) : Option Binop := if isWord "or" tok then some .or else none

variable [Words]

abbrev P (α : Type) := Parser Tok Unit α

def expect (s : String) : P Unit := do
  let tok ← advance
  if isPunct s tok then pure () else fail ()

def name : P Text := do
  let tok ← advance
  match tok with
  | .word w => if Words.reserved w then fail () else pure w
  | _ => fail ()

def member : P (Option Text) := do
  let _ ← advance
  some <$> name

/-- A name with the members after it. -/
def dottedName : P Text := do
  let first ← name
  let members ← many (isPunct ".") member
  pure (members.foldl (fun full m => full ++ '.' :: m) first)

def arguments (test : P Tree) : P (List Tree) := do
  let _ ← advance
  let args ← separated (isPunct ")") (isPunct ",") test
  expect ")"
  pure args

/-- A name, with its arguments when it is called. -/
def nameOrCall (test : P Tree) : P Tree := do
  let full ← dottedName
  let next ← peek
  if isPunct "(" next then .call full <$> arguments test else pure (.name full)

def parenthesised (test : P Tree) : P Tree := do
  let _ ← advance
  let t ← test
  expect ")"
  pure t

def primary (test : P Tree) : P Tree :=
  recursive fun operand => do
    let tok ← peek
    match tok with
    | .literal s => do
      let _ ← advance
      pure (.literal s)
    | .word _ => nameOrCall test
    | .punct _ =>
      if isPunct "(" tok then parenthesised test
      else if isPunct "-" tok then do
        let _ ← advance
        .neg <$> operand
      else fail ()
    | .eof => fail ()

def arithmetic (test : P Tree) : P Tree := levels [mulOp, addOp, xorOp] (primary test) .binary

/-- At most one comparison. -/
def comparison (test : P Tree) : P Tree := do
  let left ← arithmetic test
  let tok ← peek
  match comparisonOp tok with
  | none => pure left
  | some op => do
    let _ ← advance
    let right ← arithmetic test
    let next ← peek
    if (comparisonOp next).isSome then fail () else pure (.binary left op right)

def negation (test : P Tree) : P Tree :=
  recursive fun operand => do
    let tok ← peek
    if isWord "not" tok then do
      let _ ← advance
      .not <$> operand
    else comparison test

def conjunction (test : P Tree) : P Tree := chain andOp (negation test) .binary

def disjunction (test : P Tree) : P Tree := chain orOp (conjunction test) .binary

def test : P Tree := recursive disjunction

/-- The operator tree of a text, when all of the text is one expression. -/
def read (text : Text) : Option Tree :=
  match test (lex text) with
  | .ok t [] => some t
  | _ => none

end Starlark
