import Tentacle.StReading
import Tentacle.StRoundTrip

/-!
# Structured Text: operator precedence

An expression as it is written, and the tree that a table of precedences assigns to it. The parser
has one level for all six comparisons where IEC 61131-3 has two, and the generated text is read by
the precedences of Starlark. The three orders give one tree on exactly the expressions of
`precedencesAgree`.
-/

namespace StPrecedence
open StSyntax StParser StRender StRoundTrip RecursiveDescent
open StCodegen (GoQuote expr)
open StReading (image images isNot isLogic notsTaken allNotsTaken namesAllowed allNamesAllowed
  nameAllowed starOp)
open Starlark (Words)

/-! ## Expressions as they are written -/

/-- A token with the literal that the lexer gives one of its type. -/
def isLexed (tok : Token) : Bool :=
  match tok.type with
  | .number => isNumber tok.literal
  | .string => tok.literal.all (· ≠ '\'')
  | .timeLiteral => tok.literal.all isIdentPart
  | .ident => isIdent tok.literal
  | _ => true

/-- A token of a given type, in any spelling and on any line. -/
structure Spelled (type : TokenType) where
  token : Token
  type_eq : token.type = type
  lexed : isLexed token = true

structure Operator where
  op : BinaryOp
  token : Token
  type_eq : token.type = binaryType op

structure Member where
  dot : Spelled .dot
  word : Token
  isWord : isWord word.literal = true

mutual

inductive Primary where
  | number (token : Spelled .number)
  | string (token : Spelled .string)
  | true_ (token : Spelled .true_)
  | false_ (token : Spelled .false_)
  | time (token : Spelled .timeLiteral)
  | name (first : Spelled .ident) (members : List Member)
  | call (first : Spelled .ident) (members : List Member) (lparen : Spelled .lparen)
      (args : Arguments) (rparen : Spelled .rparen)
  | paren (lparen : Spelled .lparen) (source : Source) (rparen : Spelled .rparen)

inductive Operand where
  | plain (primary : Primary)
  | minus (token : Spelled .minus) (primary : Primary)
  | not (token : Spelled .not) (operand : Operand)

/-- Arguments with commas between them; the parser also takes a comma after the last one. -/
inductive Arguments where
  | nil
  | last (source : Source)
  | cons (source : Source) (comma : Spelled .comma) (args : Arguments)

/-- An operand, and further operands with operators before them. -/
inductive Source where
  | mk (first : Operand) (more : Further)

inductive Further where
  | nil
  | cons (op : Operator) (operand : Operand) (more : Further)

end

def Further.toList : Further → List (Operator × Operand)
  | .nil => []
  | .cons op operand more => (op, operand) :: more.toList

def writtenMembers (members : List Member) : List Token :=
  members.flatMap fun m => [m.dot.token, m.word]

mutual

def primaryTokens : Primary → List Token
  | .number tok => [tok.token]
  | .string tok => [tok.token]
  | .true_ tok => [tok.token]
  | .false_ tok => [tok.token]
  | .time tok => [tok.token]
  | .name first members => first.token :: writtenMembers members
  | .call first members lparen args rparen =>
    first.token :: (writtenMembers members ++ lparen.token :: (argumentTokens args ++
      [rparen.token]))
  | .paren lparen source rparen => lparen.token :: (sourceTokens source ++ [rparen.token])

def operandTokens : Operand → List Token
  | .plain primary => primaryTokens primary
  | .minus tok primary => tok.token :: primaryTokens primary
  | .not tok operand => tok.token :: operandTokens operand

def argumentTokens : Arguments → List Token
  | .nil => []
  | .last source => sourceTokens source
  | .cons source comma args => sourceTokens source ++ comma.token :: argumentTokens args

def sourceTokens : Source → List Token
  | .mk first more => operandTokens first ++ furtherTokens more

def furtherTokens : Further → List Token
  | .nil => []
  | .cons op operand more => op.token :: (operandTokens operand ++ furtherTokens more)

end

/-! ## The tree of a table of precedences -/

/-- The levels of the parser, from the tightest. -/
def parserLevel : BinaryOp → Nat
  | .star | .slash | .mod => 0
  | .plus | .minus => 1
  | .equal | .notEqual | .less | .lessEq | .greater | .greaterEq => 2
  | .and => 3
  | .xor => 4
  | .or => 5

/-- The levels of IEC 61131-3. -/
def iecLevel : BinaryOp → Nat
  | .star | .slash | .mod => 0
  | .plus | .minus => 1
  | .less | .lessEq | .greater | .greaterEq => 2
  | .equal | .notEqual => 3
  | .and => 4
  | .xor => 5
  | .or => 6

def fullName (first : Spelled .ident) (members : List Member) : Text :=
  (members.map fun m => m.word.literal).foldl (fun full member => full ++ '.' :: member)
    first.token.literal

section Trees

variable (level : BinaryOp → Nat)

mutual

def primaryTree : Primary → Expression
  | .number tok => .numberLit tok.token.literal
  | .string tok => .stringLit tok.token.literal
  | .true_ _ => .boolLit true
  | .false_ _ => .boolLit false
  | .time tok => .timeLit tok.token.literal
  | .name first members => .identExpr (fullName first members)
  | .call first members _ args _ => .callExpr (fullName first members) (argumentTrees args)
  | .paren _ source _ => tree source

def operandTree : Operand → Expression
  | .plain primary => primaryTree primary
  | .minus _ primary => .unaryExpr .minus (primaryTree primary)
  | .not _ operand => .unaryExpr .not (operandTree operand)

def argumentTrees : Arguments → List Expression
  | .nil => []
  | .last source => [tree source]
  | .cons source _ args => tree source :: argumentTrees args

/-- Operators of one level associate to the left. -/
def tree : Source → Expression
  | .mk first more =>
    Infix.fold .binaryExpr (Infix.resolve level (.leaf (operandTree first)) (furtherTrees more))

def furtherTrees : Further → List (BinaryOp × Expression)
  | .nil => []
  | .cons op operand more => (op.op, operandTree operand) :: furtherTrees more

end

end Trees

/-- The tree that IEC 61131-3 assigns to an expression. -/
def iecTree (source : Source) : Expression := tree iecLevel source

/-! ## What the parser makes of an expression -/

theorem furtherTrees_eq (level : BinaryOp → Nat) (more : Further) :
    furtherTrees level more = more.toList.map fun p => (p.1.op, operandTree level p.2) :=
  match more with
  | .nil => rfl
  | .cons op operand more => by rw [furtherTrees, Further.toList, List.map_cons, furtherTrees_eq]

theorem furtherTokens_eq (more : Further) :
    furtherTokens more = more.toList.flatMap fun p => p.1.token :: operandTokens p.2 :=
  match more with
  | .nil => rfl
  | .cons op operand more => by
    rw [furtherTokens, Further.toList, List.flatMap_cons, furtherTokens_eq]
    rfl

/-- Each operator stands in its own level of the parser. -/
theorem operators_level (op : Operator) (i : Nat) (h : i < operators.length) :
    operators[i] op.token = if i = parserLevel op.op then some op.op else none := by
  obtain ⟨op, tok, htok⟩ := op
  match i, h with
  | 0, _ =>
    change multiplicationOp tok = _
    cases op <;> simp [multiplicationOp, htok, binaryType, parserLevel]
  | 1, _ =>
    change additionOp tok = _
    cases op <;> simp [additionOp, htok, binaryType, parserLevel]
  | 2, _ =>
    change comparisonOp tok = _
    cases op <;> simp [comparisonOp, htok, binaryType, parserLevel]
  | 3, _ =>
    change andOp tok = _
    cases op <;> simp [andOp, htok, binaryType, parserLevel]
  | 4, _ =>
    change xorOp tok = _
    cases op <;> simp [xorOp, htok, binaryType, parserLevel]
  | 5, _ =>
    change orOp tok = _
    cases op <;> simp [orOp, htok, binaryType, parserLevel]

theorem endsName_operator (op : Operator) : endsName op.token = true := by
  obtain ⟨op, tok, htok⟩ := op
  cases op <;> simp [endsName, htok, binaryType]

/-- The loops of the parser over the operands of an expression. -/
def reader (n : Nat) : Infix.Reader Token ParseError Operand BinaryOp Expression Operator where
  level := parserLevel
  ops := operators
  operand := parseUnary (unroll parseOr n)
  join := .binaryExpr
  op := Operator.op
  opToken := Operator.token
  tokens := operandTokens
  value := operandTree parserLevel
  ends tok := endsName tok = true
  level_lt op := by cases op <;> decide
  op_level := operators_level
  ends_op := endsName_operator

theorem reader_ends {rest : List Token} (n : Nat) (h : endsExpr (head rest) = true) :
    (reader n).Ends rest := by
  simp only [endsExpr, Bool.and_eq_true, List.all_eq_true, decide_eq_true_eq] at h
  exact ⟨h.1, h.2⟩

/-- The members of a name are read to its end. -/
theorem read_writtenMembers (members : List Member) {rest : List Token}
    (h : (head rest).type ≠ .dot) (first : Text) :
    parseMembers first (writtenMembers members ++ rest) =
      .ok ((members.map fun m => m.word.literal).foldl
        (fun full member => full ++ '.' :: member) first) rest := by
  have hmany : many (isType .dot) parseMember (writtenMembers members ++ rest) =
      .ok (members.map fun m => m.word.literal) rest := by
    induction members with
    | nil => exact many_stop (by simpa [isType, writtenMembers] using h)
    | cons m members ih =>
      have hdot : isType .dot m.dot.token = true := by simp [isType, m.dot.type_eq]
      have hlt : (writtenMembers members ++ rest).length <
          (writtenMembers (m :: members) ++ rest).length := by
        simp only [writtenMembers, List.flatMap_cons, List.cons_append, List.nil_append,
          List.length_cons]
        omega
      exact many_next (a := some m.word.literal) hdot rfl hlt ih
  simp only [parseMembers, bind_apply, hmany, Reply.ok_bind, pure_apply]

theorem primaryTokens_starts (primary : Primary) (rest : List Token) :
    startsExpr (head (primaryTokens primary ++ rest)) = true := by
  cases primary with
  | number tok => simp [primaryTokens, startsExpr, tok.type_eq]
  | string tok => simp [primaryTokens, startsExpr, tok.type_eq]
  | true_ tok => simp [primaryTokens, startsExpr, tok.type_eq]
  | false_ tok => simp [primaryTokens, startsExpr, tok.type_eq]
  | time tok => simp [primaryTokens, startsExpr, tok.type_eq]
  | name first members => simp [primaryTokens, startsExpr, first.type_eq]
  | call first members lparen args rparen => simp [primaryTokens, startsExpr, first.type_eq]
  | paren lparen source rparen => simp [primaryTokens, startsExpr, lparen.type_eq]

/-- No operand starts with the end of the arguments. -/
theorem operandTokens_endsArgs (operand : Operand) (rest : List Token) :
    endsArgs (head (operandTokens operand ++ rest)) = false := by
  cases operand with
  | plain primary =>
    have hstart := primaryTokens_starts primary rest
    by_contra hends
    simp only [endsArgs, isType, Bool.not_eq_false, Bool.or_eq_true, beq_iff_eq] at hends
    rcases hends with h | h
    · rw [startsExpr, ← operandTokens, h] at hstart
      exact absurd hstart (by decide)
    · rw [startsExpr, ← operandTokens, h] at hstart
      exact absurd hstart (by decide)
  | minus tok primary => simp [operandTokens, endsArgs, isType, tok.type_eq]
  | not tok operand => simp [operandTokens, endsArgs, isType, tok.type_eq]

theorem sourceTokens_endsArgs (source : Source) (rest : List Token) :
    endsArgs (head (sourceTokens source ++ rest)) = false := by
  obtain ⟨first, more⟩ := source
  rw [sourceTokens, List.append_assoc]
  exact operandTokens_endsArgs first _

theorem endsExpr_rparen (rparen : Spelled .rparen) : endsExpr rparen.token = true := by
  simp [endsExpr, endsName, operators, multiplicationOp, additionOp, comparisonOp, andOp, xorOp,
    orOp, rparen.type_eq]

theorem endsExpr_comma (comma : Spelled .comma) : endsExpr comma.token = true := by
  simp [endsExpr, endsName, operators, multiplicationOp, additionOp, comparisonOp, andOp, xorOp,
    orOp, comma.type_eq]

mutual

/-- A primary is read as its tree, with fuel for its tokens. -/
theorem read_primary : ∀ (primary : Primary) (n : Nat) (rest : List Token),
    (primaryTokens primary).length ≤ n → endsName (head rest) = true →
      parsePrimary (unroll parseOr n) (primaryTokens primary ++ rest) =
        .ok (primaryTree parserLevel primary) rest
  | .number tok, n, rest, _, _ => by simp [primaryTokens, primaryTree, parsePrimary, tok.type_eq]
  | .string tok, n, rest, _, _ => by simp [primaryTokens, primaryTree, parsePrimary, tok.type_eq]
  | .true_ tok, n, rest, _, _ => by simp [primaryTokens, primaryTree, parsePrimary, tok.type_eq]
  | .false_ tok, n, rest, _, _ => by simp [primaryTokens, primaryTree, parsePrimary, tok.type_eq]
  | .time tok, n, rest, _, _ => by simp [primaryTokens, primaryTree, parsePrimary, tok.type_eq]
  | .name first members, n, rest, _, hrest => by
    simp only [endsName, Bool.and_eq_true, decide_eq_true_eq] at hrest
    simp [primaryTokens, primaryTree, parsePrimary, first.type_eq,
      read_writtenMembers members hrest.1, hrest.2, fullName]
  | .call first members lparen args rparen, n, rest, hn, _ => by
    simp only [primaryTokens, List.length_cons, List.length_append, List.length_nil] at hn
    obtain ⟨m, rfl⟩ : ∃ m, n = m + 1 := ⟨n - 1, by omega⟩
    have hlparen : (head (lparen.token :: (argumentTokens args ++ rparen.token :: rest))).type ≠
        .dot := by simp [lparen.type_eq]
    have hmembers := read_writtenMembers members hlparen first.token.literal
    have hargs := read_arguments args m rparen rest (by omega)
    simp [primaryTokens, primaryTree, parsePrimary, first.type_eq, hmembers, lparen.type_eq,
      parseCallArgs, expectAny, hargs, fullName]
  | .paren lparen source rparen, n, rest, hn, _ => by
    simp only [primaryTokens, List.length_cons, List.length_append, List.length_nil] at hn
    obtain ⟨m, rfl⟩ : ∃ m, n = m + 1 := ⟨n - 1, by omega⟩
    have hread := read_source source m (rparen.token :: rest) (by omega) (endsExpr_rparen rparen)
    simp [primaryTokens, primaryTree, parsePrimary, lparen.type_eq, unroll, hread, expectAny]

theorem read_signed : ∀ (operand : Operand) (n : Nat) (rest : List Token),
    (operandTokens operand).length ≤ n → endsName (head rest) = true →
      parseUnary (unroll parseOr n) (operandTokens operand ++ rest) =
        .ok (operandTree parserLevel operand) rest
  | .plain primary, n, rest, hn, hrest => by
    have hstart := primaryTokens_starts primary rest
    apply read_unary _ _ (read_primary primary n rest hn hrest)
    · intro h
      rw [startsExpr, h] at hstart
      exact absurd hstart (by decide)
    · intro h
      rw [startsExpr, h] at hstart
      exact absurd hstart (by decide)
  | .minus tok primary, n, rest, hn, hrest => by
    simp only [operandTokens, List.length_cons] at hn
    exact read_minus tok.type_eq (read_primary primary n rest (by omega) hrest)
  | .not tok operand, n, rest, hn, hrest => by
    simp only [operandTokens, List.length_cons] at hn
    exact read_not tok.type_eq (read_signed operand n rest (by omega) hrest)

theorem read_arguments : ∀ (args : Arguments) (n : Nat) (rparen : Spelled .rparen)
    (rest : List Token), (argumentTokens args).length ≤ n →
      separated endsArgs (isType .comma) (unroll parseOr (n + 1))
        (argumentTokens args ++ rparen.token :: rest) =
          .ok (argumentTrees parserLevel args) (rparen.token :: rest)
  | .nil, n, rparen, rest, _ =>
    separated_stop (by simp [argumentTokens, endsArgs, isType, rparen.type_eq])
  | .last source, n, rparen, rest, hn => by
    have hread := read_source source n (rparen.token :: rest) hn (endsExpr_rparen rparen)
    exact separated_last (sourceTokens_endsArgs source _) hread (by simp [isType, rparen.type_eq])
  | .cons source comma args, n, rparen, rest, hn => by
    simp only [argumentTokens, List.length_append, List.length_cons] at hn
    have hread := read_source source n
      (comma.token :: (argumentTokens args ++ rparen.token :: rest)) (by omega)
      (endsExpr_comma comma)
    have hmore := read_arguments args n rparen rest (by omega)
    simp only [argumentTokens, argumentTrees, List.append_assoc, List.cons_append]
    exact separated_next (sourceTokens_endsArgs source _) hread
      (by simp [isType, comma.type_eq]) (by simp; omega) hmore

theorem read_source : ∀ (source : Source) (n : Nat) (rest : List Token),
    (sourceTokens source).length ≤ n → endsExpr (head rest) = true →
      parseOr (unroll parseOr n) (sourceTokens source ++ rest) =
        .ok (tree parserLevel source) rest
  | .mk first more, n, rest, hn, hrest => by
    simp only [sourceTokens, List.length_append] at hn
    have hfirst : (reader n).Reads first := fun rest' h => read_signed first n rest' (by omega) h
    have hmore : ∀ p ∈ more.toList, (reader n).Reads p.2 := fun p hp rest' h =>
      read_further more n (by omega) p hp rest' h
    have hread := Infix.Reader.read_sequence (reader_ends n hrest) first more.toList hfirst hmore
    rw [sourceTokens, furtherTokens_eq, tree, furtherTrees_eq, List.append_assoc]
    exact hread

theorem read_further : ∀ (more : Further) (n : Nat), (furtherTokens more).length ≤ n →
    ∀ p ∈ more.toList, ∀ rest : List Token, endsName (head rest) = true →
      parseUnary (unroll parseOr n) (operandTokens p.2 ++ rest) =
        .ok (operandTree parserLevel p.2) rest
  | .nil, _, _ => by simp [Further.toList]
  | .cons op operand more, n, hn => by
    simp only [furtherTokens, List.length_append, List.length_cons] at hn
    intro p hp rest hrest
    rcases List.mem_cons.mp hp with heq | hp
    · rw [heq]
      exact read_signed operand n rest (by omega) hrest
    · exact read_further more n (by omega) p hp rest hrest

end

/-- The parser accepts every expression, with the tree of its own levels. -/
theorem parseExpression_source (source : Source) {rest : List Token}
    (hrest : endsExpr (head rest) = true) :
    parseExpression (sourceTokens source ++ rest) = .ok (tree parserLevel source) rest :=
  read_source source _ rest (by simp) hrest

/-! ## Chains of comparisons -/

def isRelational (op : BinaryOp) : Bool :=
  [.less, .lessEq, .greater, .greaterEq].contains op

def isEquality (op : BinaryOp) : Bool := [.equal, .notEqual].contains op

/-- AND, XOR and OR, which end a chain of comparisons. -/
def endsChain (op : BinaryOp) : Bool := [.and, .xor, .or].contains op

/-- Whether the chain has an equality operator, after a further operator. -/
def afterOp (seen : Bool) (op : BinaryOp) : Bool :=
  if isEquality op then true else if endsChain op then false else seen

/-- No relational operator follows an equality operator of its chain. -/
def relationalFirst (seen : Bool) : List BinaryOp → Bool
  | [] => true
  | op :: ops => !(isRelational op && seen) && relationalFirst (afterOp seen op) ops

/-- Whether the last chain of the tree has an equality operator. -/
def seenEquality {α : Type} : Infix.Tree α BinaryOp → Bool
  | .leaf _ => false
  | .node _ o r => isEquality o || endsChain o && seenEquality r

section Chains

variable {α : Type}

/-- The two tables part only at a relational operator behind an equality. -/
theorem descendsAlike_iff (t : Infix.Tree α BinaryOp) (op : BinaryOp) :
    Infix.DescendsAlike parserLevel iecLevel t op ↔ (isRelational op && seenEquality t) = false := by
  induction t with
  | leaf a => simp [Infix.DescendsAlike, seenEquality]
  | node l o r _ ih =>
    unfold Infix.DescendsAlike
    rw [ih]
    cases op <;> cases o <;>
      simp [parserLevel, iecLevel, isRelational, seenEquality, isEquality, endsChain]

/-- An equality is seen on the right edge once it has been read. -/
theorem seenEquality_append (t : Infix.Tree α BinaryOp) (op : BinaryOp) (x : α)
    (h : (isRelational op && seenEquality t) = false) :
    seenEquality (Infix.append parserLevel t op x) = afterOp (seenEquality t) op := by
  induction t with
  | leaf a => simp [Infix.append, seenEquality, afterOp]
  | node l o r _ ih =>
    simp only [seenEquality] at h ⊢
    by_cases hlt : parserLevel op < parserLevel o
    · rw [Infix.append, if_pos hlt, seenEquality]
      cases ho : endsChain o with
      | true =>
        have heq : isEquality o = false := by revert ho; cases o <;> decide
        have hr : (isRelational op && seenEquality r) = false := by simpa [ho, heq] using h
        simp [ih hr, heq]
      | false =>
        have hop : isEquality op = false ∧ endsChain op = false := by
          revert hlt ho
          cases o <;> cases op <;> decide
        simp [afterOp, hop.1, hop.2]
    · rw [Infix.append, if_neg hlt, seenEquality]
      -- an arithmetic operator only gets above other arithmetic operators
      have hop : isRelational op = true ∨ isEquality op = true ∨ endsChain op = true ∨
          isEquality o = false ∧ endsChain o = false := by
        revert hlt
        cases o <;> cases op <;> decide
      rcases hop with hop | hop | hop | hop
      · simp only [hop, Bool.true_and] at h
        simp [afterOp, h, seenEquality]
      · simp [afterOp, hop]
      · simp [afterOp, hop, seenEquality]
      · simp [afterOp, hop.1, hop.2, seenEquality]

/-- The tables agree on a sequence exactly if no relational operator follows an equality of its
chain. -/
theorem agree_iff (t : Infix.Tree α BinaryOp) (s : List (BinaryOp × α)) :
    Infix.Agree parserLevel iecLevel t s ↔
      relationalFirst (seenEquality t) (s.map Prod.fst) = true := by
  induction s generalizing t with
  | nil => simp [Infix.Agree, relationalFirst]
  | cons p s ih =>
    obtain ⟨op, x⟩ := p
    rw [Infix.Agree, descendsAlike_iff, ih, List.map_cons, relationalFirst, Bool.and_eq_true,
      Bool.not_eq_true']
    constructor
    · rintro ⟨hd, h⟩
      rw [seenEquality_append t op x hd] at h
      exact ⟨hd, h⟩
    · rintro ⟨hd, h⟩
      rw [seenEquality_append t op x hd]
      exact ⟨hd, h⟩

end Chains

/-! ## Where the three orders agree -/

mutual

def primaryChains : Primary → Bool
  | .call _ _ _ args _ => argumentChains args
  | .paren _ source _ => relationalBeforeEquality source
  | _ => true

def operandChains : Operand → Bool
  | .plain primary => primaryChains primary
  | .minus _ primary => primaryChains primary
  | .not _ operand => operandChains operand

def argumentChains : Arguments → Bool
  | .nil => true
  | .last source => relationalBeforeEquality source
  | .cons source _ args => relationalBeforeEquality source && argumentChains args

/-- No chain of comparisons has a relational operator after an equality operator. -/
def relationalBeforeEquality : Source → Bool
  | .mk first more =>
    relationalFirst false (more.toList.map fun p => p.1.op) && operandChains first &&
      furtherChains more

def furtherChains : Further → Bool
  | .nil => true
  | .cons _ operand more => operandChains operand && furtherChains more

end

mutual

/-- A NOT, with parentheses around it. -/
def primaryIsNot : Primary → Bool
  | .paren _ (.mk first .nil) _ => operandIsNot first
  | _ => false

/-- A NOT, with parentheses around it or without. -/
def operandIsNot : Operand → Bool
  | .plain primary => primaryIsNot primary
  | .minus _ _ => false
  | .not _ _ => true

end

mutual

def primaryNots : Primary → Bool
  | .call _ _ _ args _ => argumentNots args
  | .paren _ source _ => notsUnderLogic source
  | _ => true

def operandNots : Operand → Bool
  | .plain primary => primaryNots primary
  | .minus _ primary => !primaryIsNot primary && primaryNots primary
  | .not _ operand => operandNots operand

def argumentNots : Arguments → Bool
  | .nil => true
  | .last source => notsUnderLogic source
  | .cons source _ args => notsUnderLogic source && argumentNots args

/-- Where a NOT is an operand of a binary operator, that is AND or OR, and no NOT has a minus sign
before it. -/
def notsUnderLogic : Source → Bool
  | .mk first more =>
    Infix.takenFrom parserLevel isLogic none (operandIsNot first)
        (more.toList.map fun p => (p.1.op, operandIsNot p.2)) &&
      operandNots first && furtherNots more

def furtherNots : Further → Bool
  | .nil => true
  | .cons _ operand more => operandNots operand && furtherNots more

end

mutual

def primaryNames [Words] : Primary → Bool
  | .call first members _ args _ => nameAllowed (fullName first members) && argumentNames args
  | .paren _ source _ => namesUnreserved source
  | _ => true

def operandNames [Words] : Operand → Bool
  | .plain primary => primaryNames primary
  | .minus _ primary => primaryNames primary
  | .not _ operand => operandNames operand

def argumentNames [Words] : Arguments → Bool
  | .nil => true
  | .last source => namesUnreserved source
  | .cons source _ args => namesUnreserved source && argumentNames args

/-- No part of a function's name is a reserved word of Starlark. -/
def namesUnreserved [Words] : Source → Bool
  | .mk first more => operandNames first && furtherNames more

def furtherNames [Words] : Further → Bool
  | .nil => true
  | .cons _ operand more => operandNames operand && furtherNames more

end

def precedencesAgree [Words] (source : Source) : Bool :=
  relationalBeforeEquality source && notsUnderLogic source && namesUnreserved source

section Agreement

variable (level : BinaryOp → Nat)

/-! The well-formedness of the tree. -/

/-- The members of a name make a name. -/
theorem isName_fullName (first : Spelled .ident) (members : List Member) :
    isName (fullName first members) = true := by
  have hfirst : isIdent first.token.literal = true := by
    have hlexed := first.lexed
    rwa [isLexed, first.type_eq] at hlexed
  have hmembers : (members.map fun m => m.word.literal).all StRender.isWord = true := by
    simp only [List.all_map, List.all_eq_true, Function.comp_apply]
    exact fun m _ => m.isWord
  rw [fullName, foldl_members]
  exact isName_intercalate hfirst hmembers

theorem all_tree {q : Expression → Bool}
    (h : ∀ a op b, q (.binaryExpr a op b) = (q a && q b)) (first : Operand) (more : Further) :
    q (tree level (.mk first more)) =
      (q (operandTree level first) && (furtherTrees level more).all fun p => q p.2) := by
  rw [tree, Infix.all_fold h, Infix.treeLeaves_resolve]
  simp [Infix.treeLeaves, List.all_map, Function.comp_def]

mutual

/-- The tree of a primary is well formed. -/
theorem primaryTree_wellFormed : ∀ primary : Primary,
    exprWellFormed (primaryTree level primary) = true
  | .number tok => by
    have hlexed := tok.lexed
    rwa [isLexed, tok.type_eq] at hlexed
  | .string tok => by
    have hlexed := tok.lexed
    rwa [isLexed, tok.type_eq] at hlexed
  | .true_ _ => rfl
  | .false_ _ => rfl
  | .time tok => by
    have hlexed := tok.lexed
    rwa [isLexed, tok.type_eq] at hlexed
  | .name first members => isName_fullName first members
  | .call first members _ args _ => by
    simp [primaryTree, exprWellFormed, isName_fullName, argumentTrees_wellFormed args]
  | .paren _ source _ => tree_wellFormed source

theorem operandTree_wellFormed : ∀ operand : Operand,
    exprWellFormed (operandTree level operand) = true
  | .plain primary => primaryTree_wellFormed primary
  | .minus _ primary => primaryTree_wellFormed primary
  | .not _ operand => operandTree_wellFormed operand

theorem argumentTrees_wellFormed : ∀ args : Arguments,
    argsWellFormed (argumentTrees level args) = true
  | .nil => rfl
  | .last source => by simp [argumentTrees, argsWellFormed, tree_wellFormed source]
  | .cons source _ args => by
    simp [argumentTrees, argsWellFormed, tree_wellFormed source, argumentTrees_wellFormed args]

theorem tree_wellFormed : ∀ source : Source, exprWellFormed (tree level source) = true
  | .mk first more => by
    rw [all_tree level (q := exprWellFormed) (fun _ _ _ => rfl), operandTree_wellFormed first,
      furtherTrees_wellFormed more]
    rfl

theorem furtherTrees_wellFormed : ∀ more : Further,
    ((furtherTrees level more).all fun p => exprWellFormed p.2) = true
  | .nil => rfl
  | .cons _ operand more => by
    simp [furtherTrees, operandTree_wellFormed operand, furtherTrees_wellFormed more]

end

mutual

theorem primaryTree_namesAllowed [Words] : ∀ primary : Primary,
    namesAllowed (primaryTree level primary) = primaryNames primary
  | .number _ => rfl
  | .string _ => rfl
  | .true_ _ => rfl
  | .false_ _ => rfl
  | .time _ => rfl
  | .name _ _ => rfl
  | .call first members _ args _ => by
    rw [primaryTree, namesAllowed, primaryNames, argumentTrees_namesAllowed args]
  | .paren _ source _ => tree_namesAllowed source

theorem operandTree_namesAllowed [Words] : ∀ operand : Operand,
    namesAllowed (operandTree level operand) = operandNames operand
  | .plain primary => primaryTree_namesAllowed primary
  | .minus _ primary => primaryTree_namesAllowed primary
  | .not _ operand => operandTree_namesAllowed operand

theorem argumentTrees_namesAllowed [Words] : ∀ args : Arguments,
    allNamesAllowed (argumentTrees level args) = argumentNames args
  | .nil => rfl
  | .last source => by
    rw [argumentTrees, allNamesAllowed, tree_namesAllowed source, argumentNames]
    simp [allNamesAllowed]
  | .cons source _ args => by
    rw [argumentTrees, allNamesAllowed, tree_namesAllowed source, argumentNames,
      argumentTrees_namesAllowed args]

theorem tree_namesAllowed [Words] : ∀ source : Source,
    namesAllowed (tree level source) = namesUnreserved source
  | .mk first more => by
    rw [all_tree level (q := namesAllowed) (fun _ _ _ => rfl), operandTree_namesAllowed first,
      furtherTrees_namesAllowed more, namesUnreserved]

theorem furtherTrees_namesAllowed [Words] : ∀ more : Further,
    ((furtherTrees level more).all fun p => namesAllowed p.2) = furtherNames more
  | .nil => rfl
  | .cons _ operand more => by
    rw [furtherTrees, List.all_cons, operandTree_namesAllowed operand,
      furtherTrees_namesAllowed more, furtherNames]

end

/-! Its NOTs. -/

theorem isNot_fold (t : Infix.Tree Expression BinaryOp) :
    isNot (Infix.fold .binaryExpr t) = Infix.isMarked (Infix.mapLeaves isNot t) := by
  cases t with
  | leaf e => rfl
  | node l o r => rfl

/-- The negations of a tree are taken exactly if those of its leaves and its nodes are. -/
theorem notsTaken_fold (t : Infix.Tree Expression BinaryOp) :
    notsTaken (Infix.fold .binaryExpr t) =
      (Infix.wellTaken isLogic (Infix.mapLeaves isNot t) &&
        (Infix.treeLeaves t).all notsTaken) := by
  induction t with
  | leaf e => simp [Infix.fold, Infix.mapLeaves, Infix.wellTaken, Infix.treeLeaves]
  | node l o r ihl ihr =>
    rw [Infix.fold, notsTaken, ihl, ihr, isNot_fold, isNot_fold]
    rw [Bool.eq_iff_iff]
    simp only [Infix.mapLeaves, Infix.wellTaken, Infix.treeLeaves, List.all_append,
      Bool.and_eq_true, Bool.or_eq_true]
    tauto

/-- A sequence has the mark of its first operand only if it has no other one. -/
theorem isMarked_resolve (m : Bool) (s : List (BinaryOp × Bool)) :
    Infix.isMarked (Infix.resolve level (.leaf m) s) = (m && s.isEmpty) := by
  cases s with
  | nil => simp
  | cons p s =>
    have hnode : ∀ (s : List (BinaryOp × Bool)) (t : Infix.Tree Bool BinaryOp),
        Infix.isMarked t = false → Infix.isMarked (Infix.resolve level t s) = false := by
      intro s
      induction s with
      | nil => exact fun t ht => ht
      | cons p s ih => exact fun t _ => ih _ (Infix.isMarked_append t p.1 p.2)
    rw [Infix.resolve_cons, hnode s _ (Infix.isMarked_append _ _ _)]
    simp

mutual

/-- A primary is a negation exactly if it is written as one. -/
theorem isNot_primaryTree : ∀ primary : Primary,
    isNot (primaryTree level primary) = primaryIsNot primary
  | .number _ => rfl
  | .string _ => rfl
  | .true_ _ => rfl
  | .false_ _ => rfl
  | .time _ => rfl
  | .name _ _ => rfl
  | .call _ _ _ _ _ => rfl
  | .paren _ (.mk first .nil) _ => isNot_operandTree first
  | .paren _ (.mk first (.cons op operand more)) _ => by
    rw [primaryTree, tree, isNot_fold, Infix.mapLeaves_resolve, Infix.mapLeaves, isMarked_resolve]
    simp [furtherTrees, primaryIsNot]

theorem isNot_operandTree : ∀ operand : Operand,
    isNot (operandTree level operand) = operandIsNot operand
  | .plain primary => isNot_primaryTree primary
  | .minus _ _ => rfl
  | .not _ _ => rfl

end

mutual

/-- Its negations are taken exactly if they are written so. -/
theorem notsTaken_primaryTree : ∀ primary : Primary,
    notsTaken (primaryTree parserLevel primary) = primaryNots primary
  | .number _ => rfl
  | .string _ => rfl
  | .true_ _ => rfl
  | .false_ _ => rfl
  | .time _ => rfl
  | .name _ _ => rfl
  | .call _ _ _ args _ => notsTaken_argumentTrees args
  | .paren _ source _ => notsTaken_tree source

theorem notsTaken_operandTree : ∀ operand : Operand,
    notsTaken (operandTree parserLevel operand) = operandNots operand
  | .plain primary => notsTaken_primaryTree primary
  | .minus _ primary => by
    rw [operandTree, notsTaken, isNot_primaryTree, notsTaken_primaryTree primary, operandNots]
  | .not _ operand => notsTaken_operandTree operand

theorem notsTaken_argumentTrees : ∀ args : Arguments,
    allNotsTaken (argumentTrees parserLevel args) = argumentNots args
  | .nil => rfl
  | .last source => by
    rw [argumentTrees, allNotsTaken, notsTaken_tree source, argumentNots]
    simp [allNotsTaken]
  | .cons source _ args => by
    rw [argumentTrees, allNotsTaken, notsTaken_tree source, argumentNots,
      notsTaken_argumentTrees args]

theorem notsTaken_tree : ∀ source : Source,
    notsTaken (tree parserLevel source) = notsUnderLogic source
  | .mk first more => by
    have hmarks : (furtherTrees parserLevel more).map (fun p => (p.1, isNot p.2)) =
        more.toList.map fun p => (p.1.op, operandIsNot p.2) := by
      rw [furtherTrees_eq, List.map_map]
      exact List.map_congr_left fun p _ => by simp [isNot_operandTree]
    rw [tree, notsTaken_fold, Infix.mapLeaves_resolve, Infix.mapLeaves, Infix.wellTaken_sequence,
      Infix.treeLeaves_resolve, hmarks, isNot_operandTree, notsUnderLogic,
      ← notsTaken_operandTree first, ← notsTaken_furtherTrees more]
    simp [Infix.treeLeaves, List.all_map, Function.comp_def, Bool.and_assoc]

theorem notsTaken_furtherTrees : ∀ more : Further,
    ((furtherTrees parserLevel more).all fun p => notsTaken p.2) = furtherNots more
  | .nil => rfl
  | .cons _ operand more => by
    rw [furtherTrees, List.all_cons, notsTaken_operandTree operand, notsTaken_furtherTrees more,
      furtherNots]

end

end Agreement

/-! ## Trees of two tables -/

section Tables

variable (p q : BinaryOp → Nat)

/-- A measure that adds up over binary operators. -/
theorem sum_tree {f : Expression → Nat} (h : ∀ a op b, f (.binaryExpr a op b) = f a + f b)
    (level : BinaryOp → Nat) (first : Operand) (more : Further) :
    f (tree level (.mk first more)) =
      f (operandTree level first) + ((furtherTrees level more).map fun p => f p.2).sum := by
  rw [tree, Infix.sum_fold h, Infix.treeLeaves_resolve]
  simp [Infix.treeLeaves, Function.comp_def]

variable [GoQuote]

mutual

/-- The table does not change the size of a primary. -/
theorem size_primaryTree : ∀ primary : Primary,
    (image (primaryTree p primary)).size = (image (primaryTree q primary)).size
  | .number _ => rfl
  | .string _ => rfl
  | .true_ _ => rfl
  | .false_ _ => rfl
  | .time _ => rfl
  | .name _ _ => rfl
  | .call _ _ _ args _ => congrArg (1 + ·) (size_argumentTrees args)
  | .paren _ source _ => size_tree source

theorem size_operandTree : ∀ operand : Operand,
    (image (operandTree p operand)).size = (image (operandTree q operand)).size
  | .plain primary => size_primaryTree primary
  | .minus _ primary => size_primaryTree primary
  | .not _ operand => size_operandTree operand

theorem size_argumentTrees : ∀ args : Arguments,
    Starlark.sizes (images (argumentTrees p args)) = Starlark.sizes (images (argumentTrees q args))
  | .nil => rfl
  | .last source => congrArg (· + 0) (size_tree source)
  | .cons source _ args => congrArg₂ (· + ·) (size_tree source) (size_argumentTrees args)

theorem size_tree : ∀ source : Source,
    (image (tree p source)).size = (image (tree q source)).size
  | .mk first more => by
    have hadds : ∀ a op b, (image (.binaryExpr a op b)).size = (image a).size + (image b).size :=
      fun _ _ _ => rfl
    rw [sum_tree (f := fun e => (image e).size) hadds p,
      sum_tree (f := fun e => (image e).size) hadds q, size_operandTree first,
      size_furtherTrees more]

theorem size_furtherTrees : ∀ more : Further,
    (furtherTrees p more).map (fun x => (image x.2).size) =
      (furtherTrees q more).map fun x => (image x.2).size
  | .nil => rfl
  | .cons _ operand more => congrArg₂ List.cons (size_operandTree operand) (size_furtherTrees more)

end

mutual

theorem weight_primaryTree : ∀ primary : Primary,
    (image (primaryTree p primary)).weight = (image (primaryTree q primary)).weight
  | .number _ => rfl
  | .string _ => rfl
  | .true_ _ => rfl
  | .false_ _ => rfl
  | .time _ => rfl
  | .name _ _ => rfl
  | .call _ _ _ args _ => weight_argumentTrees args
  | .paren _ source _ => weight_tree source

theorem weight_operandTree : ∀ operand : Operand,
    (image (operandTree p operand)).weight = (image (operandTree q operand)).weight
  | .plain primary => weight_primaryTree primary
  | .minus _ primary => weight_primaryTree primary
  | .not _ operand => congrArg₂ (· + ·) (size_operandTree p q operand) (weight_operandTree operand)

theorem weight_argumentTrees : ∀ args : Arguments,
    Starlark.weights (images (argumentTrees p args)) =
      Starlark.weights (images (argumentTrees q args))
  | .nil => rfl
  | .last source => congrArg (· + 0) (weight_tree source)
  | .cons source _ args => congrArg₂ (· + ·) (weight_tree source) (weight_argumentTrees args)

theorem weight_tree : ∀ source : Source,
    (image (tree p source)).weight = (image (tree q source)).weight
  | .mk first more => by
    have hadds : ∀ a op b,
        (image (.binaryExpr a op b)).weight = (image a).weight + (image b).weight :=
      fun _ _ _ => rfl
    rw [sum_tree (f := fun e => (image e).weight) hadds p,
      sum_tree (f := fun e => (image e).weight) hadds q, weight_operandTree first,
      weight_furtherTrees more]

theorem weight_furtherTrees : ∀ more : Further,
    (furtherTrees p more).map (fun x => (image x.2).weight) =
      (furtherTrees q more).map fun x => (image x.2).weight
  | .nil => rfl
  | .cons _ operand more =>
    congrArg₂ List.cons (weight_operandTree operand) (weight_furtherTrees more)

end

/-- An operator with its operands, as Starlark has them. -/
def join (left : Starlark.Tree) (op : BinaryOp) (right : Starlark.Tree) : Starlark.Tree :=
  .binary left (starOp op) right

def sized : Infix.Sized join where
  size := Starlark.Tree.size
  size_pos := Starlark.Tree.size_pos
  size_join _ _ _ := rfl
  join_inj {_ op _ _ op' _} h := by
    simp only [join, Starlark.Tree.binary.injEq] at h
    have hop : op = op' := by
      have hstar := h.2.1
      revert hstar
      cases op <;> cases op' <;> simp [starOp]
    exact ⟨h.1, hop, h.2.2⟩

def furtherImages (level : BinaryOp → Nat) (more : Further) : List (BinaryOp × Starlark.Tree) :=
  (furtherTrees level more).map fun x => (x.1, image x.2)

def leafImages (level : BinaryOp → Nat) (first : Operand) (more : Further) :
    Infix.Tree Starlark.Tree BinaryOp :=
  Infix.resolve level (.leaf (image (operandTree level first))) (furtherImages level more)

theorem image_tree (level : BinaryOp → Nat) (first : Operand) (more : Further) :
    image (tree level (.mk first more)) = Infix.fold join (leafImages level first more) := by
  have hjoin : ∀ a op b, image (.binaryExpr a op b) = join (image a) op (image b) :=
    fun _ _ _ => rfl
  rw [tree, Infix.fold_mapLeaves hjoin, Infix.mapLeaves_resolve]
  rfl

theorem treeLeaves_leafImages (level : BinaryOp → Nat) (first : Operand) (more : Further) :
    Infix.treeLeaves (leafImages level first more) =
      image (operandTree level first) :: (furtherImages level more).map Prod.snd :=
  Infix.treeLeaves_resolve level _ _

theorem furtherImages_ops (level : BinaryOp → Nat) (more : Further) :
    (furtherImages level more).map Prod.fst = more.toList.map fun x => x.1.op := by
  simp [furtherImages, furtherTrees_eq]

theorem furtherImages_ext {more : Further}
    (h : (furtherImages p more).map Prod.snd = (furtherImages q more).map Prod.snd) :
    furtherImages p more = furtherImages q more := by
  have hops := (furtherImages_ops p more).trans (furtherImages_ops q more).symm
  rw [← List.zip_unzip (furtherImages p more), ← List.zip_unzip (furtherImages q more),
    List.unzip_eq_map, List.unzip_eq_map, h, hops]

/-- Images are equal when the operands have equal images and the tables agree on the operators. -/
theorem image_tree_eq_iff (first : Operand) (more : Further) :
    image (tree parserLevel (.mk first more)) = image (tree iecLevel (.mk first more)) ↔
      relationalFirst false (more.toList.map fun x => x.1.op) = true ∧
        image (operandTree parserLevel first) = image (operandTree iecLevel first) ∧
        furtherImages parserLevel more = furtherImages iecLevel more := by
  have hagree : Infix.resolve parserLevel (.leaf (image (operandTree parserLevel first)))
        (furtherImages parserLevel more) =
      Infix.resolve iecLevel (.leaf (image (operandTree parserLevel first)))
        (furtherImages parserLevel more) ↔
      relationalFirst false (more.toList.map fun x => x.1.op) = true := by
    rw [Infix.resolve_eq_iff, agree_iff, furtherImages_ops]
    rfl
  rw [image_tree, image_tree]
  constructor
  · intro h
    have hsizes : (Infix.treeLeaves (leafImages parserLevel first more)).map sized.size =
        (Infix.treeLeaves (leafImages iecLevel first more)).map sized.size := by
      have hfurther := size_furtherTrees parserLevel iecLevel more
      rw [treeLeaves_leafImages, treeLeaves_leafImages]
      simp only [furtherImages, List.map_cons, List.map_map]
      exact congrArg₂ List.cons (size_operandTree parserLevel iecLevel first) hfurther
    have htrees := sized.fold_inj hsizes h
    have hleaves := congrArg Infix.treeLeaves htrees
    rw [treeLeaves_leafImages, treeLeaves_leafImages, List.cons.injEq] at hleaves
    have hfurther := furtherImages_ext parserLevel iecLevel hleaves.2
    refine ⟨hagree.mp ?_, hleaves.1, hfurther⟩
    rw [leafImages, leafImages, ← hleaves.1, ← hfurther] at htrees
    exact htrees
  · rintro ⟨hrelational, hfirst, hfurther⟩
    have htrees := hagree.mpr hrelational
    rw [leafImages, leafImages, ← hfirst, ← hfurther, htrees]

mutual

/-- A primary is the same under both tables exactly if all in it is. -/
theorem image_primaryTree_eq_iff : ∀ primary : Primary,
    image (primaryTree parserLevel primary) = image (primaryTree iecLevel primary) ↔
      primaryChains primary = true
  | .number _ => by simp [primaryTree, primaryChains]
  | .string _ => by simp [primaryTree, primaryChains]
  | .true_ _ => by simp [primaryTree, primaryChains]
  | .false_ _ => by simp [primaryTree, primaryChains]
  | .time _ => by simp [primaryTree, primaryChains]
  | .name _ _ => by simp [primaryTree, primaryChains]
  | .call _ _ _ args _ => by
    simp [primaryTree, image, primaryChains, images_argumentTrees_eq_iff args]
  | .paren _ source _ => by
    simp only [primaryTree, primaryChains]
    exact image_source_eq_iff source

theorem image_operandTree_eq_iff : ∀ operand : Operand,
    image (operandTree parserLevel operand) = image (operandTree iecLevel operand) ↔
      operandChains operand = true
  | .plain primary => by
    simp only [operandTree, operandChains]
    exact image_primaryTree_eq_iff primary
  | .minus _ primary => by
    simp [operandTree, image, operandChains, image_primaryTree_eq_iff primary]
  | .not _ operand => by
    simp [operandTree, image, operandChains, image_operandTree_eq_iff operand]

theorem images_argumentTrees_eq_iff : ∀ args : Arguments,
    images (argumentTrees parserLevel args) = images (argumentTrees iecLevel args) ↔
      argumentChains args = true
  | .nil => by simp [argumentTrees, argumentChains]
  | .last source => by
    simp [argumentTrees, images, argumentChains, image_source_eq_iff source]
  | .cons source _ args => by
    simp [argumentTrees, images, argumentChains, image_source_eq_iff source,
      images_argumentTrees_eq_iff args]

theorem image_source_eq_iff : ∀ source : Source,
    image (tree parserLevel source) = image (tree iecLevel source) ↔
      relationalBeforeEquality source = true
  | .mk first more => by
    rw [image_tree_eq_iff, image_operandTree_eq_iff first, furtherImages_eq_iff more,
      relationalBeforeEquality, Bool.and_eq_true, Bool.and_eq_true, and_assoc]

theorem furtherImages_eq_iff : ∀ more : Further,
    furtherImages parserLevel more = furtherImages iecLevel more ↔ furtherChains more = true
  | .nil => by simp [furtherImages, furtherTrees, furtherChains]
  | .cons _ operand more => by
    have hmore := furtherImages_eq_iff more
    simp only [furtherImages] at hmore
    simp [furtherImages, furtherTrees, furtherChains, image_operandTree_eq_iff operand, hmore]

end

end Tables

/-- The generated text means what IEC 61131-3 says exactly if both tables give one tree. -/
theorem read_tree_iff [Words] [GoQuote] (source : Source) :
    Starlark.read (expr (tree parserLevel source)) = some (image (iecTree source)) ↔
      precedencesAgree source = true := by
  rw [StReading.read_expr (tree_wellFormed parserLevel source)]
  simp only [precedencesAgree, Bool.and_eq_true, and_assoc]
  rw [← image_source_eq_iff, ← notsTaken_tree, ← tree_namesAllowed parserLevel]
  constructor
  · intro h
    obtain ⟨-, -, htaken, hallowed⟩ := StReading.reading_compares _ _ h
    -- both trees have the same leaves under each NOT, so no NOT has been moved
    have hnots := htaken (weight_tree iecLevel parserLevel source)
    rw [StReading.reading_image _ hnots hallowed, Option.some.injEq] at h
    exact ⟨h, hnots, hallowed⟩
  · rintro ⟨heq, hnots, hallowed⟩
    rw [StReading.reading_image _ hnots hallowed, heq]
    rfl

/-- The generated text of an accepted expression is read as the tree of IEC 61131-3 exactly when
the precedences agree on the expression. -/
theorem read_generated_iff [Words] [GoQuote] (source : Source) (rest : List Token)
    (hrest : endsExpr (head rest) = true) :
    ∃ e, parseExpression (sourceTokens source ++ rest) = .ok e rest ∧
      (Starlark.read (expr e) = some (image (iecTree source)) ↔ precedencesAgree source = true) :=
  ⟨tree parserLevel source, parseExpression_source source hrest, read_tree_iff source⟩

def symbol (type : TokenType) (h : isLexed (fixed type) = true) : Spelled type :=
  ⟨fixed type, rfl, h⟩

def variable_ (name : String) (h : isIdent name.toList = true) : Operand :=
  .plain (.name ⟨⟨.ident, name.toList, 1⟩, rfl, h⟩ [])

def operator (op : BinaryOp) : Operator := ⟨op, fixed (binaryType op), rfl⟩

/-- `NOT a AND b < c` -/
def guardSource : Source :=
  .mk (.not (symbol .not rfl) (variable_ "a" (by decide)))
    (.cons (operator .and) (variable_ "b" (by decide))
      (.cons (operator .less) (variable_ "c" (by decide)) .nil))

theorem read_generated_guardSource :
    let _ := Starlark.scannerWords
    let _ := StCodegen.asciiQuote
    ∃ e, parseExpression (sourceTokens guardSource ++ []) = .ok e [] ∧
      Starlark.read (expr e) = some (image (iecTree guardSource)) := by
  intro _ _
  obtain ⟨e, hparse, hread⟩ := read_generated_iff guardSource [] rfl
  exact ⟨e, hparse, hread.mpr (by decide)⟩

/-- `a = b < c` -/
def relationSource : Source :=
  .mk (variable_ "a" (by decide)) (.cons (operator .equal) (variable_ "b" (by decide))
    (.cons (operator .less) (variable_ "c" (by decide)) .nil))

/-- The parser takes `a = b < c` as `(a = b) < c`. -/
theorem read_generated_relationSource :
    let _ := Starlark.scannerWords
    let _ := StCodegen.asciiQuote
    ∃ e, parseExpression (sourceTokens relationSource ++ []) = .ok e [] ∧
      Starlark.read (expr e) ≠ some (image (iecTree relationSource)) := by
  intro _ _
  refine ⟨_, parseExpression_source relationSource rfl, ?_⟩
  rw [ne_eq, read_tree_iff]
  decide

end StPrecedence
