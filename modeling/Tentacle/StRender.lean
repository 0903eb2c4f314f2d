import Tentacle.StSyntax

/-!
# Structured Text: rendering

The canonical text of a program: every token followed by a blank, every binary and unary expression
in parentheses. A program is well formed when its names, literals and types are lexically what they
stand for, so that it has such a text.
-/

namespace StRender
open StSyntax

/-- The spelling of a keyword or a symbol. -/
def spelling (type : TokenType) : Text :=
  (((keywords.find? fun k => k.2 = type).map fun k => k.1) <|>
    ((twoByteSymbols.find? fun k => k.2 = type).map fun k => [k.1.1, k.1.2]) <|>
    ((symbols.find? fun k => k.2 = type).map fun k => [k.1])).getD []

def fixed (type : TokenType) : Token := ⟨type, spelling type, 1⟩

def word (w : Text) : Token := ⟨wordType w, w, 1⟩

/-! ## Tokens of a program -/

def memberTokens : List Text → List Token
  | [] => []
  | member :: members => fixed .dot :: word member :: memberTokens members

def nameTokens (name : Text) : List Token :=
  match name.splitOn '.' with
  | [] => []
  | first :: members => word first :: memberTokens members

def binaryType : BinaryOp → TokenType
  | .plus => .plus
  | .minus => .minus
  | .star => .star
  | .slash => .slash
  | .equal => .equal
  | .notEqual => .notEqual
  | .less => .less
  | .lessEq => .lessEq
  | .greater => .greater
  | .greaterEq => .greaterEq
  | .and => .and
  | .or => .or
  | .xor => .xor
  | .mod => .mod

def unaryType : UnaryOp → TokenType
  | .not => .not
  | .minus => .minus

mutual

def exprTokens : Expression → List Token
  | .numberLit value => [⟨.number, value, 1⟩]
  | .stringLit value => [⟨.string, value, 1⟩]
  | .boolLit value => [fixed (if value then .true_ else .false_)]
  | .identExpr name => nameTokens name
  | .binaryExpr left op right =>
    fixed .lparen :: (exprTokens left ++ fixed (binaryType op) :: (exprTokens right ++
      [fixed .rparen]))
  | .unaryExpr op operand =>
    fixed .lparen :: fixed (unaryType op) :: (exprTokens operand ++ [fixed .rparen])
  | .callExpr name args => nameTokens name ++ fixed .lparen :: (argTokens args ++ [fixed .rparen])
  | .memberExpr object member => exprTokens object ++ [fixed .dot, word member]
  | .timeLit raw => [⟨.timeLiteral, raw, 1⟩]

/-- Expressions with commas between them. -/
def argTokens : List Expression → List Token
  | [] => []
  | [e] => exprTokens e
  | e :: e' :: es => exprTokens e ++ fixed .comma :: argTokens (e' :: es)

end

def stepTokens : Option Expression → List Token
  | none => []
  | some step => fixed .by_ :: exprTokens step

mutual

def stmtTokens : Statement → List Token
  | .assignStmt target value =>
    nameTokens target ++ fixed .assign :: (exprTokens value ++ [fixed .semicolon])
  | .ifStmt condition thenBody elsIfs elseBody =>
    fixed .if_ :: (exprTokens condition ++ fixed .then_ :: (blockTokens thenBody ++
      (elsIfTokens elsIfs ++ (elseTokens elseBody ++ [fixed .endIf, fixed .semicolon]))))
  | .forStmt var start stop step body =>
    fixed .for_ :: word var :: fixed .assign :: (exprTokens start ++ fixed .to ::
      (exprTokens stop ++ (stepTokens step ++ fixed .do_ :: (blockTokens body ++
        [fixed .endFor, fixed .semicolon]))))
  | .whileStmt condition body =>
    fixed .while_ :: (exprTokens condition ++ fixed .do_ :: (blockTokens body ++
      [fixed .endWhile, fixed .semicolon]))
  | .repeatStmt body condition =>
    fixed .repeat_ :: (blockTokens body ++ fixed .until_ :: (exprTokens condition ++
      [fixed .endRepeat, fixed .semicolon]))
  | .caseStmt expression cases elseBody =>
    fixed .case_ :: (exprTokens expression ++ fixed .of :: (clauseTokens cases ++
      (elseTokens elseBody ++ [fixed .endCase, fixed .semicolon])))
  | .callStmt name args =>
    nameTokens name ++ fixed .lparen :: (argTokens args ++ [fixed .rparen, fixed .semicolon])
  | .returnStmt => [fixed .return_, fixed .semicolon]

def blockTokens : List Statement → List Token
  | [] => []
  | s :: body => stmtTokens s ++ blockTokens body

def elseTokens : List Statement → List Token
  | [] => []
  | s :: body => fixed .else_ :: (stmtTokens s ++ blockTokens body)

def elsIfTokens : List ElsIfClause → List Token
  | [] => []
  | .mk condition body :: clauses =>
    fixed .elsif :: (exprTokens condition ++ fixed .then_ :: (blockTokens body ++
      elsIfTokens clauses))

def clauseTokens : List CaseClause → List Token
  | [] => []
  | .mk values body :: clauses =>
    argTokens values ++ fixed .colon :: (blockTokens body ++ clauseTokens clauses)

end

def kindType : VarKind → TokenType
  | .var => .var
  | .varInput => .varInput
  | .varOutput => .varOutput

def initialTokens : Option Expression → List Token
  | none => []
  | some initial => fixed .assign :: exprTokens initial

def declTokens (decl : VarDecl) : List Token :=
  word decl.name :: fixed .colon :: word decl.datatype ::
    (initialTokens decl.initial ++ [fixed .semicolon])

def varBlockTokens (block : VarBlock) : List Token :=
  fixed (kindType block.kind) :: (block.vars.flatMap declTokens ++ [fixed .endVar])

def programTokens (p : Program) : List Token :=
  fixed .program :: word p.name :: (p.varBlocks.flatMap varBlockTokens ++
    (blockTokens p.statements ++ [fixed .endProgram]))

def text (tok : Token) : Text :=
  match tok.type with
  | .string => '\'' :: (tok.literal ++ ['\''])
  | .timeLiteral => 'T' :: '#' :: tok.literal
  | _ => tok.literal

def renderTokens (toks : List Token) : Text := toks.flatMap fun tok => text tok ++ [' ']

/-- The canonical text of a program. -/
def render (p : Program) : Text := renderTokens (programTokens p)

/-- The parts of a name, joined again. -/
theorem foldl_members (first : Text) (members : List Text) :
    members.foldl (fun fullName member => fullName ++ '.' :: member) first =
      ['.'].intercalate (first :: members) := by
  induction members generalizing first with
  | nil => simp
  | cons member members ih =>
    rw [List.foldl_cons, ih]
    cases members <;> simp [List.intercalate]

/-! ## Well-formed programs -/

def isWord : Text → Bool
  | [] => false
  | ch :: w => isIdentStart ch && w.all isIdentPart

/-- A word that is no keyword. -/
def isIdent (w : Text) : Bool := isWord w && wordType w == .ident

def isNumber : Text → Bool
  | [] => false
  | ch :: s => isDigit ch && numberLength (ch :: s) == (ch :: s).length

/-- An identifier, and words after it with dots between them. -/
def isName (name : Text) : Bool :=
  match name.splitOn '.' with
  | [] => false
  | first :: members => isIdent first && members.all isWord

/-- A word has no character that is none of a word. -/
theorem notMem_word {w : Text} (h : isWord w = true) {c : Char} (hc : isIdentPart c = false) :
    c ∉ w := by
  cases w with
  | nil => simp
  | cons ch w =>
    simp only [isWord, Bool.and_eq_true, List.all_eq_true] at h
    have hstart : isIdentPart ch = true := by
      have hch := h.1
      simp only [isIdentStart, Bool.or_eq_true] at hch
      rcases hch with hch | hch <;> simp [isIdentPart, hch]
    intro hmem
    rcases List.mem_cons.mp hmem with rfl | hmem
    · simp [hstart] at hc
    · simp [h.2 c hmem] at hc

/-- Words are the parts of the name that they make. -/
theorem isName_intercalate {first : Text} {members : List Text} (hfirst : isIdent first = true)
    (hmembers : members.all isWord = true) :
    isName (['.'].intercalate (first :: members)) = true := by
  have hword : isWord first = true := by
    rw [isIdent, Bool.and_eq_true] at hfirst
    exact hfirst.1
  have hsplit : (['.'].intercalate (first :: members)).splitOn '.' = first :: members := by
    apply List.splitOn_intercalate
    · intro w hw
      rcases List.mem_cons.mp hw with rfl | hw
      · exact notMem_word hword rfl
      · exact notMem_word (List.all_eq_true.mp hmembers w hw) rfl
    · simp
  simp [isName, hsplit, hfirst, hmembers]

theorem notMem_intercalate {c : Char} (hdot : c ≠ '.') {ws : List Text} (h : ∀ w ∈ ws, c ∉ w) :
    c ∉ ['.'].intercalate ws := by
  induction ws with
  | nil => simp
  | cons w ws ih =>
    have hw := h w List.mem_cons_self
    have hrest := ih fun w' hw' => h w' (List.mem_cons_of_mem w hw')
    cases ws with
    | nil => simpa using hw
    | cons w' ws =>
      simp only [List.intercalate_cons_cons, List.append_assoc, List.mem_append,
        List.mem_singleton]
      rintro (hmem | hmem | hmem)
      · exact hw hmem
      · exact hdot hmem
      · exact hrest hmem

/-- A name has no character but those of its words and the dots. -/
theorem notMem_name {name : Text} (h : isName name = true) {c : Char}
    (hc : isIdentPart c = false) (hdot : c ≠ '.') : c ∉ name := by
  have hjoin : ['.'].intercalate (name.splitOn '.') = name := List.intercalate_splitOn '.'
  rw [← hjoin]
  apply notMem_intercalate hdot
  unfold isName at h
  cases hsplit : name.splitOn '.' with
  | nil => simp
  | cons first members =>
    rw [hsplit] at h
    simp only [isIdent, Bool.and_eq_true, List.all_eq_true] at h
    intro w hw
    rcases List.mem_cons.mp hw with rfl | hw
    · exact notMem_word h.1.1 hc
    · exact notMem_word (h.2 w hw) hc

mutual

def exprWellFormed : Expression → Bool
  | .numberLit value => isNumber value
  | .stringLit value => value.all (· ≠ '\'')
  | .boolLit _ => true
  | .identExpr name => isName name
  | .binaryExpr left _ right => exprWellFormed left && exprWellFormed right
  | .unaryExpr _ operand => exprWellFormed operand
  | .callExpr name args => isName name && argsWellFormed args
  | .memberExpr object member => exprWellFormed object && isWord member
  | .timeLit raw => raw.all isIdentPart

def argsWellFormed : List Expression → Bool
  | [] => true
  | e :: es => exprWellFormed e && argsWellFormed es

end

theorem mem_wellFormed {args : List Expression} (h : argsWellFormed args = true) :
    ∀ e ∈ args, exprWellFormed e = true := by
  induction args with
  | nil => simp
  | cons e args ih =>
    rw [argsWellFormed, Bool.and_eq_true] at h
    simpa [h.1] using ih h.2

mutual

def stmtWellFormed : Statement → Bool
  | .assignStmt target value => isName target && exprWellFormed value
  | .ifStmt condition thenBody elsIfs elseBody =>
    exprWellFormed condition && blockWellFormed thenBody && elsIfsWellFormed elsIfs &&
      blockWellFormed elseBody
  | .forStmt var start stop step body =>
    isIdent var && exprWellFormed start && exprWellFormed stop && step.all exprWellFormed &&
      blockWellFormed body
  | .whileStmt condition body => exprWellFormed condition && blockWellFormed body
  | .repeatStmt body condition => blockWellFormed body && exprWellFormed condition
  | .caseStmt expression cases elseBody =>
    exprWellFormed expression && clausesWellFormed cases && blockWellFormed elseBody
  | .callStmt name args => isName name && argsWellFormed args
  | .returnStmt => true

def blockWellFormed : List Statement → Bool
  | [] => true
  | s :: body => stmtWellFormed s && blockWellFormed body

def elsIfsWellFormed : List ElsIfClause → Bool
  | [] => true
  | .mk condition body :: clauses =>
    exprWellFormed condition && blockWellFormed body && elsIfsWellFormed clauses

/-- A clause of a CASE has at least one value. -/
def clausesWellFormed : List CaseClause → Bool
  | [] => true
  | .mk values body :: clauses =>
    !values.isEmpty && argsWellFormed values && blockWellFormed body && clausesWellFormed clauses

end

def declWellFormed [LetterCase] (decl : VarDecl) : Bool :=
  isIdent decl.name && isWord decl.datatype && LetterCase.upper decl.datatype == decl.datatype &&
    decl.initial.all exprWellFormed

def wellFormed [LetterCase] (p : Program) : Bool :=
  isWord p.name && p.varBlocks.all (fun block => block.vars.all declWellFormed) &&
    blockWellFormed p.statements

/-! ## Reading a rendered text -/

/-- The lexer goes on behind the blanks with one token. -/
theorem lexFrom_of_skip {line line' : Nat} {s s' : Text} {ch : Char}
    (h : skipWhitespaceAndComments line s = (line', ch :: s')) :
    lexFrom line s = (lexToken line' ch s').1.toList ++ lexFrom line' (lexToken line' ch s').2 := by
  rw [lexFrom]
  split
  · rename_i hskip
    rw [h] at hskip
    cases hskip
  · rename_i hskip
    rw [h] at hskip
    cases hskip
    rfl

theorem lexFrom_nil (line : Nat) : lexFrom line [] = [⟨.eof, [], line⟩] := by
  have h : skipWhitespaceAndComments line [] = (line, []) := by
    unfold skipWhitespaceAndComments
    rfl
  rw [lexFrom]
  split <;> simp_all

theorem lexFrom_blank (line : Nat) (s : Text) : lexFrom line (' ' :: s) = lexFrom line s := by
  have h : skipWhitespaceAndComments line (' ' :: s) = skipWhitespaceAndComments line s := by
    rw [skipWhitespaceAndComments]
    simp
  rw [lexFrom, lexFrom]
  split <;> split <;> simp_all

/-- A text that starts with a token, not with a blank or a comment. -/
def startsToken (ch : Char) (s : Text) : Prop :=
  ch ∉ [' ', '\t', '\r', '\n'] ∧ (ch = '(' → s.head? ≠ some '*') ∧ (ch = '/' → s.head? ≠ some '/')

/-- At the start of a token nothing is skipped. -/
theorem skip_startsToken {ch : Char} {s : Text} (line : Nat) (h : startsToken ch s) :
    skipWhitespaceAndComments line (ch :: s) = (line, ch :: s) := by
  obtain ⟨hblank, hblock, hline⟩ := h
  simp only [List.mem_cons, List.not_mem_nil, or_false, not_or] at hblank
  obtain ⟨h₁, h₂, h₃, h₄⟩ := hblank
  rw [skipWhitespaceAndComments]
  simp only [h₁, h₂, h₃, h₄, or_self, if_false]
  rw [if_neg (fun hb => hblock hb.1 hb.2), if_neg (fun hl => hline hl.1 hl.2)]

theorem lexFrom_token {line : Nat} {ch : Char} {s rest : Text} {tok : Token}
    (h : startsToken ch s) (htok : lexToken line ch s = (some tok, ' ' :: rest)) :
    lexFrom line (ch :: s) = tok :: lexFrom line rest := by
  rw [lexFrom_of_skip (skip_startsToken line h), htok, lexFrom_blank]
  rfl

/-- The first characters of words, numbers and strings. -/
def isPlainStart (ch : Char) : Bool := isDigit ch || isIdentStart ch || ch = '\''

/-- A letter, a digit or a quote starts a token. -/
theorem startsToken_of_plain {ch : Char} (h : isPlainStart ch = true) (s : Text) :
    startsToken ch s := by
  have hnot : ∀ c ∈ [' ', '\t', '\r', '\n', '(', '/'], ch ≠ c := by
    rintro c hc rfl
    have hall : [' ', '\t', '\r', '\n', '(', '/'].all (fun c => !isPlainStart c) = true := by decide
    have := List.all_eq_true.mp hall ch hc
    simp [h] at this
  simp only [List.mem_cons, List.not_mem_nil, or_false, forall_eq_or_imp, forall_eq] at hnot
  obtain ⟨h₁, h₂, h₃, h₄, h₅, h₆⟩ := hnot
  exact ⟨by simp [h₁, h₂, h₃, h₄], fun h => absurd h h₅, fun h => absurd h h₆⟩

theorem lookup_symbols_of_plain {ch : Char} (h : isPlainStart ch = true) :
    (∀ next, twoByteSymbols.lookup (ch, next) = none) ∧ symbols.lookup ch = none := by
  have htwo : twoByteSymbols.all (fun p => !isPlainStart p.1.1) = true := by decide
  have hone : symbols.all (fun p => !isPlainStart p.1) = true := by decide
  constructor
  · intro next
    rw [List.lookup_eq_none_iff]
    rintro ⟨⟨c, d⟩, type⟩ hp
    have hc := List.all_eq_true.mp htwo _ hp
    simp only [bne_iff_ne, ne_eq, Prod.mk.injEq, not_and]
    rintro rfl
    simp [h] at hc
  · rw [List.lookup_eq_none_iff]
    rintro ⟨c, type⟩ hp
    have hc := List.all_eq_true.mp hone _ hp
    simp only [bne_iff_ne]
    rintro rfl
    simp [h] at hc

theorem isDigit_of_isIdentStart {ch : Char} (h : isIdentStart ch = true) : isDigit ch = false := by
  have hle : ∀ a b : Char, a ≤ b ↔ a.toNat ≤ b.toNat := fun a b => Iff.rfl
  have heq : ∀ a b : Char, a = b ↔ a.toNat = b.toNat := fun a b =>
    ⟨fun h => h ▸ rfl, fun h => Char.toNat_inj.mp h⟩
  simp only [isIdentStart, isLetter, isDigit, hle, heq, Bool.or_eq_true, Bool.and_eq_true,
    decide_eq_true_eq, Bool.and_eq_false_iff, decide_eq_false_iff_not] at h ⊢
  simp at h ⊢
  omega

/-- The text does not go on with a character of the given kind. -/
def Stops (p : Char → Bool) (rest : Text) : Prop := ∀ c ∈ rest.head?, p c = false

theorem stops_cons {p : Char → Bool} {c : Char} (h : p c = false) (s : Text) : Stops p (c :: s) := by
  simpa [Stops] using h

theorem Stops.takeWhile {p : Char → Bool} {rest : Text} (h : Stops p rest) :
    rest.takeWhile p = [] ∧ rest.dropWhile p = rest := by
  cases rest with
  | nil => simp
  | cons c rest =>
    have hc : p c = false := h c rfl
    simp [hc]

theorem Stops.append {p : Char → Bool} {w rest : Text} (h : Stops p rest) (hw : w.all p = true) :
    (w ++ rest).takeWhile p = w ∧ (w ++ rest).dropWhile p = rest := by
  have hall : ∀ c ∈ w, p c = true := by simpa using hw
  rw [List.takeWhile_append_of_pos hall, List.dropWhile_append_of_pos hall, h.takeWhile.1,
    h.takeWhile.2]
  simp

theorem lexFrom_word {w : Text} (h : isWord w = true) (rest : Text) :
    lexFrom 1 (w ++ ' ' :: rest) = word w :: lexFrom 1 rest := by
  cases w with
  | nil => cases h
  | cons ch w =>
    simp only [isWord, Bool.and_eq_true] at h
    obtain ⟨hstart, hpart⟩ := h
    have hplain : isPlainStart ch = true := by simp [isPlainStart, hstart]
    have hall : (ch :: w).all isIdentPart = true := by
      simp only [List.all_cons, isIdentPart_of_isIdentStart hstart, hpart, Bool.and_self]
    obtain ⟨htake, hdrop⟩ := (stops_cons (by decide : isIdentPart ' ' = false) rest).append hall
    apply lexFrom_token (startsToken_of_plain hplain _)
    obtain ⟨htwo, hone⟩ := lookup_symbols_of_plain hplain
    have hquote : ch ≠ '\'' := by
      rintro rfl
      revert hstart
      decide
    have hdigit := isDigit_of_isIdentStart hstart
    simp only [List.cons_append] at htake hdrop
    simp only [List.append_eq, lexToken, htwo, hone, if_neg hquote, hdigit, hstart,
      lexIdentOrKeyword, htake, hdrop]
    simp [word]

/-- The characters that go on with a number. -/
def goesOnNumber (c : Char) : Bool := isMantissa c || isExponentMark c || isSign c

theorem Stops.mono {p q : Char → Bool} {rest : Text} (h : Stops p rest)
    (hq : ∀ c, q c = true → p c = true) : Stops q rest := by
  intro c hc
  have hp := h c hc
  cases hqc : q c with
  | false => rfl
  | true => rw [hq c hqc] at hp; cases hp

theorem Stops.isDigit {rest : Text} (h : Stops goesOnNumber rest) : Stops isDigit rest :=
  h.mono fun c hc => by simp [goesOnNumber, isMantissa, hc]

theorem takeWhile_isDigit_append {s rest : Text} (h : (s.takeWhile isDigit).length = s.length)
    (hrest : Stops goesOnNumber rest) :
    ((s ++ rest).takeWhile isDigit).length = s.length := by
  rw [List.takeWhile_append, if_pos h, hrest.isDigit.takeWhile.1]
  simp

theorem exponentLength_append {s rest : Text} (h : exponentLength s = s.length)
    (hrest : Stops goesOnNumber rest) : exponentLength (s ++ rest) = s.length := by
  cases s with
  | nil =>
    cases rest with
    | nil => rfl
    | cons c rest =>
      have hc : goesOnNumber c = false := hrest c rfl
      simp only [goesOnNumber, Bool.or_eq_false_iff] at hc
      simp [exponentLength, hc.1.2]
  | cons mark s =>
    by_cases hmark : isExponentMark mark = true
    · cases s with
      | nil =>
        cases rest with
        | nil => simp [exponentLength, hmark]
        | cons c rest =>
          have hc : goesOnNumber c = false := hrest c rfl
          simp only [goesOnNumber, Bool.or_eq_false_iff] at hc
          simp [exponentLength, hmark, hc.2, hrest.isDigit.takeWhile.1]
      | cons sign digits =>
        by_cases hsign : isSign sign = true
        · simp only [exponentLength, hmark, hsign, if_true, List.length_cons] at h
          have := takeWhile_isDigit_append (s := digits) (by omega) hrest
          simp only [List.cons_append, exponentLength, hmark, hsign, if_true, List.length_cons]
          omega
        · simp only [exponentLength, hmark, hsign, if_true, Bool.false_eq_true, if_false,
            List.length_cons] at h
          have := takeWhile_isDigit_append (s := sign :: digits)
            (by simp only [List.length_cons]; omega) hrest
          simp only [List.cons_append, List.length_cons] at this
          simp only [List.cons_append, exponentLength, hmark, hsign, if_true, Bool.false_eq_true,
            if_false, List.length_cons]
          omega
    · simp [exponentLength, hmark] at h

/-- A number ends where the next character is none of it. -/
theorem numberLength_append {s rest : Text} (h : numberLength s = s.length)
    (hrest : Stops goesOnNumber rest) : numberLength (s ++ rest) = s.length := by
  have hmantissa : Stops isMantissa rest := hrest.mono fun c hc => by simp [goesOnNumber, hc]
  have hsplit : (s.takeWhile isMantissa).length + (s.dropWhile isMantissa).length = s.length := by
    rw [← List.length_append, List.takeWhile_append_dropWhile]
  have htake : (s ++ rest).takeWhile isMantissa = s.takeWhile isMantissa := by
    rw [List.takeWhile_append]
    split
    · rename_i hall
      have hself : s.takeWhile isMantissa = s :=
        (List.takeWhile_prefix _).eq_of_length hall
      simp [hself, hmantissa.takeWhile.1]
    · rfl
  have hdrop : (s ++ rest).dropWhile isMantissa = s.dropWhile isMantissa ++ rest := by
    rw [List.dropWhile_append]
    split
    · rename_i hnil
      rw [List.isEmpty_iff.mp hnil, hmantissa.takeWhile.2]
      rfl
    · rfl
  have hexponent := exponentLength_append (s := s.dropWhile isMantissa)
    (by unfold numberLength at h; omega) hrest
  rw [numberLength, htake, hdrop, hexponent, hsplit]

theorem lexFrom_number {value : Text} (h : isNumber value = true) (rest : Text) :
    lexFrom 1 (value ++ ' ' :: rest) = ⟨.number, value, 1⟩ :: lexFrom 1 rest := by
  cases value with
  | nil => cases h
  | cons ch s =>
    simp only [isNumber, Bool.and_eq_true, beq_iff_eq] at h
    obtain ⟨hdigit, hlength⟩ := h
    have hplain : isPlainStart ch = true := by simp [isPlainStart, hdigit]
    apply lexFrom_token (startsToken_of_plain hplain _)
    obtain ⟨htwo, hone⟩ := lookup_symbols_of_plain hplain
    have hquote : ch ≠ '\'' := by
      rintro rfl
      revert hdigit
      decide
    have hnumber := numberLength_append hlength
      (stops_cons (by decide : goesOnNumber ' ' = false) rest)
    simp only [List.cons_append] at hnumber
    simp only [List.append_eq, lexToken, htwo, hone, if_neg hquote, hdigit, if_true, lexNumber,
      hnumber]
    simp

theorem lexFrom_string {value : Text} (h : value.all (· ≠ '\'') = true) (rest : Text) :
    lexFrom 1 ('\'' :: (value ++ ['\''] ++ ' ' :: rest)) =
      ⟨.string, value, 1⟩ :: lexFrom 1 rest := by
  apply lexFrom_token (startsToken_of_plain (by decide) _)
  have hall : ∀ c ∈ value, decide (c ≠ '\'') = true := by simpa using h
  have htake : (value ++ '\'' :: ' ' :: rest).takeWhile (· ≠ '\'') = value := by
    rw [List.takeWhile_append_of_pos hall]
    simp
  have hdrop : (value ++ '\'' :: ' ' :: rest).dropWhile (· ≠ '\'') = '\'' :: ' ' :: rest := by
    rw [List.dropWhile_append_of_pos hall]
    simp
  obtain ⟨htwo, hone⟩ := lookup_symbols_of_plain (by decide : isPlainStart '\'' = true)
  simp only [List.append_assoc, List.singleton_append, lexToken, htwo, hone, if_true, lexString,
    htake, hdrop, List.tail_cons]

theorem lexFrom_timeLiteral {raw : Text} (h : raw.all isIdentPart = true) (rest : Text) :
    lexFrom 1 ('T' :: '#' :: (raw ++ ' ' :: rest)) = ⟨.timeLiteral, raw, 1⟩ :: lexFrom 1 rest := by
  apply lexFrom_token (startsToken_of_plain (by decide) _)
  obtain ⟨htake, hdrop⟩ := (stops_cons (by decide : isIdentPart ' ' = false) rest).append h
  obtain ⟨htwo, hone⟩ := lookup_symbols_of_plain (by decide : isPlainStart 'T' = true)
  have hT : ('T' :: '#' :: (raw ++ ' ' :: rest)).takeWhile isIdentPart = ['T'] := rfl
  have hrest : ('T' :: '#' :: (raw ++ ' ' :: rest)).dropWhile isIdentPart =
      '#' :: (raw ++ ' ' :: rest) := rfl
  have hdigit : isDigit 'T' = false := rfl
  have hstart : isIdentStart 'T' = true := rfl
  simp [lexToken, htwo, hone, hdigit, hstart, lexIdentOrKeyword, hT, hrest, htake, hdrop, toUpper]

/-- The tokens of which a rendering consists. -/
inductive Lexical : Token → Prop where
  | fixed {type : TokenType} (h : spelling type ≠ []) : Lexical (fixed type)
  | word {w : Text} (h : isWord w = true) : Lexical (word w)
  | number {value : Text} (h : isNumber value = true) : Lexical ⟨.number, value, 1⟩
  | string {value : Text} (h : value.all (· ≠ '\'') = true) : Lexical ⟨.string, value, 1⟩
  | timeLiteral {raw : Text} (h : raw.all isIdentPart = true) : Lexical ⟨.timeLiteral, raw, 1⟩

/-- A word is neither a text nor a duration. -/
theorem wordType_ne_string (w : Text) : wordType w ≠ .string ∧ wordType w ≠ .timeLiteral := by
  unfold wordType
  cases h : keywords.lookup (toUpper w) with
  | none => exact ⟨by decide, by decide⟩
  | some type =>
    have hall : keywords.all (fun k => k.2 ≠ .string && k.2 ≠ .timeLiteral) = true := by decide
    obtain ⟨l₁, l₂, hl, -⟩ := List.lookup_eq_some_iff.mp h
    have hmem : (toUpper w, type) ∈ keywords := by simp [hl]
    simpa using List.all_eq_true.mp hall _ hmem

theorem lexFrom_fixed {type : TokenType} (h : spelling type ≠ []) (rest : Text) :
    lexFrom 1 (text (fixed type) ++ ' ' :: rest) = fixed type :: lexFrom 1 rest := by
  cases type <;> first
    | exact absurd rfl h
    | exact lexFrom_word (by decide) rest
    | exact lexFrom_token ⟨by decide, by simp, by simp⟩ rfl

/-- The text of a token is read as this token. -/
theorem lexFrom_lexical {tok : Token} (h : Lexical tok) (rest : Text) :
    lexFrom 1 (text tok ++ ' ' :: rest) = tok :: lexFrom 1 rest := by
  cases h with
  | fixed h => exact lexFrom_fixed h rest
  | @word w h =>
    have htext : text (word w) = w := by
      obtain ⟨hs, ht⟩ := wordType_ne_string w
      unfold text
      split <;> simp_all [word]
    rw [htext, lexFrom_word h]
  | number h => exact lexFrom_number h rest
  | string h => exact lexFrom_string h rest
  | timeLiteral h => exact lexFrom_timeLiteral h rest

def AllLexical (toks : List Token) : Prop := ∀ tok ∈ toks, Lexical tok

@[simp] theorem allLexical_nil : AllLexical [] := by simp [AllLexical]

@[simp] theorem allLexical_cons {tok : Token} {toks : List Token} :
    AllLexical (tok :: toks) ↔ Lexical tok ∧ AllLexical toks := by simp [AllLexical]

@[simp] theorem allLexical_append {toks toks' : List Token} :
    AllLexical (toks ++ toks') ↔ AllLexical toks ∧ AllLexical toks' :=
  List.forall_mem_append

theorem allLexical_flatMap {α : Type} {f : α → List Token} {as : List α}
    (h : ∀ a ∈ as, AllLexical (f a)) : AllLexical (as.flatMap f) := by
  intro tok htok
  obtain ⟨a, ha, htok⟩ := List.mem_flatMap.mp htok
  exact h a ha tok htok

theorem lex_renderTokens {toks : List Token} (h : AllLexical toks) :
    lex (renderTokens toks) = toks ++ [⟨.eof, [], 1⟩] := by
  unfold lex
  induction toks with
  | nil => exact lexFrom_nil 1
  | cons tok toks ih =>
    have hrender : renderTokens (tok :: toks) = text tok ++ ' ' :: renderTokens toks := by
      simp [renderTokens]
    rw [allLexical_cons] at h
    rw [hrender, lexFrom_lexical h.1, ih h.2]
    rfl

/-! ## The tokens of a well-formed program are lexical -/

theorem lexical_members {members : List Text} (h : members.all isWord = true) :
    AllLexical (memberTokens members) := by
  induction members with
  | nil => exact allLexical_nil
  | cons member members ih =>
    simp only [List.all_cons, Bool.and_eq_true] at h
    simp only [memberTokens, allLexical_cons]
    exact ⟨.fixed (by decide), .word h.1, ih h.2⟩

theorem lexical_name {name : Text} (h : isName name = true) : AllLexical (nameTokens name) := by
  unfold isName at h
  unfold nameTokens
  split at h
  · cases h
  · simp only [isIdent, Bool.and_eq_true] at h
    simp only [allLexical_cons]
    exact ⟨.word h.1.1, lexical_members h.2⟩

theorem lexical_binary (op : BinaryOp) : Lexical (fixed (binaryType op)) :=
  .fixed (by cases op <;> decide)

theorem lexical_unary (op : UnaryOp) : Lexical (fixed (unaryType op)) :=
  .fixed (by cases op <;> decide)

mutual

theorem lexical_expr : ∀ e : Expression, exprWellFormed e = true → AllLexical (exprTokens e)
  | .numberLit value, h => by
    simpa [exprTokens] using Lexical.number h
  | .stringLit value, h => by
    simpa [exprTokens] using Lexical.string h
  | .boolLit value, h => by
    cases value <;> simpa [exprTokens] using Lexical.fixed (by decide)
  | .identExpr name, h => lexical_name h
  | .binaryExpr left op right, h => by
    simp only [exprWellFormed, Bool.and_eq_true] at h
    simp (disch := decide) [exprTokens, Lexical.fixed, lexical_binary, lexical_expr left h.1,
      lexical_expr right h.2]
  | .unaryExpr op operand, h => by
    simp (disch := decide) [exprTokens, Lexical.fixed, lexical_unary, lexical_expr operand h]
  | .callExpr name args, h => by
    simp only [exprWellFormed, Bool.and_eq_true] at h
    simp (disch := decide) [exprTokens, Lexical.fixed, lexical_name h.1, lexical_args args h.2]
  | .memberExpr object member, h => by
    simp only [exprWellFormed, Bool.and_eq_true] at h
    simp (disch := decide) [exprTokens, Lexical.fixed, lexical_expr object h.1, Lexical.word h.2]
  | .timeLit raw, h => by
    simpa [exprTokens] using Lexical.timeLiteral h

theorem lexical_args : ∀ args : List Expression, argsWellFormed args = true →
    AllLexical (argTokens args)
  | [], _ => by simp [argTokens]
  | [e], h => by
    simp only [argsWellFormed, Bool.and_true] at h
    simpa only [argTokens] using lexical_expr e h
  | e :: e' :: es, h => by
    rw [argsWellFormed, Bool.and_eq_true] at h
    simp (disch := decide) [argTokens, Lexical.fixed, lexical_expr e h.1,
      lexical_args (e' :: es) h.2]

end

theorem lexical_step {step : Option Expression} (h : step.all exprWellFormed = true) :
    AllLexical (stepTokens step) := by
  cases step with
  | none => exact allLexical_nil
  | some e => simp (disch := decide) [stepTokens, Lexical.fixed, lexical_expr e h]

mutual

theorem lexical_stmt : ∀ s : Statement, stmtWellFormed s = true → AllLexical (stmtTokens s)
  | .assignStmt target value, h => by
    simp only [stmtWellFormed, Bool.and_eq_true] at h
    simp (disch := decide) [stmtTokens, Lexical.fixed, lexical_name h.1, lexical_expr value h.2]
  | .ifStmt condition thenBody elsIfs elseBody, h => by
    simp only [stmtWellFormed, Bool.and_eq_true] at h
    obtain ⟨⟨⟨hcondition, hthen⟩, helsIfs⟩, helse⟩ := h
    simp (disch := decide) [stmtTokens, Lexical.fixed, lexical_expr condition hcondition,
      lexical_block thenBody hthen, lexical_elsIfs elsIfs helsIfs, lexical_else elseBody helse]
  | .forStmt var start stop step body, h => by
    simp only [stmtWellFormed, isIdent, Bool.and_eq_true] at h
    obtain ⟨⟨⟨⟨⟨hvar, -⟩, hstart⟩, hstop⟩, hstep⟩, hbody⟩ := h
    simp (disch := decide) [stmtTokens, Lexical.fixed, Lexical.word hvar,
      lexical_expr start hstart, lexical_expr stop hstop, lexical_step hstep,
      lexical_block body hbody]
  | .whileStmt condition body, h => by
    simp only [stmtWellFormed, Bool.and_eq_true] at h
    simp (disch := decide) [stmtTokens, Lexical.fixed, lexical_expr condition h.1,
      lexical_block body h.2]
  | .repeatStmt body condition, h => by
    simp only [stmtWellFormed, Bool.and_eq_true] at h
    simp (disch := decide) [stmtTokens, Lexical.fixed, lexical_block body h.1,
      lexical_expr condition h.2]
  | .caseStmt expression cases elseBody, h => by
    simp only [stmtWellFormed, Bool.and_eq_true] at h
    obtain ⟨⟨hexpression, hcases⟩, helse⟩ := h
    simp (disch := decide) [stmtTokens, Lexical.fixed, lexical_expr expression hexpression,
      lexical_clauses cases hcases, lexical_else elseBody helse]
  | .callStmt name args, h => by
    simp only [stmtWellFormed, Bool.and_eq_true] at h
    simp (disch := decide) [stmtTokens, Lexical.fixed, lexical_name h.1, lexical_args args h.2]
  | .returnStmt, _ => by
    simp (disch := decide) [stmtTokens, Lexical.fixed]

theorem lexical_block : ∀ body : List Statement, blockWellFormed body = true →
    AllLexical (blockTokens body)
  | [], _ => by simp [blockTokens]
  | s :: body, h => by
    simp only [blockWellFormed, Bool.and_eq_true] at h
    simp [blockTokens, lexical_stmt s h.1, lexical_block body h.2]

theorem lexical_else : ∀ body : List Statement, blockWellFormed body = true →
    AllLexical (elseTokens body)
  | [], _ => by simp [elseTokens]
  | s :: body, h => by
    simp only [blockWellFormed, Bool.and_eq_true] at h
    simp (disch := decide) [elseTokens, Lexical.fixed, lexical_stmt s h.1, lexical_block body h.2]

theorem lexical_elsIfs : ∀ clauses : List ElsIfClause, elsIfsWellFormed clauses = true →
    AllLexical (elsIfTokens clauses)
  | [], _ => by simp [elsIfTokens]
  | .mk condition body :: clauses, h => by
    simp only [elsIfsWellFormed, Bool.and_eq_true] at h
    simp (disch := decide) [elsIfTokens, Lexical.fixed, lexical_expr condition h.1.1,
      lexical_block body h.1.2, lexical_elsIfs clauses h.2]

theorem lexical_clauses : ∀ clauses : List CaseClause, clausesWellFormed clauses = true →
    AllLexical (clauseTokens clauses)
  | [], _ => by simp [clauseTokens]
  | .mk values body :: clauses, h => by
    simp only [clausesWellFormed, Bool.and_eq_true] at h
    simp (disch := decide) [clauseTokens, Lexical.fixed, lexical_args values h.1.1.2,
      lexical_block body h.1.2, lexical_clauses clauses h.2]

end

theorem lexical_decl [LetterCase] {decl : VarDecl} (h : declWellFormed decl = true) :
    AllLexical (declTokens decl) := by
  simp only [declWellFormed, isIdent, Bool.and_eq_true] at h
  obtain ⟨⟨⟨⟨hname, -⟩, hdatatype⟩, -⟩, hinitial⟩ := h
  have htokens : AllLexical (initialTokens decl.initial) := by
    cases hi : decl.initial with
    | none => exact allLexical_nil
    | some e =>
      rw [hi] at hinitial
      simp (disch := decide) [initialTokens, Lexical.fixed, lexical_expr e hinitial]
  simp (disch := decide) [declTokens, Lexical.fixed, Lexical.word hname, Lexical.word hdatatype,
    htokens]

theorem lexical_varBlock [LetterCase] {block : VarBlock}
    (h : block.vars.all declWellFormed = true) :
    AllLexical (varBlockTokens block) := by
  have hkind : Lexical (fixed (kindType block.kind)) := .fixed (by cases block.kind <;> decide)
  have hvars : AllLexical (block.vars.flatMap declTokens) :=
    allLexical_flatMap fun decl hdecl => lexical_decl (List.all_eq_true.mp h decl hdecl)
  simp (disch := decide) [varBlockTokens, Lexical.fixed, hkind, hvars]

/-- The lexer gives back the tokens of a rendered program. -/
theorem lex_render [LetterCase] {p : Program} (h : wellFormed p = true) :
    lex (render p) = programTokens p ++ [⟨.eof, [], 1⟩] := by
  simp only [wellFormed, Bool.and_eq_true] at h
  obtain ⟨⟨hname, hblocks⟩, hstatements⟩ := h
  apply lex_renderTokens
  have hvars : AllLexical (p.varBlocks.flatMap varBlockTokens) :=
    allLexical_flatMap fun block hblock =>
      lexical_varBlock (List.all_eq_true.mp hblocks block hblock)
  simp (disch := decide) [programTokens, Lexical.fixed, Lexical.word hname, hvars,
    lexical_block p.statements hstatements]

end StRender
