import Tentacle.StCodegen
import Tentacle.StRender
import Tentacle.Starlark

/-!
# Structured Text: generated expressions as Starlark reads them

The generator puts parentheses around binary expressions only. What Starlark makes of a text with a
`not` in it is therefore another tree when the `not` stands to the left of an operator that binds
tighter, and no tree when it stands to the right of one or behind a minus sign.
-/

namespace StReading
open StSyntax StRender StCodegen
open Starlark (Tree Tok Binop Words)

/-! ## The image of an expression -/

def starOp : BinaryOp → Binop
  | .plus => .add
  | .minus => .sub
  | .star => .mul
  | .slash => .div
  | .equal => .eq
  | .notEqual => .ne
  | .less => .lt
  | .lessEq => .le
  | .greater => .gt
  | .greaterEq => .ge
  | .and => .and
  | .or => .or
  | .xor => .xor
  | .mod => .mod

def digits (n : Int) : Text := Nat.toDigits 10 n.natAbs

def integerTree (n : Int) : Tree :=
  if n < 0 then .neg (.literal (digits n)) else .literal (digits n)

section

variable [GoQuote]

def getVarTree (name : Text) : Tree := .call getVarWord [.literal (quote name)]

mutual

/-- The Starlark tree that means the expression. -/
def image : Expression → Tree
  | .numberLit value => .literal value
  | .stringLit value => .literal (quote value)
  | .boolLit value => .name (boolWord value)
  | .identExpr name => getVarTree name
  | .binaryExpr left op right => .binary (image left) (starOp op) (image right)
  | .unaryExpr .not operand => .not (image operand)
  | .unaryExpr .minus operand => .neg (image operand)
  | .callExpr name args => .call name (images args)
  | .memberExpr object member => getVarTree (memberPath object member)
  | .timeLit raw => integerTree (parseTimeMs raw)

def images : List Expression → List Tree
  | [] => []
  | e :: es => image e :: images es

end

/-! ## Tokens of a generated text -/

def punct (s : String) : Tok := .punct s.toList

def opToken (op : BinaryOp) : Tok :=
  match op with
  | .and => .word "and".toList
  | .or => .word "or".toList
  | op => .punct (mapOp op)

def memberTokens : List Text → List Tok
  | [] => []
  | member :: members => punct "." :: .word member :: memberTokens members

def nameTokens (name : Text) : List Tok :=
  match name.splitOn '.' with
  | [] => []
  | first :: members => .word first :: memberTokens members

def getVarTokens (name : Text) : List Tok :=
  [.word getVarWord, punct "(", .literal (quote name), punct ")"]

def integerTokens (n : Int) : List Tok :=
  if n < 0 then [punct "-", .literal (digits n)] else [.literal (digits n)]

mutual

def tokens : Expression → List Tok
  | .numberLit value => [.literal value]
  | .stringLit value => [.literal (quote value)]
  | .boolLit value => [.word (boolWord value)]
  | .identExpr name => getVarTokens name
  | .binaryExpr left op right =>
    punct "(" :: (tokens left ++ opToken op :: (tokens right ++ [punct ")"]))
  | .unaryExpr .not operand => .word "not".toList :: tokens operand
  | .unaryExpr .minus operand => punct "-" :: tokens operand
  | .callExpr name args => nameTokens name ++ punct "(" :: (argTokens args ++ [punct ")"])
  | .memberExpr object member => getVarTokens (memberPath object member)
  | .timeLit raw => integerTokens (parseTimeMs raw)

def argTokens : List Expression → List Tok
  | [] => []
  | [e] => tokens e
  | e :: e' :: es => tokens e ++ punct "," :: argTokens (e' :: es)

end

end

/-! ## Lexing a generated text -/

theorem lex_nil : Starlark.lex [] = [] := by simp [Starlark.lex]

theorem lex_blank (s : Text) : Starlark.lex (' ' :: s) = Starlark.lex s := by
  rw [Starlark.lex, if_pos rfl]

theorem lex_cons {ch : Char} {s rest : Text} {tok : Tok} (hblank : ch ≠ ' ')
    (h : Starlark.lexToken ch s = (tok, rest)) :
    Starlark.lex (ch :: s) = tok :: Starlark.lex rest := by
  rw [Starlark.lex, if_neg hblank, h]

/-- A word ends where the next character is none of a word. -/
theorem lex_word {w rest : Text} (hw : isWord w = true) (hrest : Stops isIdentPart rest) :
    Starlark.lex (w ++ rest) = .word w :: Starlark.lex rest := by
  cases w with
  | nil => cases hw
  | cons ch w =>
    simp only [isWord, Bool.and_eq_true] at hw
    obtain ⟨htake, hdrop⟩ := hrest.append hw.2
    have hne : ∀ c, isIdentStart c = false → ch ≠ c := by
      rintro c hc rfl
      simp [hw.1] at hc
    apply lex_cons (hne ' ' (by decide))
    simp [Starlark.lexToken, hne '"' (by decide), isDigit_of_isIdentStart hw.1, hw.1, htake, hdrop]

/-- A number ends where the next character is none of a number. -/
theorem lex_number {value rest : Text} (hv : isNumber value = true)
    (hrest : Stops goesOnNumber rest) :
    Starlark.lex (value ++ rest) = .literal value :: Starlark.lex rest := by
  cases value with
  | nil => cases hv
  | cons ch s =>
    simp only [isNumber, Bool.and_eq_true, beq_iff_eq] at hv
    have hlength := numberLength_append hv.2 hrest
    have hne : ∀ c, isDigit c = false → ch ≠ c := by
      rintro c hc rfl
      simp [hv.1] at hc
    apply lex_cons (hne ' ' (by decide))
    simp only [List.cons_append] at hlength
    simp only [Starlark.lexToken, if_neg (hne '"' (by decide)), hv.1, if_true, List.append_eq,
      hlength]
    simp

/-- A text without a bare quote ends at the next one. -/
theorem stringLength_append {body : Text} (h : isEscaped body = true) (rest : Text) :
    Starlark.stringLength (body ++ '"' :: rest) = body.length + 1 := by
  fun_induction isEscaped body with
  | case1 => simp [Starlark.stringLength]
  | case2 c s ih =>
    simp only [List.cons_append, Starlark.stringLength, ih h, List.length_cons]
    omega
  | case3 => cases h
  | case4 c s h₁ h₂ ih =>
    simp only [Bool.and_eq_true, bne_iff_ne] at h
    have hc : c ≠ '\\' := by
      rintro rfl
      cases s with
      | nil => exact h₂ rfl rfl
      | cons d s => exact h₁ d s rfl rfl
    simp [Starlark.stringLength, hc, h.1, ih h.2]
    omega

theorem lex_quote [GoQuote] (s rest : Text) :
    Starlark.lex (quote s ++ rest) = .literal (quote s) :: Starlark.lex rest := by
  obtain ⟨body, hquote, hbody⟩ := GoQuote.quote_literal s
  have hlength := stringLength_append hbody rest
  have hsplit : '"' :: (body ++ '"' :: rest) = ('"' :: (body ++ ['"'])) ++ rest := by simp
  rw [hquote, ← hsplit]
  apply lex_cons (by decide)
  have htake : ('"' :: (body ++ '"' :: rest)).take (1 + (body.length + 1)) =
      '"' :: (body ++ ['"']) := by
    rw [hsplit]
    exact List.take_left' (by simp; omega)
  simp [Starlark.lexToken, hlength, htake]

/-- Brackets, commas and dots are tokens of one character. -/
theorem lex_single {c : Char} (hc : ['(', ')', ',', '.'].contains c = true) (s : Text) :
    Starlark.lex (c :: s) = .punct [c] :: Starlark.lex s := by
  have hfirst : Starlark.twoByteSymbols.all (fun e => !(['(', ')', ',', '.'].any (e.head? == some ·))) =
      true := by decide
  have htwo : Starlark.twoByteSymbols.contains (c :: s.take 1) = false := by
    by_contra h
    rw [Bool.not_eq_false, List.contains_iff_mem] at h
    have hmem := List.all_eq_true.mp hfirst _ h
    simp_all
  have hplain : [' ', '"'].contains c = false ∧ isDigit c = false ∧ isIdentStart c = false := by
    have hall : ['(', ')', ',', '.'].all (fun c => !([' ', '"'].contains c) && !isDigit c &&
      !isIdentStart c) = true := by decide
    have hmem := List.all_eq_true.mp hall c (by simpa using hc)
    simpa [and_assoc] using hmem
  have hne : c ≠ ' ' ∧ c ≠ '"' := by simpa using hplain.1
  apply lex_cons hne.1
  simp only [Starlark.lexToken, if_neg hne.2, hplain.2.1, hplain.2.2, htwo, Bool.false_eq_true,
    if_false]

theorem lex_lparen (s : Text) : Starlark.lex ('(' :: s) = punct "(" :: Starlark.lex s :=
  lex_single (by decide) s

theorem lex_rparen (s : Text) : Starlark.lex (')' :: s) = punct ")" :: Starlark.lex s :=
  lex_single (by decide) s

theorem lex_comma (s : Text) : Starlark.lex (',' :: s) = punct "," :: Starlark.lex s :=
  lex_single (by decide) s

theorem lex_dot (s : Text) : Starlark.lex ('.' :: s) = punct "." :: Starlark.lex s :=
  lex_single (by decide) s

theorem lex_op (op : BinaryOp) (s : Text) :
    Starlark.lex (mapOp op ++ ' ' :: s) = opToken op :: Starlark.lex s := by
  have hword : ∀ w, isWord w = true →
      Starlark.lex (w ++ ' ' :: s) = .word w :: Starlark.lex s := by
    intro w hw
    rw [lex_word hw (stops_cons (by decide) s), lex_blank]
  cases op with
  | and => exact hword _ (by decide)
  | or => exact hword _ (by decide)
  | _ =>
    rw [← lex_blank s]
    exact lex_cons (by decide) rfl

theorem isNumber_digits (n : Int) : isNumber (digits n) = true := by
  have hall : (digits n).all isDigit = true := by
    rw [List.all_eq_true]
    intro c hc
    exact Nat.isDigit_of_mem_toDigits (by omega) (by omega) hc
  have hmantissa : ∀ c ∈ digits n, isMantissa c = true := by
    intro c hc
    simp [isMantissa, List.all_eq_true.mp hall c hc]
  have hlength : numberLength (digits n) = (digits n).length := by
    rw [numberLength, List.takeWhile_eq_self_iff.mpr hmantissa,
      List.dropWhile_eq_nil_iff.mpr hmantissa]
    rfl
  cases hd : digits n with
  | nil => exact absurd hd Nat.toDigits_ne_nil
  | cons c s =>
    rw [hd] at hall hlength
    simp only [List.all_cons, Bool.and_eq_true] at hall
    simp [isNumber, hall.1, hlength]

theorem digits_head (n : Int) : ∃ c s, digits n = c :: s ∧ isDigit c = true := by
  have hd := isNumber_digits n
  cases hdigits : digits n with
  | nil =>
    rw [hdigits] at hd
    cases hd
  | cons c s =>
    rw [hdigits, isNumber, Bool.and_eq_true] at hd
    exact ⟨c, s, rfl, hd.1⟩

/-- A text that goes on with no word and no number. -/
def Delimited (rest : Text) : Prop := Stops (fun c => isIdentPart c || goesOnNumber c) rest

theorem Delimited.word {rest : Text} (h : Delimited rest) : Stops isIdentPart rest :=
  h.mono fun c hc => by simp [hc]

theorem Delimited.number {rest : Text} (h : Delimited rest) : Stops goesOnNumber rest :=
  h.mono fun c hc => by simp [hc]

theorem delimited_cons {c : Char} (hc : [' ', ')', ','].contains c = true) (s : Text) :
    Delimited (c :: s) := by
  have hall : [' ', ')', ','].all (fun c => !(isIdentPart c || goesOnNumber c)) = true := by decide
  have hmem := List.all_eq_true.mp hall c (by simpa using hc)
  exact stops_cons (by simpa using hmem) s

/-- An integer is its digits, with a minus in front of a negative one. -/
theorem lex_integer (n : Int) {rest : Text} (h : Delimited rest) :
    Starlark.lex (itoa n ++ rest) = integerTokens n ++ Starlark.lex rest := by
  have hnumber := lex_number (isNumber_digits n) h.number
  unfold itoa integerTokens
  split
  · obtain ⟨c, s, hdigits, hc⟩ := digits_head n
    have hminus : Starlark.lex ('-' :: (digits n ++ rest)) =
        punct "-" :: Starlark.lex (digits n ++ rest) := by
      apply lex_cons (by decide)
      have hne : c ≠ '=' := by
        rintro rfl
        revert hc
        decide
      rw [hdigits]
      simp [Starlark.lexToken, isDigit, isIdentStart, isLetter, Starlark.twoByteSymbols, hne, punct]
    exact hminus.trans (by rw [hnumber]; rfl)
  · exact hnumber

/-- A name is read as its words, with dots between them. -/
theorem lex_members {members : List Text} (h : members.all isWord = true) {first rest : Text}
    (hfirst : isWord first = true) (hrest : Stops isIdentPart rest) :
    Starlark.lex (['.'].intercalate (first :: members) ++ rest) =
      .word first :: (memberTokens members ++ Starlark.lex rest) := by
  induction members generalizing first with
  | nil => simpa [memberTokens] using lex_word hfirst hrest
  | cons member members ih =>
    simp only [List.all_cons, Bool.and_eq_true] at h
    have hsplit : ['.'].intercalate (first :: member :: members) ++ rest =
        first ++ '.' :: (['.'].intercalate (member :: members) ++ rest) := by
      simp [List.intercalate]
    rw [hsplit, lex_word hfirst (stops_cons rfl _), lex_dot, ih h.2 h.1]
    rfl

theorem lex_name {name rest : Text} (h : isName name = true) (hrest : Stops isIdentPart rest) :
    Starlark.lex (name ++ rest) = nameTokens name ++ Starlark.lex rest := by
  have hjoin : ['.'].intercalate (name.splitOn '.') = name := List.intercalate_splitOn '.'
  unfold isName at h
  split at h
  · cases h
  · rename_i first members hsplit
    simp only [isIdent, Bool.and_eq_true] at h
    have htokens : nameTokens name = .word first :: memberTokens members := by
      simp [nameTokens, hsplit]
    have hlex := lex_members h.2 h.1.1 hrest
    rw [← hsplit, hjoin] at hlex
    rw [hlex, htokens]
    rfl

theorem lex_unary (op : UnaryOp) (s : Text) : Starlark.lex (mapUnaryOp op ++ ' ' :: s) =
    (match op with | .not => .word "not".toList | .minus => punct "-") :: Starlark.lex s := by
  cases op with
  | not =>
    have hword : isWord (mapUnaryOp .not) = true := by decide
    rw [lex_word hword (stops_cons rfl s), lex_blank]
    rfl
  | minus =>
    rw [← lex_blank s]
    exact lex_cons (by decide) rfl

section

variable [GoQuote]

theorem lex_getVar (name rest : Text) :
    Starlark.lex (getVar name ++ rest) = getVarTokens name ++ Starlark.lex rest := by
  have hword : isWord getVarWord = true := by decide
  have hsplit : getVar name ++ rest = getVarWord ++ '(' :: (quote name ++ ')' :: rest) := by
    simp only [getVar, List.append_assoc, List.cons_append, List.nil_append]
  rw [hsplit, lex_word hword (stops_cons rfl _), lex_lparen, lex_quote, lex_rparen]
  rfl

mutual

/-- The text of an expression is read as its tokens. -/
theorem lex_expr : ∀ e : Expression, exprWellFormed e = true → ∀ rest, Delimited rest →
    Starlark.lex (expr e ++ rest) = tokens e ++ Starlark.lex rest
  | .numberLit value, h, rest, hrest => lex_number h hrest.number
  | .stringLit value, _, rest, _ => lex_quote value rest
  | .boolLit value, _, rest, hrest => by
    have hword : isWord (boolWord value) = true := by cases value <;> decide
    exact lex_word hword hrest.word
  | .identExpr name, _, rest, _ => lex_getVar name rest
  | .binaryExpr left op right, h, rest, _ => by
    simp only [exprWellFormed, Bool.and_eq_true] at h
    have hl := lex_expr left h.1 (' ' :: (mapOp op ++ ' ' :: (expr right ++ ')' :: rest)))
      (delimited_cons (by decide) _)
    have hr := lex_expr right h.2 (')' :: rest) (delimited_cons (by decide) _)
    simp only [expr, tokens, List.cons_append, List.append_assoc, List.nil_append]
    rw [lex_lparen, hl, lex_blank, lex_op, hr, lex_rparen]
  | .unaryExpr op operand, h, rest, hrest => by
    have hx := lex_expr operand h rest hrest
    cases op with
    | not =>
      simp only [expr, tokens, List.cons_append, List.append_assoc]
      rw [lex_unary, hx]
    | minus =>
      simp only [expr, tokens, List.cons_append, List.append_assoc]
      rw [lex_unary, hx]
  | .callExpr name args, h, rest, _ => by
    simp only [exprWellFormed, Bool.and_eq_true] at h
    have ha := lex_args args h.2 (')' :: rest) (delimited_cons (by decide) _)
    simp only [expr, tokens, List.cons_append, List.append_assoc, List.nil_append]
    rw [lex_name h.1 (stops_cons rfl _), lex_lparen, ha, lex_rparen]
  | .memberExpr object member, _, rest, _ => lex_getVar _ rest
  | .timeLit raw, _, rest, hrest => lex_integer _ hrest

theorem lex_args : ∀ args : List Expression, argsWellFormed args = true → ∀ rest, Delimited rest →
    Starlark.lex (joinComma (exprs args) ++ rest) = argTokens args ++ Starlark.lex rest
  | [], _, rest, _ => rfl
  | [e], h, rest, hrest => by
    simp only [argsWellFormed, Bool.and_true] at h
    exact lex_expr e h rest hrest
  | e :: e' :: es, h, rest, hrest => by
    rw [argsWellFormed, Bool.and_eq_true] at h
    have he := lex_expr e h.1 (',' :: ' ' :: (joinComma (exprs (e' :: es)) ++ rest))
      (delimited_cons (by decide) _)
    have hes := lex_args (e' :: es) h.2 rest hrest
    have hjoin : joinComma (exprs (e :: e' :: es)) ++ rest =
        expr e ++ ',' :: ' ' :: (joinComma (exprs (e' :: es)) ++ rest) := by
      simp only [exprs, joinComma, List.append_assoc, List.cons_append]
    rw [hjoin, he, lex_comma, lex_blank, hes]
    simp only [argTokens, List.append_assoc, List.cons_append]

end

theorem lex_generated {e : Expression} (h : exprWellFormed e = true) :
    Starlark.lex (expr e) = tokens e := by
  have hlex := lex_expr e h [] (fun c hc => by cases hc)
  simpa [lex_nil] using hlex

end

/-! ## What Starlark reads -/

def isNot : Expression → Bool
  | .unaryExpr .not _ => true
  | _ => false

/-- The operators that bind looser than `not`. -/
def isLogic : BinaryOp → Bool
  | .and => true
  | .or => true
  | _ => false

/-- Every `not` before the left operand takes the whole comparison or sum. -/
def hoist (op : BinaryOp) (right : Tree) : Expression → Tree → Tree
  | .unaryExpr .not y, .not x => .not (hoist op right y x)
  | _, left => .binary left (starOp op) right

/-- Nothing is hoisted out of an operand that is no negation. -/
theorem hoist_operand {op : BinaryOp} {left : Expression} (h : isNot left = false) (l r : Tree) :
    hoist op r left l = .binary l (starOp op) r := by
  cases left with
  | unaryExpr op y =>
    cases op with
    | not => cases h
    | minus => rfl
  | _ => rfl

/-- Hoisting keeps the size and loses no weight. -/
theorem hoist_size (op : BinaryOp) (r : Tree) (left : Expression) (l : Tree) :
    (hoist op r left l).size = l.size + r.size ∧
      l.weight + r.weight ≤ (hoist op r left l).weight := by
  fun_induction hoist op r left l with
  | case1 y x ih =>
    simp only [Tree.size, Tree.weight]
    omega
  | case2 left l h => simp [Tree.size, Tree.weight]

section
open RecursiveDescent Starlark

def reply (t : Option Tree) (rest : List Tok) : Reply Tok Unit Tree :=
  match t with
  | some t => .ok t rest
  | none => .error ()

@[simp] theorem reply_some (t : Tree) (rest : List Tok) : reply (some t) rest = .ok t rest := rfl

@[simp] theorem reply_none (rest : List Tok) : reply none rest = .error () := rfl

/-- A token that does not go on with an operand. -/
def endsOperand (tok : Tok) : Bool := !isPunct "(" tok && !isPunct "." tok

def arithmeticOps : List (Tok → Option Binop) := [mulOp, addOp, xorOp]

/-- A token that does not go on with a comparison. -/
def endsComparison (tok : Tok) : Bool :=
  endsOperand tok && arithmeticOps.all (fun op => op tok = none) && decide (comparisonOp tok = none)

def isComparison : BinaryOp → Bool
  | .equal | .notEqual | .less | .lessEq | .greater | .greaterEq => true
  | _ => false

/-- Each operator that binds tighter than a comparison stands in one level. -/
theorem arithmeticOps_split {op : BinaryOp} (hl : isLogic op = false) (hc : isComparison op = false) :
    ∃ tighter own looser, arithmeticOps = tighter ++ own :: looser ∧
      (∀ op' ∈ tighter, op' (opToken op) = none) ∧ own (opToken op) = some (starOp op) := by
  cases op with
  | star | slash | mod => exact ⟨[], _, [addOp, xorOp], rfl, by simp, rfl⟩
  | plus | minus => exact ⟨[mulOp], _, [xorOp], rfl, by simp; rfl, rfl⟩
  | xor => exact ⟨[mulOp, addOp], _, [], rfl, by simp; exact ⟨rfl, rfl⟩, rfl⟩
  | and | or => cases hl
  | _ => cases hc

theorem comparisonOp_opToken {op : BinaryOp} (hc : isComparison op = true) :
    (∀ op' ∈ arithmeticOps, op' (opToken op) = none) ∧
      comparisonOp (opToken op) = some (starOp op) := by
  cases op with
  | equal | notEqual | less | lessEq | greater | greaterEq =>
    exact ⟨by simp [arithmeticOps]; exact ⟨rfl, rfl, rfl⟩, rfl⟩
  | _ => cases hc

theorem head_nameTokens {name : Text} (h : isName name = true) :
    ∃ first toks, nameTokens name = .word first :: toks ∧ first ≠ "not".toList := by
  unfold isName at h
  split at h
  · cases h
  · rename_i first members hsplit
    refine ⟨first, memberTokens members, by simp [nameTokens, hsplit], ?_⟩
    rintro rfl
    simp only [isIdent, Bool.and_eq_true, beq_iff_eq] at h
    exact absurd h.1.2 (by decide)

theorem expect_rparen (ts : List Tok) : expect ")" (punct ")" :: ts) = .ok () ts := rfl

theorem endsOperand_opToken (op : BinaryOp) : endsOperand (opToken op) = true := by
  cases op <;> rfl

end

section
open RecursiveDescent Starlark

variable [Words]

theorem primary_word (test : P Tree) (w : Text) (ts : List Tok) :
    primary test (.word w :: ts) = nameOrCall test (.word w :: ts) := rfl

theorem primary_lparen (test : P Tree) (ts : List Tok) :
    primary test (punct "(" :: ts) = parenthesised test (punct "(" :: ts) := rfl

theorem primary_minus (test : P Tree) (ts : List Tok) :
    primary test (punct "-" :: ts) = (primary test ts).bind fun x rest => .ok (.neg x) rest := rfl

theorem name_reserved {w : Text} (h : Words.reserved w = true) (ts : List Tok) :
    name (.word w :: ts) = .error () := by
  simp [name, h, fail]

theorem name_allowed {w : Text} (h : Words.reserved w = false) (ts : List Tok) :
    name (.word w :: ts) = .ok w ts := by
  simp [name, h]

theorem primary_not (test : P Tree) (ts : List Tok) :
    primary test (.word "not".toList :: ts) = .error () := by
  rw [primary_word, nameOrCall, dottedName]
  simp only [bind_apply, name_reserved Words.reserved_not, Reply.error_bind]

theorem arithmetic_single {test : P Tree} {ts rest : List Tok} {t : Option Tree}
    (h : primary test ts = reply t rest) (hops : ∀ op ∈ arithmeticOps, op (head rest) = none) :
    arithmetic test ts = reply t rest := by
  cases t with
  | none => exact levels_error h
  | some t => exact levels_single h hops

theorem comparison_single {test : P Tree} {ts rest : List Tok} {t : Option Tree}
    (h : arithmetic test ts = reply t rest) (hop : comparisonOp (head rest) = none) :
    comparison test ts = reply t rest := by
  cases t with
  | none => simp [comparison, h]
  | some t => simp [comparison, h, hop]

theorem negation_eq {test : P Tree} {ts : List Tok} (h : isWord "not" (head ts) = false) :
    negation test ts = comparison test ts := by
  simp [negation, recursive, unroll, h]

theorem negation_not (test : P Tree) (ts : List Tok) :
    negation test (.word "not".toList :: ts) =
      (negation test ts).bind fun x rest => .ok (.not x) rest := by
  unfold negation recursive
  rw [List.length_cons, unroll]
  rfl

/-- The members of a name are read if none of them is reserved. -/
theorem read_member_tokens (members : List Text) {rest : List Tok}
    (hrest : isPunct "." (head rest) = false) :
    many (isPunct ".") member (memberTokens members ++ rest) =
      if members.all (fun w => !Words.reserved w) then .ok members rest else .error () := by
  induction members with
  | nil => exact many_stop hrest
  | cons w members ih =>
    have hgo : isPunct "." (punct ".") = true := rfl
    simp only [memberTokens, List.cons_append, List.all_cons]
    by_cases hw : Words.reserved w = true
    · have hitem : member (punct "." :: .word w :: (memberTokens members ++ rest)) = .error () := by
        simp [member, name_reserved hw]
      rw [many_error hgo hitem]
      simp [hw]
    · simp only [Bool.not_eq_true] at hw
      have hitem : member (punct "." :: .word w :: (memberTokens members ++ rest)) =
          .ok (some w) (memberTokens members ++ rest) := by
        simp [member, name_allowed hw]
      have hne : many (isPunct ".") member (memberTokens members ++ rest) ≠ .exhausted := by
        rw [ih]
        split <;> simp
      have hlt : (memberTokens members ++ rest).length <
          (memberTokens (w :: members) ++ rest).length := by
        simp only [memberTokens, List.cons_append, List.length_cons]
        omega
      rw [many_step hgo hitem hlt hne, ih]
      simp only [hw, Bool.not_false, Bool.true_and]
      split <;> simp

end

variable [Words]

/-- A name of which no part is a reserved word. -/
def nameAllowed (name : Text) : Bool := (name.splitOn '.').all fun w => !Words.reserved w

variable [GoQuote]

mutual

/-- The tree that Starlark reads from the text of an expression, if it reads any. -/
def reading : Expression → Option Tree
  | .binaryExpr left op right => do
    let l ← reading left
    let r ← reading right
    if isLogic op then some (.binary l (starOp op) r)
    else if isNot right then none
    else some (hoist op r left l)
  | .unaryExpr .not operand => do
    let x ← reading operand
    some (.not x)
  | .unaryExpr .minus operand => do
    let x ← reading operand
    if isNot operand then none else some (.neg x)
  | .callExpr name args => do
    let as ← readings args
    if nameAllowed name then some (.call name as) else none
  | e => some (image e)

def readings : List Expression → Option (List Tree)
  | [] => some []
  | e :: es => do
    let t ← reading e
    let ts ← readings es
    some (t :: ts)

end

/-! ## The reader gives the reading -/

section
open RecursiveDescent Starlark

/-- What an operand of a tight operator or of a minus sign reads as. -/
def operandReading (e : Expression) : Option Tree := if isNot e then none else reading e

/-- What two operands with a tight operator between them read as. -/
def tightReading (left : Expression) (op : BinaryOp) (right : Expression) : Option Tree := do
  let l ← reading left
  let r ← operandReading right
  some (hoist op r left l)

/-- The reader of operands gives the reading of the expression. -/
def ReadsOperand (e : Expression) : Prop :=
  ∀ n rest, (tokens e).length ≤ n → endsOperand (head rest) = true →
    primary (unroll disjunction n) (tokens e ++ rest) = reply (operandReading e) rest

/-- The reader of negations gives the reading of the expression. -/
def ReadsTest (e : Expression) : Prop :=
  ∀ n rest, (tokens e).length ≤ n → endsComparison (head rest) = true →
    negation (unroll disjunction n) (tokens e ++ rest) = reply (reading e) rest

theorem readsOperand_not {e : Expression} (h : isNot e = true) : ReadsOperand e := by
  intro n rest _ _
  cases e with
  | unaryExpr op y =>
    cases op with
    | not =>
      simp only [tokens, List.cons_append, operandReading, isNot, if_true, reply_none]
      exact primary_not _ _
    | minus => cases h
  | _ => cases h

omit [Words] in
/-- An expression that is no negation does not begin with `not`. -/
theorem head_tokens {e : Expression} (hw : exprWellFormed e = true) (h : isNot e = false)
    (rest : List Tok) : isWord "not" (head (tokens e ++ rest)) = false := by
  cases e with
  | unaryExpr op y =>
    cases op with
    | not => cases h
    | minus => rfl
  | boolLit value => cases value <;> rfl
  | callExpr name args =>
    rw [exprWellFormed, Bool.and_eq_true] at hw
    obtain ⟨first, toks, htokens, hne⟩ := head_nameTokens hw.1
    simp only [tokens, htokens, List.cons_append, head_cons, Starlark.isWord]
    simpa using hne
  | timeLit raw =>
    simp only [tokens, integerTokens]
    split <;> rfl
  | _ => rfl

/-- What is read as an operand and is no negation is read as a test. -/
theorem readsTest_of_operand {e : Expression} (h : isNot e = false)
    (hhead : ∀ rest, isWord "not" (head (tokens e ++ rest)) = false) (hread : ReadsOperand e) :
    ReadsTest e := by
  intro n rest hn hrest
  simp only [endsComparison, Bool.and_eq_true, List.all_eq_true, decide_eq_true_eq] at hrest
  have hprimary := hread n rest hn hrest.1.1
  have hsame : operandReading e = reading e := by simp [operandReading, h]
  rw [hsame] at hprimary
  rw [negation_eq (hhead rest)]
  exact comparison_single (arithmetic_single hprimary hrest.1.2) hrest.2

theorem readsTest_not {e : Expression} (hread : ReadsTest e) : ReadsTest (.unaryExpr .not e) := by
  intro n rest hn hrest
  simp only [tokens, List.length_cons] at hn
  have hnot := negation_not (unroll disjunction n) (tokens e ++ rest)
  rw [hread n rest (by omega) hrest] at hnot
  simp only [tokens, List.cons_append, hnot, reading]
  cases reading e <;> rfl

/-- Two operands, the left one without `not`, and a tight operator between them. -/
theorem read_tight_operand {left right : Expression} {op : BinaryOp} (hop : isLogic op = false)
    (hl : ReadsOperand left) (hnot : isNot left = false) (hr : ReadsOperand right) {n : Nat}
    (hnl : (tokens left).length ≤ n) (hnr : (tokens right).length ≤ n) {rest : List Tok}
    (hrest : endsComparison (head rest) = true) :
    comparison (unroll disjunction n) (tokens left ++ opToken op :: (tokens right ++ rest)) =
      reply (tightReading left op right) rest := by
  simp only [endsComparison, Bool.and_eq_true, List.all_eq_true, decide_eq_true_eq] at hrest
  have hleft := hl n (opToken op :: (tokens right ++ rest)) hnl (endsOperand_opToken op)
  have hright := hr n rest hnr hrest.1.1
  have hsame : operandReading left = reading left := by simp [operandReading, hnot]
  have hhoist : ∀ l r, hoist op r left l = .binary l (starOp op) r := by
    intro l r
    cases left with
    | unaryExpr op y =>
      cases op with
      | not => cases hnot
      | minus => rfl
    | _ => rfl
  rw [hsame] at hleft
  unfold tightReading
  cases hl' : reading left with
  | none =>
    rw [hl'] at hleft
    simp [comparison, arithmetic, levels_error hleft]
  | some l =>
    rw [hl', reply_some] at hleft
    cases hc : isComparison op with
    | false =>
      obtain ⟨tighter, own, looser, hops, htighter, hown⟩ := arithmeticOps_split hop hc
      have harith : arithmetic (unroll disjunction n) =
          levels (tighter ++ own :: looser) (primary (unroll disjunction n)) .binary := by
        rw [← hops]
        rfl
      cases hr' : operandReading right with
      | none =>
        rw [hr'] at hright
        have herror : arithmetic (unroll disjunction n)
            (tokens left ++ opToken op :: (tokens right ++ rest)) = .error () := by
          rw [harith]
          exact levels_right_error hleft hright htighter hown
        simp [comparison, herror]
      | some r =>
        rw [hr', reply_some] at hright
        have hread : arithmetic (unroll disjunction n)
            (tokens left ++ opToken op :: (tokens right ++ rest)) =
              .ok (.binary l (starOp op) r) rest := by
          rw [harith]
          exact levels_pair hleft hright htighter hown (hops ▸ hrest.1.2)
        simp [comparison, hread, hrest.2, hhoist]
    | true =>
      obtain ⟨hnone, hcomparison⟩ := comparisonOp_opToken hc
      have hfirst := arithmetic_single (t := some l) hleft hnone
      have hsecond := arithmetic_single hright hrest.1.2
      cases hr' : operandReading right with
      | none =>
        rw [hr'] at hsecond
        simp [comparison, hfirst, hcomparison, hsecond]
      | some r =>
        rw [hr'] at hsecond
        simp [comparison, hfirst, hcomparison, hsecond, hrest.2, hhoist]

/-- The reader gives the reading of the expression to the left of a tight operator. -/
def ReadsTight (e : Expression) : Prop :=
  ∀ op right n rest, isLogic op = false → ReadsOperand right → (tokens e).length ≤ n →
    (tokens right).length ≤ n → endsComparison (head rest) = true →
    negation (unroll disjunction n) (tokens e ++ opToken op :: (tokens right ++ rest)) =
      reply (tightReading e op right) rest

structure Reads (e : Expression) : Prop where
  operand : ReadsOperand e
  test : ReadsTest e
  tight : ReadsTight e

/-- An expression without a leading `not`. -/
theorem reads_of_operand {e : Expression} (hw : exprWellFormed e = true) (h : isNot e = false)
    (hread : ReadsOperand e) : Reads e := by
  refine ⟨hread, readsTest_of_operand h (head_tokens hw h) hread, ?_⟩
  intro op right n rest hop hr hn hnr hrest
  rw [negation_eq (head_tokens hw h _)]
  exact read_tight_operand hop hread h hr hn hnr hrest

/-- Each leading `not` takes all that follows. -/
theorem reads_not {e : Expression} (h : Reads e) : Reads (.unaryExpr .not e) := by
  refine ⟨readsOperand_not rfl, readsTest_not h.test, ?_⟩
  intro op right n rest hop hr hn hnr hrest
  simp only [tokens, List.length_cons] at hn
  have htight := h.tight op right n rest hop hr (by omega) hnr hrest
  have hnot := negation_not (unroll disjunction n)
    (tokens e ++ opToken op :: (tokens right ++ rest))
  rw [htight] at hnot
  simp only [tokens, List.cons_append, hnot, tightReading, reading]
  cases reading e with
  | none => rfl
  | some l =>
    cases operandReading right with
    | none => rfl
    | some r => rfl

/-- Below the logic an expression is read as its two operands. -/
theorem reading_tight {op : BinaryOp} (hop : isLogic op = false) (left right : Expression) :
    reading (.binaryExpr left op right) = tightReading left op right := by
  simp only [reading, tightReading, operandReading, hop]
  cases reading left with
  | none => rfl
  | some l =>
    cases hr : reading right with
    | none => cases isNot right <;> simp
    | some r => cases isNot right <;> simp

/-- Two tests with `and` or `or` between them. -/
theorem read_logic {left right : Expression} {op : BinaryOp} (hop : isLogic op = true)
    (hl : ReadsTest left) (hr : ReadsTest right) {n : Nat} (hnl : (tokens left).length ≤ n)
    (hnr : (tokens right).length ≤ n) (rest : List Tok) :
    disjunction (unroll disjunction n)
        (tokens left ++ opToken op :: (tokens right ++ punct ")" :: rest)) =
      reply (reading (.binaryExpr left op right)) (punct ")" :: rest) := by
  have hends : endsComparison (opToken op) = true := by
    cases op with
    | and | or => rfl
    | _ => cases hop
  have hleft := hl n (opToken op :: (tokens right ++ punct ")" :: rest)) hnl hends
  have hright := hr n (punct ")" :: rest) hnr rfl
  simp only [reading, hop, if_true]
  cases hl' : reading left with
  | none =>
    rw [hl'] at hleft
    exact chain_error (chain_error hleft)
  | some l =>
    rw [hl', reply_some] at hleft
    cases hr' : reading right with
    | none =>
      rw [hr'] at hright
      cases op with
      | and => exact chain_error (chain_right_error hleft rfl hright)
      | or => exact chain_right_error (chain_single hleft rfl) rfl (chain_error hright)
      | _ => cases hop
    | some r =>
      rw [hr', reply_some] at hright
      cases op with
      | and => exact chain_single (chain_pair hleft rfl hright rfl) rfl
      | or => exact chain_pair (chain_single hleft rfl) rfl (chain_single hright rfl) rfl
      | _ => cases hop

/-- Both operands of a binary expression and the parentheses around them. -/
theorem readsOperand_binary {left right : Expression} (op : BinaryOp) (hl : Reads left)
    (hr : Reads right) : ReadsOperand (.binaryExpr left op right) := by
  intro n rest hn _
  simp only [tokens, List.length_cons, List.length_append, List.length_nil] at hn
  obtain ⟨m, rfl⟩ : ∃ m, n = m + 1 := ⟨n - 1, by omega⟩
  have hinner : disjunction (unroll disjunction m)
      (tokens left ++ opToken op :: (tokens right ++ punct ")" :: rest)) =
        reply (reading (.binaryExpr left op right)) (punct ")" :: rest) := by
    cases hop : isLogic op with
    | true => exact read_logic hop hl.test hr.test (by omega) (by omega) rest
    | false =>
      have htight := hl.tight op right m (punct ")" :: rest) hop hr.operand (by omega) (by omega) rfl
      rw [reading_tight hop]
      cases ht : tightReading left op right with
      | none =>
        rw [ht] at htight
        exact chain_error (chain_error htight)
      | some t =>
        rw [ht, reply_some] at htight
        exact chain_single (chain_single htight rfl) rfl
  have hsame : operandReading (.binaryExpr left op right) = reading (.binaryExpr left op right) := rfl
  rw [hsame]
  simp only [tokens, List.cons_append, List.append_assoc, List.nil_append]
  rw [primary_lparen]
  cases ht : reading (.binaryExpr left op right) with
  | none =>
    rw [ht] at hinner
    simp only [parenthesised, bind_apply, advance_apply, Reply.ok_bind, List.tail_cons, unroll,
      hinner, reply_none, Reply.error_bind]
  | some t =>
    rw [ht] at hinner
    simp only [parenthesised, bind_apply, advance_apply, Reply.ok_bind, List.tail_cons, unroll,
      hinner, reply_some, expect_rparen, pure_apply]

theorem readsOperand_minus {operand : Expression} (h : Reads operand) :
    ReadsOperand (.unaryExpr .minus operand) := by
  intro n rest hn hrest
  simp only [tokens, List.length_cons] at hn
  have hread := h.operand n rest (by omega) hrest
  have hsame : operandReading (.unaryExpr .minus operand) =
      (operandReading operand).map .neg := by
    have hminus : operandReading (.unaryExpr .minus operand) =
        reading (.unaryExpr .minus operand) := rfl
    rw [hminus, reading, operandReading]
    cases hn : isNot operand <;> cases reading operand <;> simp
  simp only [tokens, List.cons_append]
  rw [primary_minus, hread, hsame]
  cases operandReading operand <;> rfl

/-! ### Calls -/

omit [GoQuote] in
/-- A name is read when none of its parts is a reserved word. -/
theorem read_name {name : Text} (h : isName name = true) (rest : List Tok)
    (hrest : isPunct "." (head rest) = false) :
    dottedName (nameTokens name ++ rest) = if nameAllowed name then .ok name rest else .error () := by
  have hjoin : ['.'].intercalate (name.splitOn '.') = name := List.intercalate_splitOn '.'
  unfold isName at h
  split at h
  · cases h
  · rename_i first members hsplit
    have htokens : nameTokens name = .word first :: memberTokens members := by
      simp [nameTokens, hsplit]
    have hmembers := read_member_tokens members hrest
    simp only [nameAllowed, hsplit, List.all_cons, htokens, List.cons_append]
    by_cases hfirst : Words.reserved first = true
    · simp [dottedName, name_reserved hfirst, hfirst]
    · simp only [Bool.not_eq_true] at hfirst
      simp only [dottedName, bind_apply, name_allowed hfirst, Reply.ok_bind, hmembers, hfirst,
        Bool.not_false, Bool.true_and]
      split
      · rw [Reply.ok_bind, pure_apply, foldl_members, ← hsplit, hjoin]
      · rfl

omit [Words] in
theorem head_tokens_rparen {e : Expression} (hw : exprWellFormed e = true) (rest : List Tok) :
    isPunct ")" (head (tokens e ++ rest)) = false := by
  cases e with
  | unaryExpr op y => cases op <;> rfl
  | callExpr name args =>
    rw [exprWellFormed, Bool.and_eq_true] at hw
    obtain ⟨first, toks, htokens, -⟩ := head_nameTokens hw.1
    simp only [tokens, htokens, List.cons_append, head_cons]
    rfl
  | timeLit raw =>
    simp only [tokens, integerTokens]
    split <;> rfl
  | _ => rfl

/-- An argument is read up to the comma or the bracket. -/
theorem read_argument {e : Expression} (h : ReadsTest e) {n : Nat} (hn : (tokens e).length < n)
    (rest : List Tok) (hrest : isPunct "," (head rest) = true ∨ isPunct ")" (head rest) = true) :
    unroll disjunction n (tokens e ++ rest) = reply (reading e) rest := by
  obtain ⟨m, rfl⟩ : ∃ m, n = m + 1 := ⟨n - 1, by omega⟩
  have hends : endsComparison (head rest) = true ∧ andOp (head rest) = none ∧
      orOp (head rest) = none := by
    rcases hrest with hrest | hrest
    · have hhead : head rest = .punct ",".toList := by simpa [isPunct] using hrest
      rw [hhead]
      exact ⟨rfl, rfl, rfl⟩
    · have hhead : head rest = .punct ")".toList := by simpa [isPunct] using hrest
      rw [hhead]
      exact ⟨rfl, rfl, rfl⟩
  have htest := h m rest (by omega) hends.1
  cases ht : reading e with
  | none =>
    rw [ht] at htest
    exact chain_error (chain_error htest)
  | some t =>
    rw [ht, reply_some] at htest
    exact chain_single (chain_single htest hends.2.1) hends.2.2

def replies (ts : Option (List Tree)) (rest : List Tok) : Reply Tok Unit (List Tree) :=
  match ts with
  | some ts => .ok ts rest
  | none => .error ()

theorem read_arguments {args : List Expression}
    (hstart : ∀ e ∈ args, ∀ rest, isPunct ")" (head (tokens e ++ rest)) = false)
    (h : ∀ e ∈ args, ReadsTest e) {n : Nat} (hn : (argTokens args).length < n) (rest : List Tok) :
    separated (isPunct ")") (isPunct ",") (unroll disjunction n)
        (argTokens args ++ punct ")" :: rest) = replies (readings args) (punct ")" :: rest) := by
  induction args with
  | nil => exact separated_stop rfl
  | cons e args ih =>
    have hfirst := hstart e List.mem_cons_self
    cases args with
    | nil =>
      have hitem := read_argument (h e List.mem_cons_self) hn (punct ")" :: rest) (.inr rfl)
      simp only [argTokens, readings]
      cases ht : reading e with
      | none =>
        rw [ht] at hitem
        exact separated_error (hfirst _) hitem
      | some t =>
        rw [ht] at hitem
        exact separated_last (hfirst _) hitem rfl
    | cons e' args =>
      simp only [argTokens, List.length_append, List.length_cons] at hn
      have hitem := read_argument (h e List.mem_cons_self) (n := n) (by omega)
        (punct "," :: (argTokens (e' :: args) ++ punct ")" :: rest)) (.inl rfl)
      have hmore := ih (fun x hx => hstart x (List.mem_cons_of_mem e hx))
        (fun x hx => h x (List.mem_cons_of_mem e hx)) (by omega)
      simp only [argTokens, List.append_assoc, List.cons_append]
      rw [readings]
      cases ht : reading e with
      | none =>
        rw [ht] at hitem
        exact separated_error (hfirst _) hitem
      | some t =>
        rw [ht] at hitem
        have hne : separated (isPunct ")") (isPunct ",") (unroll disjunction n)
            (argTokens (e' :: args) ++ punct ")" :: rest) ≠ .exhausted := by
          rw [hmore]
          cases readings (e' :: args) <;> simp [replies]
        rw [separated_step (hfirst _) hitem rfl (by simp; omega) hne, hmore]
        cases readings (e' :: args) <;> rfl

theorem readsOperand_call {name : Text} {args : List Expression} (hname : isName name = true)
    (hstart : ∀ e ∈ args, ∀ rest, isPunct ")" (head (tokens e ++ rest)) = false)
    (h : ∀ e ∈ args, ReadsTest e) :
    ReadsOperand (.callExpr name args) := by
  intro n rest hn _
  simp only [tokens, List.length_append, List.length_cons, List.length_nil] at hn
  obtain ⟨first, toks, htokens, -⟩ := head_nameTokens hname
  have hread := read_name hname (punct "(" :: (argTokens args ++ punct ")" :: rest)) rfl
  have hargs := read_arguments hstart h (n := n) (by omega) rest
  have hword : primary (unroll disjunction n) (nameTokens name ++ punct "(" ::
      (argTokens args ++ punct ")" :: rest)) = nameOrCall (unroll disjunction n)
        (nameTokens name ++ punct "(" :: (argTokens args ++ punct ")" :: rest)) := by
    rw [htokens]
    rfl
  have hopen : isPunct "(" (punct "(") = true := rfl
  have hsame : operandReading (.callExpr name args) = reading (.callExpr name args) := rfl
  simp only [tokens, List.append_assoc, List.cons_append, List.nil_append]
  rw [hword, hsame, reading]
  simp only [nameOrCall, bind_apply, hread]
  cases hallowed : nameAllowed name with
  | false => cases readings args <;> rfl
  | true =>
    cases hts : readings args with
    | none =>
      rw [hts] at hargs
      simp [hopen, arguments, hargs, replies]
    | some ts =>
      rw [hts] at hargs
      simp [hopen, arguments, hargs, replies, expect_rparen]

theorem readsOperand_literal {e : Expression} {lit : Text} (htokens : tokens e = [.literal lit])
    (hreading : operandReading e = some (.literal lit)) : ReadsOperand e := by
  intro n rest _ _
  rw [htokens, hreading]
  rfl

/-- A truth value is read as the name that it is written with. -/
theorem readsOperand_bool (value : Bool) : ReadsOperand (.boolLit value) := by
  intro n rest _ hrest
  have hallowed : Words.reserved (boolWord value) = false := by
    cases value with
    | false => exact Words.false_name
    | true => exact Words.true_name
  simp only [endsOperand, Bool.and_eq_true, Bool.not_eq_true'] at hrest
  have hmembers : many (isPunct ".") member rest = .ok [] rest := many_stop hrest.2
  simp only [tokens, List.cons_append, List.nil_append]
  rw [primary_word]
  simp only [nameOrCall, dottedName, bind_apply, name_allowed hallowed, Reply.ok_bind, hmembers,
    pure_apply, peek_apply, hrest.1, Bool.false_eq_true, if_false]
  rfl

theorem readsOperand_integer {e : Expression} {n : Int} (htokens : tokens e = integerTokens n)
    (hreading : operandReading e = some (integerTree n)) : ReadsOperand e := by
  intro m rest _ _
  rw [htokens, hreading]
  unfold integerTokens integerTree
  split <;> rfl

/-- A variable is read as a call of `get_var`. -/
theorem readsOperand_getVar {e : Expression} {name : Text} (htokens : tokens e = getVarTokens name)
    (hreading : operandReading e = some (getVarTree name)) : ReadsOperand e := by
  have hliteral : ReadsOperand (.stringLit name) := readsOperand_literal rfl rfl
  have htest : ReadsTest (.stringLit name) := readsTest_of_operand rfl (fun _ => rfl) hliteral
  have hcall : ReadsOperand (.callExpr getVarWord [.stringLit name]) := by
    apply readsOperand_call (by decide)
    · intro e he rest
      rw [List.mem_singleton.mp he]
      rfl
    · intro e he
      rw [List.mem_singleton.mp he]
      exact htest
  have hallowed : nameAllowed getVarWord = true := by
    have hsplit : getVarWord.splitOn '.' = [getVarWord] := by decide
    have hreserved : Words.reserved getVarWord = false := Words.get_var_name
    simp [nameAllowed, hsplit, hreserved]
  have hcallReading : operandReading (.callExpr getVarWord [.stringLit name]) =
      some (getVarTree name) := by
    simp [operandReading, isNot, reading, readings, hallowed]
    rfl
  intro n rest hn hrest
  have hread := hcall n rest (by rw [htokens] at hn; exact hn) hrest
  rw [hcallReading] at hread
  rw [htokens, hreading]
  exact hread

mutual

/-- Every expression is read as its reading says, on every level. -/
theorem reads_expr : ∀ e : Expression, exprWellFormed e = true → Reads e
  | .numberLit value, hw => reads_of_operand hw rfl (readsOperand_literal rfl rfl)
  | .stringLit value, hw => reads_of_operand hw rfl (readsOperand_literal rfl rfl)
  | .boolLit value, hw => reads_of_operand hw rfl (readsOperand_bool value)
  | .identExpr name, hw => reads_of_operand hw rfl (readsOperand_getVar rfl rfl)
  | .binaryExpr left op right, hw => by
    have hwf := hw
    simp only [exprWellFormed, Bool.and_eq_true] at hw
    exact reads_of_operand hwf rfl
      (readsOperand_binary op (reads_expr left hw.1) (reads_expr right hw.2))
  | .unaryExpr .not operand, hw => reads_not (reads_expr operand hw)
  | .unaryExpr .minus operand, hw =>
    reads_of_operand hw rfl (readsOperand_minus (reads_expr operand hw))
  | .callExpr name args, hw => by
    have hwf := hw
    simp only [exprWellFormed, Bool.and_eq_true] at hw
    have hargs := reads_exprs args hw.2
    exact reads_of_operand hwf rfl (readsOperand_call hw.1 (fun e he => (hargs e he).1)
      fun e he => (hargs e he).2.test)
  | .memberExpr object member, hw => reads_of_operand hw rfl (readsOperand_getVar rfl rfl)
  | .timeLit raw, hw => reads_of_operand hw rfl (readsOperand_integer rfl rfl)

theorem reads_exprs : ∀ args : List Expression, argsWellFormed args = true →
    ∀ e ∈ args, (∀ rest, isPunct ")" (head (tokens e ++ rest)) = false) ∧ Reads e
  | [], _ => by simp
  | e :: args, hw => by
    simp only [argsWellFormed, Bool.and_eq_true] at hw
    intro x hx
    rcases List.mem_cons.mp hx with heq | hx
    · exact heq ▸ ⟨head_tokens_rparen hw.1, reads_expr e hw.1⟩
    · exact reads_exprs args hw.2 x hx

end

omit [GoQuote] in
/-- What the level of negations reads to its end is read. -/
theorem read_of_negation {text : Text} {ts : List Tok} {t : Option Tree} {n : Nat}
    (hlex : Starlark.lex text = ts) (hn : ts.length = n)
    (htest : negation (unroll disjunction n) ts = reply t []) : Starlark.read text = t := by
  have hread : test ts = reply t [] := by
    subst hn
    cases t with
    | none => exact chain_error (chain_error htest)
    | some t => exact chain_single (chain_single htest rfl) rfl
  unfold Starlark.read
  rw [hlex, hread]
  cases t <;> rfl

/-- What Starlark makes of the generated text of an expression. -/
theorem read_expr {e : Expression} (hw : exprWellFormed e = true) :
    Starlark.read (expr e) = reading e := by
  have htest := (reads_expr e hw).test (tokens e).length [] (Nat.le_refl _) rfl
  rw [List.append_nil] at htest
  exact read_of_negation (lex_generated hw) rfl htest

/-- A negation of a text in parentheses. -/
theorem read_not_parenthesised {e : Expression} (hw : exprWellFormed e = true) :
    Starlark.read ("not (".toList ++ expr e ++ [')']) = (reading e).map .not := by
  have htext : "not (".toList ++ expr e ++ [')'] =
      mapUnaryOp .not ++ ' ' :: '(' :: (expr e ++ [')']) := rfl
  have hlex : Starlark.lex ("not (".toList ++ expr e ++ [')']) =
      .word "not".toList :: punct "(" :: (tokens e ++ [punct ")"]) := by
    rw [htext, lex_unary, lex_lparen, lex_expr e hw _ (delimited_cons (by decide) _), lex_rparen,
      lex_nil]
  apply read_of_negation hlex rfl
  have hn : (tokens e).length <
      (Tok.word "not".toList :: punct "(" :: (tokens e ++ [punct ")"])).length := by
    simp only [List.length_cons, List.length_append]
    omega
  generalize (Tok.word "not".toList :: punct "(" :: (tokens e ++ [punct ")"])).length = n at hn
  have hinner := read_argument (reads_expr e hw).test hn [punct ")"] (.inr rfl)
  have hprimary : primary (unroll disjunction n) (punct "(" :: (tokens e ++ [punct ")"])) =
      reply (reading e) [] := by
    rw [primary_lparen]
    simp only [parenthesised, bind_apply, advance_apply, Reply.ok_bind, List.tail_cons, hinner]
    cases reading e with
    | none => rfl
    | some t => rfl
  have hnegation : negation (unroll disjunction n) (punct "(" :: (tokens e ++ [punct ")"])) =
      reply (reading e) [] := by
    rw [negation_eq rfl]
    have hops : ∀ op ∈ arithmeticOps, op (head []) = none := by
      simp [arithmeticOps]
      exact ⟨rfl, rfl, rfl⟩
    exact comparison_single (arithmetic_single hprimary hops) rfl
  rw [negation_not, hnegation]
  cases reading e with
  | none => rfl
  | some t => rfl

omit [Words] in
/-- A comparison is read as its two operands with the operator between them. -/
theorem lex_comparison {e x : Expression} (he : exprWellFormed e = true)
    (hx : exprWellFormed x = true) {rest : Text} (hrest : Delimited rest) :
    Starlark.lex (expr e ++ " == ".toList ++ expr x ++ rest) =
      (tokens e ++ opToken .equal :: tokens x) ++ Starlark.lex rest := by
  have htext : expr e ++ " == ".toList ++ expr x ++ rest =
      expr e ++ ' ' :: (mapOp .equal ++ ' ' :: (expr x ++ rest)) := by
    simp only [List.append_assoc]
    rfl
  rw [htext, lex_expr e he _ (delimited_cons (by decide) _), lex_blank, lex_op,
    lex_expr x hx _ hrest]
  simp only [List.append_assoc, List.cons_append]

omit [Words] in
/-- The test of a clause is read as its comparisons with `or` between them. -/
theorem lex_caseTest {e v : Expression} {vs : List Expression} (he : exprWellFormed e = true)
    (hvs : argsWellFormed (v :: vs) = true) :
    Starlark.lex (caseTest (expr e) (exprs (v :: vs))) =
      (tokens e ++ opToken .equal :: tokens v) ++
        (vs.flatMap fun x => opToken .or :: (tokens e ++ opToken .equal :: tokens x)) := by
  induction vs generalizing v with
  | nil =>
    rw [argsWellFormed, Bool.and_eq_true] at hvs
    have hend : Delimited [] := fun c hc => by cases hc
    have hlex := lex_comparison he hvs.1 hend
    rw [lex_nil] at hlex
    simpa [caseTest, exprs] using hlex
  | cons w vs ih =>
    have hv := hvs
    rw [argsWellFormed, Bool.and_eq_true] at hv
    have hmore := ih hv.2
    have htext : caseTest (expr e) (exprs (v :: w :: vs)) = expr e ++ " == ".toList ++ expr v ++
        ' ' :: (mapOp .or ++ ' ' :: caseTest (expr e) (exprs (w :: vs))) := by
      simp [caseTest, exprs, List.intercalate, mapOp]
    rw [htext, lex_comparison he hv.1 (delimited_cons (by decide) _), lex_blank, lex_op, hmore]
    simp only [List.flatMap_cons, List.append_assoc, List.cons_append]

/-- The reader of conjunctions on one of the comparisons of a CASE. -/
theorem conjunction_comparison {e x : Expression} (he : exprWellFormed e = true)
    (hx : exprWellFormed x = true) {n : Nat}
    (hn : (tokens e ++ opToken .equal :: tokens x).length ≤ n) {tail : List Tok}
    (htail : head tail = opToken .or ∨ tail = []) :
    conjunction (unroll disjunction n) ((tokens e ++ opToken .equal :: tokens x) ++ tail) =
      reply (reading (.binaryExpr e .equal x)) tail := by
  simp only [List.length_append, List.length_cons] at hn
  have hends : endsComparison (head tail) = true ∧ andOp (head tail) = none := by
    rcases htail with htail | rfl
    · rw [htail]
      exact ⟨rfl, rfl⟩
    · exact ⟨rfl, rfl⟩
  have htight := (reads_expr e he).tight .equal x n tail rfl (reads_expr x hx).operand (by omega)
    (by omega) hends.1
  rw [← reading_tight rfl] at htight
  rw [List.append_assoc, List.cons_append]
  cases hreading : reading (.binaryExpr e .equal x) with
  | none =>
    rw [hreading] at htight
    exact chain_error htight
  | some t =>
    rw [hreading] at htight
    exact chain_single htight hends.2

omit [Words] in
/-- No comparison is longer than the whole test. -/
theorem length_comparison_le {e v x : Expression} {vs : List Expression}
    (he : exprWellFormed e = true) (hvs : argsWellFormed (v :: vs) = true) (hx : x ∈ v :: vs) :
    (tokens e ++ opToken .equal :: tokens x).length ≤
      (Starlark.lex (caseTest (expr e) (exprs (v :: vs)))).length := by
  rw [lex_caseTest he hvs]
  rcases List.mem_cons.mp hx with rfl | hx
  · simp only [List.length_append, List.length_cons]
    omega
  · obtain ⟨before, after, rfl⟩ := List.append_of_mem hx
    simp only [List.flatMap_append, List.flatMap_cons, List.length_append, List.length_cons]
    omega

/-- Comparisons of one text with others, with `or` between them. -/
theorem read_caseTest {e v : Expression} {vs : List Expression} (he : exprWellFormed e = true)
    (hvs : argsWellFormed (v :: vs) = true) {t : Expression → Tree}
    (h : ∀ x ∈ v :: vs, reading (.binaryExpr e .equal x) = some (t x)) :
    Starlark.read (caseTest (expr e) (exprs (v :: vs))) =
      some (vs.foldl (fun l x => .binary l .or (t x)) (t v)) := by
  let item : Expression → List Tok × Tree := fun x => (tokens e ++ opToken .equal :: tokens x, t x)
  have hlex := lex_caseTest he hvs
  have hlength : ∀ x ∈ v :: vs, (item x).1.length ≤
      (Starlark.lex (caseTest (expr e) (exprs (v :: vs)))).length :=
    fun x hx => length_comparison_le he hvs hx
  generalize hn : (Starlark.lex (caseTest (expr e) (exprs (v :: vs)))).length = n at hlength
  have hread : ∀ p ∈ item v :: vs.map item, ∀ tail, head tail = opToken .or ∨ tail = [] →
      conjunction (unroll disjunction n) (p.1 ++ tail) = .ok p.2 tail := by
    intro p hp tail htail
    obtain ⟨x, hx, rfl⟩ : ∃ x ∈ v :: vs, item x = p := by
      rw [← List.map_cons] at hp
      exact List.mem_map.mp hp
    have hread := conjunction_comparison he (mem_wellFormed hvs x hx) (hlength x hx) htail
    rw [h x hx] at hread
    exact hread
  have hchain : disjunction (unroll disjunction n)
      ((item v).1 ++ ((vs.map item).flatMap (fun p => opToken .or :: p.1) ++ [])) =
        .ok ((vs.map item).foldl (fun l p => .binary l .or p.2) (item v).2) [] := by
    have hor : orOp (opToken .or) = some .or := rfl
    exact chain_sequence hor rfl hread
  have htest : test (Starlark.lex (caseTest (expr e) (exprs (v :: vs)))) =
      .ok (vs.foldl (fun l x => .binary l .or (t x)) (t v)) [] := by
    have htokens : Starlark.lex (caseTest (expr e) (exprs (v :: vs))) =
        (item v).1 ++ ((vs.map item).flatMap (fun p => opToken .or :: p.1) ++ []) := by
      rw [hlex, List.append_nil, List.flatMap_map]
    rw [List.foldl_map, ← htokens] at hchain
    unfold test recursive
    rw [hn]
    exact hchain
  unfold Starlark.read
  rw [htest]

/-- One comparison that cannot be read makes the test unreadable. -/
theorem read_caseTest_none {e v : Expression} {vs : List Expression} (he : exprWellFormed e = true)
    (hvs : argsWellFormed (v :: vs) = true)
    (h : ∃ x ∈ v :: vs, reading (.binaryExpr e .equal x) = none) :
    Starlark.read (caseTest (expr e) (exprs (v :: vs))) = none := by
  let item : Expression → List Tok := fun x => tokens e ++ opToken .equal :: tokens x
  have hlex := lex_caseTest he hvs
  have hlength : ∀ x ∈ v :: vs, (item x).length ≤
      (Starlark.lex (caseTest (expr e) (exprs (v :: vs)))).length :=
    fun x hx => length_comparison_le he hvs hx
  generalize hn : (Starlark.lex (caseTest (expr e) (exprs (v :: vs)))).length = n at hlength
  have hread : ∀ x ∈ v :: vs, ∀ tail, head tail = opToken .or ∨ tail = [] →
      conjunction (unroll disjunction n) (item x ++ tail) =
        reply (reading (.binaryExpr e .equal x)) tail :=
    fun x hx tail htail => conjunction_comparison he (mem_wellFormed hvs x hx) (hlength x hx) htail
  have hchain : disjunction (unroll disjunction n)
      (item v ++ ((vs.map item).flatMap (fun p => opToken .or :: p) ++ [])) = .error () := by
    have hor : orOp (opToken .or) = some .or := rfl
    apply chain_sequence_error hor
    · rw [← List.map_cons]
      intro p hp tail htail
      obtain ⟨x, hx, rfl⟩ := List.mem_map.mp hp
      rw [hread x hx tail htail]
      cases reading (.binaryExpr e .equal x) with
      | none => exact .inr rfl
      | some t => exact .inl ⟨t, rfl⟩
    · obtain ⟨x, hx, hnone⟩ := h
      rw [← List.map_cons]
      refine ⟨item x, List.mem_map_of_mem hx, fun tail htail => ?_⟩
      rw [hread x hx tail htail, hnone]
      rfl
  have htest : test (Starlark.lex (caseTest (expr e) (exprs (v :: vs)))) = .error () := by
    have htokens : Starlark.lex (caseTest (expr e) (exprs (v :: vs))) =
        item v ++ ((vs.map item).flatMap (fun p => opToken .or :: p) ++ []) := by
      rw [hlex, List.append_nil, List.flatMap_map]
    rw [← htokens] at hchain
    unfold test recursive
    rw [hn]
    exact hchain
  unfold Starlark.read
  rw [htest]

end

/-! ## When the reading is the image -/

mutual

/-- Every NOT is the operand of AND, OR or another NOT, or no operand at all. -/
def notsTaken : Expression → Bool
  | .binaryExpr left op right =>
    (isLogic op || !isNot left && !isNot right) && notsTaken left && notsTaken right
  | .unaryExpr .not operand => notsTaken operand
  | .unaryExpr .minus operand => !isNot operand && notsTaken operand
  | .callExpr _ args => allNotsTaken args
  | _ => true

def allNotsTaken : List Expression → Bool
  | [] => true
  | e :: es => notsTaken e && allNotsTaken es

end

mutual

/-- No part of a function's name is a reserved word of Starlark. -/
def namesAllowed : Expression → Bool
  | .binaryExpr left _ right => namesAllowed left && namesAllowed right
  | .unaryExpr _ operand => namesAllowed operand
  | .callExpr name args => nameAllowed name && allNamesAllowed args
  | _ => true

def allNamesAllowed : List Expression → Bool
  | [] => true
  | e :: es => namesAllowed e && allNamesAllowed es

end

mutual

/-- With its negations taken and its names allowed an expression is read as it is meant. -/
theorem reading_image : ∀ e : Expression, notsTaken e = true → namesAllowed e = true →
    reading e = some (image e)
  | .numberLit _, _, _ => rfl
  | .stringLit _, _, _ => rfl
  | .boolLit _, _, _ => rfl
  | .identExpr _, _, _ => rfl
  | .memberExpr _ _, _, _ => rfl
  | .timeLit _, _, _ => rfl
  | .binaryExpr left op right, ht, hn => by
    simp only [notsTaken, namesAllowed, Bool.and_eq_true] at ht hn
    have hl := reading_image left ht.1.2 hn.1
    have hr := reading_image right ht.2 hn.2
    cases hop : isLogic op with
    | true => simp [reading, hl, hr, hop, image]
    | false =>
      have hnots : isNot left = false ∧ isNot right = false := by simpa [hop] using ht.1.1
      simp [reading, hl, hr, hop, hnots.2, hoist_operand hnots.1, image]
  | .unaryExpr .not operand, ht, hn => by
    simp only [notsTaken, namesAllowed] at ht hn
    simp [reading, reading_image operand ht hn, image]
  | .unaryExpr .minus operand, ht, hn => by
    simp only [notsTaken, namesAllowed, Bool.and_eq_true, Bool.not_eq_true'] at ht hn
    simp [reading, reading_image operand ht.2 hn, ht.1, image]
  | .callExpr name args, ht, hn => by
    simp only [notsTaken, namesAllowed, Bool.and_eq_true] at ht hn
    simp [reading, readings_images args ht hn.2, hn.1, image]

theorem readings_images : ∀ args : List Expression, allNotsTaken args = true →
    allNamesAllowed args = true → readings args = some (images args)
  | [], _, _ => rfl
  | e :: args, ht, hn => by
    simp only [allNotsTaken, allNamesAllowed, Bool.and_eq_true] at ht hn
    simp [readings, reading_image e ht.1 hn.1, readings_images args ht.2 hn.2, images]

end

/-- What a reading shares with the image, and when they can be the same. -/
structure Compares (t image : Tree) (taken allowed : Bool) : Prop where
  size_eq : t.size = image.size
  weight_le : image.weight ≤ t.weight
  taken : t.weight = image.weight → taken = true
  allowed : allowed = true

theorem hoist_weight (op : BinaryOp) (r : Tree) {left : Expression} {l : Tree}
    (h : isNot left = true) (hl : reading left = some l) :
    l.weight + r.weight < (hoist op r left l).weight := by
  cases left with
  | unaryExpr uop y =>
    cases uop with
    | not =>
      simp only [reading, Option.bind_eq_bind, Option.bind_eq_some_iff] at hl
      obtain ⟨x, hx, hl⟩ := hl
      cases hl
      have hinner := hoist_size op r y x
      have hpos := r.size_pos
      simp only [hoist, Tree.weight]
      omega
    | minus => cases h
  | _ => cases h

omit [Words] [GoQuote] in
theorem compares_refl (t : Tree) : Compares t t true true :=
  ⟨rfl, Nat.le_refl _, fun _ => rfl, rfl⟩

mutual

/-- A reading never weighs less than what is meant, and as much only if nothing is hoisted. -/
theorem reading_compares : ∀ (e : Expression) (t : Tree), reading e = some t →
    Compares t (image e) (notsTaken e) (namesAllowed e)
  | .numberLit _, _, h => by cases h; exact compares_refl _
  | .stringLit _, _, h => by cases h; exact compares_refl _
  | .boolLit _, _, h => by cases h; exact compares_refl _
  | .identExpr _, _, h => by cases h; exact compares_refl _
  | .memberExpr _ _, _, h => by cases h; exact compares_refl _
  | .timeLit _, _, h => by cases h; exact compares_refl _
  | .unaryExpr .not operand, t, h => by
    simp only [reading, Option.bind_eq_bind, Option.bind_eq_some_iff] at h
    obtain ⟨x, hx, h⟩ := h
    cases h
    obtain ⟨hsize, hweight, htaken, hallowed⟩ := reading_compares operand x hx
    refine ⟨hsize, ?_, ?_, hallowed⟩
    · simp only [image, Tree.weight]
      omega
    · intro heq
      simp only [image, Tree.weight] at heq
      exact htaken (by omega)
  | .unaryExpr .minus operand, t, h => by
    simp only [reading, Option.bind_eq_bind, Option.bind_eq_some_iff] at h
    obtain ⟨x, hx, h⟩ := h
    split at h
    · cases h
    · rename_i hnot
      cases h
      obtain ⟨hsize, hweight, htaken, hallowed⟩ := reading_compares operand x hx
      refine ⟨hsize, hweight, ?_, hallowed⟩
      intro heq
      simp only [notsTaken, hnot, htaken heq]
      rfl
  | .binaryExpr left op right, t, h => by
    simp only [reading, Option.bind_eq_bind, Option.bind_eq_some_iff] at h
    obtain ⟨l, hl, r, hr, h⟩ := h
    obtain ⟨hsizel, hweightl, htakenl, hallowedl⟩ := reading_compares left l hl
    obtain ⟨hsizer, hweightr, htakenr, hallowedr⟩ := reading_compares right r hr
    have hallowed : namesAllowed (.binaryExpr left op right) = true := by
      simp [namesAllowed, hallowedl, hallowedr]
    split at h
    · rename_i hop
      cases h
      refine ⟨by simp only [image, Tree.size]; omega, by simp only [image, Tree.weight]; omega, ?_,
        hallowed⟩
      intro heq
      simp only [image, Tree.weight] at heq
      simp [notsTaken, hop, htakenl (by omega), htakenr (by omega)]
    · split at h
      · cases h
      · rename_i hop hnotr
        cases h
        have hhoist := hoist_size op r left l
        refine ⟨by simp only [image, Tree.size]; omega, by simp only [image, Tree.weight]; omega, ?_,
          hallowed⟩
        intro heq
        simp only [image, Tree.weight] at heq
        have hnotl : isNot left = false := by
          cases hnot : isNot left with
          | false => rfl
          | true =>
            have hlt := hoist_weight op r hnot hl
            omega
        simp only [Bool.not_eq_true] at hnotr
        simp [notsTaken, hnotl, hnotr, htakenl (by omega), htakenr (by omega)]
  | .callExpr name args, t, h => by
    simp only [reading, Option.bind_eq_bind, Option.bind_eq_some_iff] at h
    obtain ⟨ts, hts, h⟩ := h
    split at h
    · rename_i hname
      cases h
      obtain ⟨hsize, hweight, htaken, hallowed⟩ := readings_compares args ts hts
      refine ⟨by simp only [image, Tree.size, hsize], hweight, htaken, ?_⟩
      simp [namesAllowed, hname, hallowed]
    · cases h

theorem readings_compares : ∀ (args : List Expression) (ts : List Tree), readings args = some ts →
    Starlark.sizes ts = Starlark.sizes (images args) ∧
      Starlark.weights (images args) ≤ Starlark.weights ts ∧
      (Starlark.weights ts = Starlark.weights (images args) → allNotsTaken args = true) ∧
      allNamesAllowed args = true
  | [], _, h => by
    cases h
    exact ⟨rfl, Nat.le_refl _, fun _ => rfl, rfl⟩
  | e :: args, ts, h => by
    simp only [readings, Option.bind_eq_bind, Option.bind_eq_some_iff] at h
    obtain ⟨t, ht, ts', hts, h⟩ := h
    cases h
    obtain ⟨hsize, hweight, htaken, hallowed⟩ := reading_compares e t ht
    obtain ⟨hsizes, hweights, htakens, halloweds⟩ := readings_compares args ts' hts
    refine ⟨?_, ?_, ?_, ?_⟩
    · simp only [images, Starlark.sizes]
      omega
    · simp only [images, Starlark.weights]
      omega
    · intro heq
      simp only [images, Starlark.weights] at heq
      simp [allNotsTaken, htaken (by omega), htakens (by omega)]
    · simp [allNamesAllowed, hallowed, halloweds]

end

end StReading
