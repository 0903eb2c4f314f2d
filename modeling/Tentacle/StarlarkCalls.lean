import Tentacle.GoLiterals
import Tentacle.StReading

/-!
# Starlark files of calls

What `syntax.Parse` of go.starlark.net makes of a file, as far as a reader of calls looks at it. The
package is a parameter: a file that defines `main` and has nothing in it but calls with strings,
integers and calls for arguments is read as the grammar of Starlark has it, which is written out
here as a recursive descent over the logical lines of the file. Within parentheses a line goes on,
and a comment counts for nothing.
-/

namespace StarlarkCalls
open RecursiveDescent Starlark
open StSyntax (Text)
open StCodegen (mainWord digitsValue)
open GoLiterals (Printable quote unquote)

inductive LiteralToken where
  | string | int | other
  deriving DecidableEq

inductive Expr where
  | call (fn : Expr) (args : List Expr)
  | ident (name : Text)
  | literal (token : LiteralToken) (raw : Text)
  /-- Any other expression, by its Go type. -/
  | other (goType : Text)

inductive Stmt where
  | defStmt (name : Text) (body : List Stmt)
  | exprStmt (x : Expr)
  | other

def unaryExpr : Expr := .other "*syntax.UnaryExpr".toList

/-! ## Lines -/

/-- More of a line in front of it. -/
def prepend (t : Text) (p : Text × Text) : Text × Text := (t ++ p.1, p.2)

/-- The line that a text begins with, and what follows it. Within parentheses and outside a string
a newline is as good as a blank. -/
def logicalLine : Nat → Bool → Text → Option (Text × Text)
  | _, _, [] => none
  | depth, true, '\\' :: c :: s =>
    if c = '\n' then none else (logicalLine depth true s).map (prepend ['\\', c])
  | depth, true, c :: s =>
    if c = '\n' then none else (logicalLine depth (c ≠ '"') s).map (prepend [c])
  | depth, false, c :: s =>
    if c = '\n' then
      if depth = 0 then some ([], s) else (logicalLine depth false s).map (prepend [' '])
    else if c = '"' then (logicalLine depth true s).map (prepend [c])
    else if c = '(' then (logicalLine (depth + 1) false s).map (prepend [c])
    else if c = ')' then (logicalLine (depth - 1) false s).map (prepend [c])
    else if c = '#' ∨ c = '\\' then none
    else (logicalLine depth false s).map (prepend [c])

section Reader

variable [Printable]

/-- A string as `strconv.Quote` writes it, or the digits of a natural number. -/
def literalToken (raw : Text) : Option LiteralToken :=
  if (unquote raw).map quote = some raw then some .string
  else if Nat.toDigits 10 (digitsValue raw) = raw then some .int
  else none

def callOrLiteral (expr : P Expr) : P Expr := do
  let tok ← advance
  match tok with
  | .literal raw =>
    match literalToken raw with
    | some token => pure (.literal token raw)
    | none => fail ()
  | .word w =>
    if scannerWords.reserved w then fail ()
    else do
      expect "("
      let args ← separated (isPunct ")") (isPunct ",") expr
      expect ")"
      pure (.call (.ident w) args)
  | _ =>
    if isPunct "-" tok then do
      let _ ← expr
      pure unaryExpr
    else fail ()

def readExpr (line : Text) : Option Expr :=
  match recursive callOrLiteral (lex line) with
  | .ok x [] => some x
  | _ => none

/-- The expressions that stand one under the other, with blank lines and comments between them. -/
def readStatements : Nat → Text → Option (List Expr)
  | _, [] => some []
  | 0, _ :: _ => none
  | n + 1, '\n' :: s => readStatements n s
  | n + 1, ' ' :: ' ' :: ' ' :: ' ' :: '#' :: s => readStatements n (s.dropWhile (· ≠ '\n')).tail
  | n + 1, ' ' :: ' ' :: ' ' :: ' ' :: s =>
    if s.head? = some ' ' then none
    else do
      let (line, rest) ← logicalLine 0 false s
      let x ← readExpr line
      let xs ← readStatements n rest
      pure (x :: xs)
  | _ + 1, _ => none

def mainLine : Text := "def main():\n".toList

def readMain (text : Text) : Option (List Expr) :=
  if mainLine.isPrefixOf text then
    readStatements text.length (text.drop mainLine.length)
  else none

end Reader

/-- `syntax.Parse`. A definition has at least one statement in it. -/
class Syntax [Printable] where
  parse : Text → Except Text (List Stmt)
  parse_main : ∀ text body, readMain text = some body → body ≠ [] →
    parse text = .ok [.defStmt mainWord (body.map .exprStmt)]
  parse_empty : ∀ text, readMain text = some [] → ∃ err, parse text = .error err

/-- The parser that takes no other files. -/
@[reducible] def mainSyntax [Printable] : Syntax where
  parse text :=
    match readMain text with
    | some (x :: xs) => .ok [.defStmt mainWord ((x :: xs).map .exprStmt)]
    | _ => .error "syntax error".toList
  parse_main text body h hne := by
    cases body with
    | nil => exact absurd rfl hne
    | cons x xs => simp [h]
  parse_empty text h := by simp [h]

/-! ## Joining lines -/

def flat (t : Text) : Text := t.map fun c => if c = '\n' then ' ' else c

@[simp] theorem flat_append (s t : Text) : flat (s ++ t) = flat s ++ flat t := List.map_append

theorem flat_eq_self {t : Text} (h : '\n' ∉ t) : flat t = t := by
  rw [flat]
  refine (List.map_congr_left ?_).trans (List.map_id t)
  intro c hc
  apply if_neg
  rintro rfl
  exact h hc

theorem prepend_comp (s t : Text) : prepend s ∘ prepend t = prepend (s ++ t) := by
  funext p
  simp [prepend]

theorem prepend_nil : prepend [] = id := rfl

/-- A text that, within parentheses, is taken into the line as it stands. -/
def Joins (t : Text) : Prop :=
  ∀ depth rest, 0 < depth → logicalLine depth false (t ++ rest) =
    (logicalLine depth false rest).map (prepend (flat t))

theorem Joins.append {s t : Text} (hs : Joins s) (ht : Joins t) : Joins (s ++ t) := by
  intro depth rest hdepth
  rw [List.append_assoc, hs depth _ hdepth, ht depth rest hdepth, Option.map_map, prepend_comp,
    flat_append]

theorem joins_nil : Joins [] := by
  intro depth rest _
  change _ = (logicalLine depth false rest).map (prepend [])
  rw [prepend_nil, Option.map_id]
  rfl

/-- The character means nothing for the lines, or is a newline. -/
def isPlain (c : Char) : Bool := ! ['"', '(', ')', '#', '\\'].contains c

/-- A text without quotes, brackets and line breaks is joined as it is. -/
theorem joins_plain {t : Text} (h : t.all isPlain = true) : Joins t := by
  induction t with
  | nil => exact joins_nil
  | cons c t ih =>
    rw [List.all_cons, Bool.and_eq_true] at h
    have hc : c ≠ '"' ∧ c ≠ '(' ∧ c ≠ ')' ∧ c ≠ '#' ∧ c ≠ '\\' := by
      simpa [isPlain] using h.1
    have hcons : Joins [c] := by
      intro depth rest hdepth
      by_cases hline : c = '\n'
      · subst hline
        simp [logicalLine, Nat.ne_of_gt hdepth, flat]
      · simp [logicalLine, hline, hc, flat]
    exact hcons.append (ih h.2)

theorem logicalLine_parenthesised {t : Text} (h : Joins t) (depth : Nat) (rest : Text) :
    logicalLine depth false ('(' :: (t ++ ')' :: rest)) =
      (logicalLine depth false rest).map (prepend ('(' :: (flat t ++ [')']))) := by
  have hopen : logicalLine depth false ('(' :: (t ++ ')' :: rest)) =
      (logicalLine (depth + 1) false (t ++ ')' :: rest)).map (prepend ['(']) := by
    simp [logicalLine]
  have hclose : logicalLine (depth + 1) false (')' :: rest) =
      (logicalLine depth false rest).map (prepend [')']) := by
    simp [logicalLine]
  rw [hopen, h (depth + 1) _ (Nat.succ_pos depth), hclose, Option.map_map, Option.map_map,
    prepend_comp, prepend_comp]
  rfl

theorem joins_parenthesised {t : Text} (h : Joins t) : Joins ('(' :: (t ++ [')'])) := by
  intro depth rest _
  rw [List.cons_append, List.append_assoc, List.singleton_append, logicalLine_parenthesised h]
  congr 2
  simp [flat]

/-- A string up to its closing quote. -/
theorem logicalLine_string {body : Text} (h : StCodegen.isEscaped body = true)
    (hline : '\n' ∉ body) (depth : Nat) (rest : Text) :
    logicalLine depth true (body ++ '"' :: rest) =
      (logicalLine depth false rest).map (prepend (body ++ ['"'])) := by
  fun_induction StCodegen.isEscaped body with
  | case1 => simp [logicalLine]
  | case2 c s ih =>
    simp only [List.mem_cons, not_or] at hline
    have hnext := ih h hline.2.2
    rw [List.cons_append, List.cons_append, logicalLine, if_neg (Ne.symm hline.2.1), hnext,
      Option.map_map, prepend_comp]
    rfl
  | case3 => cases h
  | case4 c s h₁ h₂ ih =>
    simp only [Bool.and_eq_true, bne_iff_ne] at h
    simp only [List.mem_cons, not_or] at hline
    have hc : c ≠ '\\' := by
      rintro rfl
      cases s with
      | nil => exact h₂ rfl rfl
      | cons d s => exact h₁ d s rfl rfl
    have hnext := ih h.2 hline.2
    have hstep : logicalLine depth true (c :: (s ++ '"' :: rest)) =
        (logicalLine depth true (s ++ '"' :: rest)).map (prepend [c]) := by
      simp [logicalLine, hc, Ne.symm hline.1, h.1]
    rw [List.cons_append, hstep, hnext, Option.map_map, prepend_comp]
    rfl

/-- Characters that need no escape change nothing for the rest. -/
theorem isEscaped_append_of_plain {s : Text} (h : ∀ c ∈ s, c ≠ '"' ∧ c ≠ '\\') (t : Text) :
    StCodegen.isEscaped (s ++ t) = StCodegen.isEscaped t := by
  induction s with
  | nil => rfl
  | cons c s ih =>
    obtain ⟨hquote, hslash⟩ := h c List.mem_cons_self
    have hcons : StCodegen.isEscaped (c :: (s ++ t)) = StCodegen.isEscaped (s ++ t) := by
      rw [StCodegen.isEscaped.eq_def]
      split <;> simp_all
    rw [List.cons_append, hcons, ih fun d hd => h d (List.mem_cons_of_mem c hd)]

section Quoted

variable [Printable]

theorem isEscaped_escapeRune (c : Char) (t : Text) :
    StCodegen.isEscaped (GoLiterals.escapeRune c ++ t) = StCodegen.isEscaped t := by
  obtain ⟨d, h, -⟩ | ⟨h, hquote, hslash, -⟩ | ⟨letter, k, h, -⟩ := GoLiterals.escapeRune_cases c
  · rw [h]
    rfl
  · rw [h]
    apply isEscaped_append_of_plain
    simp [hquote, hslash]
  · rw [h]
    exact isEscaped_append_of_plain (fun d hd => (GoLiterals.hex_plain hd).2) t

theorem isEscaped_quoted (s : Text) :
    StCodegen.isEscaped (s.flatMap GoLiterals.escapeRune) = true := by
  induction s with
  | nil => rfl
  | cons c s ih => rw [List.flatMap_cons, isEscaped_escapeRune, ih]

/-- The literals of the library are what the generated Structured Text relies on too. -/
@[reducible] def goQuote : StCodegen.GoQuote where
  quote := quote
  quote_literal s := ⟨_, rfl, isEscaped_quoted s⟩

theorem lex_quote (s rest : Text) : lex (quote s ++ rest) = .literal (quote s) :: lex rest :=
  letI := goQuote
  StReading.lex_quote s rest

/-- A quoted text is joined as it is. -/
theorem joins_quote (s : Text) : Joins (quote s) := by
  intro depth rest _
  have hbody : '\n' ∉ s.flatMap GoLiterals.escapeRune := by
    intro hmem
    exact GoLiterals.newline_notMem_quote s
      (List.mem_cons_of_mem _ (List.mem_append_left _ hmem))
  have hopen : logicalLine depth false (quote s ++ rest) =
      (logicalLine depth true (s.flatMap GoLiterals.escapeRune ++ '"' :: rest)).map
        (prepend ['"']) := by
    simp [quote, logicalLine]
  rw [hopen, logicalLine_string (isEscaped_quoted s) hbody, Option.map_map, prepend_comp,
    flat_eq_self (GoLiterals.newline_notMem_quote s)]
  rfl

theorem literalToken_quote (s : Text) : literalToken (quote s) = some .string := by
  rw [literalToken, GoLiterals.unquote_quote, Option.map_some, if_pos rfl]

end Quoted

/-! ## Reading tokens -/

section Reading

open StReading (punct integerTokens digits)

variable [Printable]

/-- What the reader makes of the tokens, whatever follows them. -/
structure Reads (toks : List Tok) (x : Expr) : Prop where
  starts : ∀ rest, isPunct ")" (head (toks ++ rest)) = false
  reads : ∀ n rest, toks.length < n → unroll callOrLiteral n (toks ++ rest) = .ok x rest

theorem reads_literal {raw : Text} {token : LiteralToken} (h : literalToken raw = some token) :
    Reads [.literal raw] (.literal token raw) := by
  constructor
  · intro rest
    rfl
  · intro n rest hn
    obtain ⟨n, rfl⟩ : ∃ m, n = m + 1 := ⟨n - 1, by omega⟩
    simp [unroll, callOrLiteral, h]

theorem Reads.minus {toks : List Tok} {x : Expr} (h : Reads toks x) :
    Reads (punct "-" :: toks) unaryExpr := by
  constructor
  · intro rest
    rfl
  · intro n rest hn
    obtain ⟨n, rfl⟩ : ∃ m, n = m + 1 := ⟨n - 1, by omega⟩
    have hread := h.reads n rest (by simp only [List.length_cons] at hn; omega)
    simp [unroll, callOrLiteral, punct, hread, isPunct]

/-- A call of an allowed word is read with its arguments. -/
theorem reads_call {w : Text} (hw : scannerWords.reserved w = false) {toks : List Tok}
    {args : List Expr}
    (hargs : ∀ n rest, toks.length < n → separated (isPunct ")") (isPunct ",")
      (unroll callOrLiteral n) (toks ++ punct ")" :: rest) = .ok args (punct ")" :: rest)) :
    Reads (.word w :: punct "(" :: (toks ++ [punct ")"])) (.call (.ident w) args) := by
  constructor
  · intro rest
    rfl
  · intro n rest hn
    obtain ⟨n, rfl⟩ : ∃ m, n = m + 1 := ⟨n - 1, by omega⟩
    have hread := hargs n rest (by
      simp only [List.length_cons, List.length_append, List.length_nil] at hn
      omega)
    have hopen : expect "(" (punct "(" :: (toks ++ punct ")" :: rest)) =
        .ok () (toks ++ punct ")" :: rest) := rfl
    have hclose : expect ")" (punct ")" :: rest) = .ok () rest := rfl
    simp [unroll, callOrLiteral, hw, hopen, hread, hclose]

/-- A call with a comma behind each argument. -/
theorem reads_call_terminated {w : Text} (hw : scannerWords.reserved w = false)
    {args : List (List Tok × Expr)} (h : ∀ p ∈ args, Reads p.1 p.2) :
    Reads (.word w :: punct "(" :: (args.flatMap (fun p => p.1 ++ [punct ","]) ++ [punct ")"]))
      (.call (.ident w) (args.map (·.2))) := by
  apply reads_call hw
  intro n rest hn
  apply separated_terminated rfl rfl
  · exact fun p hp tail => (h p hp).starts tail
  · intro p hp tail
    apply (h p hp).reads n tail
    obtain ⟨front, back, rfl⟩ := List.append_of_mem hp
    simp only [List.flatMap_append, List.flatMap_cons, List.length_append] at hn
    omega

theorem reads_call_one {w : Text} (hw : scannerWords.reserved w = false) {toks : List Tok}
    {x : Expr} (h : Reads toks x) :
    Reads (.word w :: punct "(" :: (toks ++ [punct ")"])) (.call (.ident w) [x]) := by
  apply reads_call hw
  intro n rest hn
  exact separated_last (h.starts _) (h.reads n _ hn) rfl

theorem reads_call_two {w : Text} (hw : scannerWords.reserved w = false) {toks toks' : List Tok}
    {x y : Expr} (h : Reads toks x) (h' : Reads toks' y) :
    Reads (.word w :: punct "(" :: ((toks ++ punct "," :: toks') ++ [punct ")"]))
      (.call (.ident w) [x, y]) := by
  apply reads_call hw
  intro n rest hn
  rw [List.length_append, List.length_cons] at hn
  have hlast : separated (isPunct ")") (isPunct ",") (unroll callOrLiteral n)
      (toks' ++ punct ")" :: rest) = .ok [y] (punct ")" :: rest) :=
    separated_last (h'.starts _) (h'.reads n _ (by omega)) rfl
  rw [List.append_assoc, List.cons_append]
  apply separated_next (h.starts _) (h.reads n _ (by omega)) rfl _ hlast
  simp only [List.length_append, List.length_cons]
  omega

def integerExpr (n : Int) : Expr := if n < 0 then unaryExpr else .literal .int (digits n)

theorem literalToken_digits (n : Int) : literalToken (digits n) = some .int := by
  have hunquote : unquote (digits n) = none := by
    obtain ⟨c, s, hdigits, hc⟩ := StReading.digits_head n
    have hne : ∀ d, StSyntax.isDigit d = false → c ≠ d := by
      rintro d hd rfl
      cases hd.symm.trans hc
    rw [hdigits, unquote, if_neg (hne _ (by decide)), if_neg (hne _ (by decide)),
      if_neg fun h => hne _ (by decide) h.1]
  rw [literalToken, hunquote, Option.map_none, if_neg (by simp), if_pos]
  rw [digits, StCodegen.digitsValue_toDigits]

theorem reads_integer (n : Int) : Reads (integerTokens n) (integerExpr n) := by
  have hdigits := reads_literal (literalToken_digits n)
  rw [integerTokens, integerExpr]
  split
  next => exact hdigits.minus
  next => exact hdigits

theorem readExpr_of_reads {line : Text} {toks : List Tok} {x : Expr} (hline : lex line = toks)
    (h : Reads toks x) : readExpr line = some x := by
  have hread := h.reads (toks.length + 1) [] (Nat.lt_succ_self _)
  rw [List.append_nil] at hread
  rw [readExpr, recursive, hline, hread]

end Reading

end StarlarkCalls
