import Tentacle.IndentedLines
import Tentacle.StCodegen
import Tentacle.StRoundTrip

/-!
# Structured Text: the blocks of the generated text

An empty block of a statement becomes `pass`, but the generator has two ways to leave a block
without a line. It writes nothing for a `CASE` that has neither clauses nor an `ELSE`, and it
writes no `pass` for a program whose `VAR` blocks have no initial value. A `CASE` that has only an
`ELSE` becomes an `else` without its `if`.
-/

namespace StBlocks

open StSyntax StCodegen IndentedLines
open BlockScript (Stmt Clause)

/-! ## Roles -/

/-- A header ends with a colon, which no other line does. -/
def role (text : Text) : Role :=
  if text.getLast? = some ':' then
    if "if ".toList.isPrefixOf text then .if_
    else if "elif ".toList.isPrefixOf text then .elif
    else if "else".toList.isPrefixOf text then .else_
    else if "def ".toList.isPrefixOf text || "for ".toList.isPrefixOf text then .header
    else .plain
  else .plain

theorem role_if (test : Text) : role ("if ".toList ++ test ++ [':']) = .if_ := by
  rw [role, if_pos List.getLast?_concat]
  rfl

theorem role_elif (test : Text) : role ("elif ".toList ++ test ++ [':']) = .elif := by
  rw [role, if_pos List.getLast?_concat]
  rfl

theorem role_else : role "else:".toList = .else_ := by decide

theorem role_def (name : Text) : role ("def ".toList ++ name ++ "():".toList) = .header := by
  have hsplit : "def ".toList ++ name ++ "():".toList =
      "def ".toList ++ name ++ ['(', ')'] ++ [':'] := by
    simp
  rw [hsplit, role, if_pos List.getLast?_concat]
  rfl

theorem role_for (var args : Text) :
    role ("for ".toList ++ var ++ " in range(".toList ++ args ++ "):".toList) = .header := by
  have hsplit : "for ".toList ++ var ++ " in range(".toList ++ args ++ "):".toList =
      "for ".toList ++ var ++ " in range(".toList ++ args ++ [')'] ++ [':'] := by
    simp
  rw [hsplit, role, if_pos List.getLast?_concat]
  rfl

theorem role_pass : role "pass".toList = .plain := by decide

theorem role_break : role "break".toList = .plain := by decide

theorem role_return : role "return".toList = .plain := by decide

theorem role_call [GoQuote] (name : Text) (args : List Expression) :
    role (expr (.callExpr name args)) = .plain := by
  have hsplit : expr (.callExpr name args) = name ++ '(' :: joinComma (exprs args) ++ [')'] := by
    simp [expr]
  rw [hsplit, role, List.getLast?_concat, if_neg (by decide)]

/-! ## Where the lines are well structured -/

/-- A `CASE` without clauses and without an `ELSE`. -/
def writesNothing : Statement → Bool
  | .caseStmt _ [] [] => true
  | _ => false

/-- The lines of the statement end with the block of an `if` or `elif`. -/
def leavesOpen : Statement → Bool
  | .ifStmt _ _ _ [] => true
  | .caseStmt _ (_ :: _) [] => true
  | _ => false

/-- Whether a conditional is open after a statement, by whether one is open before it. -/
def afterStmt (s : Statement) (isOpen : Bool) : Bool :=
  if writesNothing s then isOpen else leavesOpen s

def afterBlock : List Statement → Bool → Bool
  | [], isOpen => isOpen
  | s :: body, isOpen => afterBlock body (afterStmt s isOpen)

/-- The block is empty, and then a `pass`, or one of its statements writes a line. -/
def Filled (body : List Statement) : Prop := body = [] ∨ ∃ s ∈ body, writesNothing s = false

theorem filled_iff {body : List Statement} (h : body ≠ []) :
    Filled body ↔ ¬ ∀ s ∈ body, writesNothing s = true := by
  simp [Filled, h]

mutual

/-- All blocks are filled, and a `CASE` that has only an `ELSE` comes where a conditional is
open: directly after an `IF` or `CASE` without an `ELSE`, or at the start of a `WHILE`. -/
def Placed (isOpen : Bool) : List Statement → Prop
  | [] => True
  | s :: body => PlacedStmt isOpen s ∧ Placed (afterStmt s isOpen) body

def PlacedStmt (isOpen : Bool) : Statement → Prop
  | .ifStmt _ thenBody elsIfs elseBody =>
    (Filled thenBody ∧ Placed false thenBody) ∧ PlacedElsIfs elsIfs ∧
      (Filled elseBody ∧ Placed false elseBody)
  | .forStmt _ _ _ _ body => Filled body ∧ Placed false body
  | .whileStmt _ body => Placed true body
  | .repeatStmt body _ => Placed false body
  | .caseStmt _ cases elseBody =>
    PlacedCases cases ∧ (cases = [] → elseBody ≠ [] → isOpen = true) ∧
      (Filled elseBody ∧ Placed false elseBody)
  | .assignStmt _ _ => True
  | .callStmt _ _ => True
  | .returnStmt => True

def PlacedElsIfs : List ElsIfClause → Prop
  | [] => True
  | .mk _ body :: clauses => (Filled body ∧ Placed false body) ∧ PlacedElsIfs clauses

def PlacedCases : List CaseClause → Prop
  | [] => True
  | .mk _ body :: clauses => (Filled body ∧ Placed false body) ∧ PlacedCases clauses

end

/-! ## The shapes of the generated lines -/

theorem layoutBlock_append (depth : Nat) (xs ys : List Code) :
    layoutBlock depth (xs ++ ys) = layoutBlock depth xs ++ layoutBlock depth ys := by
  induction xs with
  | nil => simp [layoutBlock]
  | cons x xs ih => simp [layoutBlock, ih]

/-- The line that leaves the loop of a `WHILE` or `REPEAT`. -/
theorem shape_break (depth : Nat) (test : Text) :
    Shape role depth (layout depth (.if_ [.mk test [.break_]] [])) False (fun _ => True)
      (fun _ => true) := by
  have hline : Shape role (depth + 1) [(depth + 1, "break".toList)] False (fun _ => True)
      (fun _ => false) := Shape.line role_break
  have hheader : (role ("if ".toList ++ test ++ [':'])).isHeader = true := by rw [role_if]; rfl
  have hblock := Shape.block hheader hline
  rw [role_if] at hblock
  exact hblock.congr (by simp) (by simp [Role.continues]) (by simp [Role.opens])

/-- A loop over the numbers of a range. -/
theorem shape_forRange {depth : Nat} {var : Text} {args : List Text} {body : List Code}
    {empty : Prop} {ok : Bool → Prop} {after : Bool → Bool}
    (hbody : Shape role (depth + 1) (layoutBlock (depth + 1) body) empty ok after) :
    Shape role depth (layout depth (.forRange var args body)) False (fun _ => ¬ empty ∧ ok false)
      (fun _ => false) := by
  have hheader : (role ("for ".toList ++ var ++ " in range(".toList ++ joinComma args ++
      "):".toList)).isHeader = true := by rw [role_for]; rfl
  have hblock := Shape.block hheader hbody
  rw [role_for] at hblock
  rw [layout]
  exact hblock.congr (by simp) (by simp [Role.continues]) (by simp [Role.opens])

section Generated

variable [GoQuote]

/-- `stmtBlock`: the statements, or `pass`. -/
theorem shape_orPass {depth : Nat} {body : List Statement}
    (hbody : Shape role depth (layoutBlock depth (block body))
      (∀ s ∈ body, writesNothing s = true) (fun o => Placed o body) (afterBlock body)) :
    Shape role depth (layoutBlock depth (orPass (block body))) (¬ Filled body)
      (fun o => Placed o body) (fun o => if body = [] then false else afterBlock body o) := by
  cases body with
  | nil =>
    have hpass : Shape role depth [(depth, "pass".toList)] False (fun _ => True) (fun _ => false) :=
      Shape.line role_pass
    exact hpass.congr (by simp [Filled]) (by simp [Placed]) (by simp)
  | cons s body =>
    refine hbody.congr ?_ (fun o => Iff.rfl) (by simp)
    rw [filled_iff (List.cons_ne_nil s body), not_not]

/-- A clause with its block, and the clauses after it. -/
theorem shape_clause {depth : Nat} {keyword test : Text} {body : List Statement}
    {rest : List (Clause Text Text)} {r : Role} {empty : Prop} {ok : Bool → Prop}
    {after : Bool → Bool} (hrole : role (keyword ++ test ++ [':']) = r) (hopens : r.opens = true)
    (hbody : Shape role (depth + 1) (layoutBlock (depth + 1) (block body))
      (∀ s ∈ body, writesNothing s = true) (fun o => Placed o body) (afterBlock body))
    (hrest : Shape role depth (layoutClauses depth "elif ".toList rest) empty ok after) :
    Shape role depth (layoutClauses depth keyword (.mk test (orPass (block body)) :: rest)) False
      (fun o => (r.continues = true → o = true) ∧ (Filled body ∧ Placed false body) ∧ ok true)
      (fun _ => after true) := by
  subst hrole
  have happend := (Shape.block (Role.isHeader_of_opens hopens) (shape_orPass hbody)).append hrest
  rw [hopens] at happend
  rw [layoutClauses, ← List.cons_append]
  exact happend.congr (by simp) (fun o => by rw [not_not, and_assoc, and_assoc])
    (fun o => rfl)

/-- The `else` with its block, if there is one. -/
theorem shape_else {depth : Nat} {body : List Statement}
    (hbody : Shape role (depth + 1) (layoutBlock (depth + 1) (block body))
      (∀ s ∈ body, writesNothing s = true) (fun o => Placed o body) (afterBlock body)) :
    Shape role depth (layoutElse depth (block body)) (body = [])
      (fun o => (body ≠ [] → o = true) ∧ Filled body ∧ Placed false body)
      (fun o => if body = [] then o else false) := by
  cases body with
  | nil =>
    rw [block, layoutElse]
    exact (Shape.nil depth).congr (by simp) (by simp [Filled, Placed]) (by simp)
  | cons s body =>
    have hheader : (role "else:".toList).isHeader = true := by rw [role_else]; rfl
    have hblock := Shape.block hheader hbody
    rw [role_else, block, layoutBlock] at hblock
    rw [block, layoutElse]
    refine hblock.congr (by simp) (fun o => ?_) (by simp [Role.opens])
    rw [filled_iff (List.cons_ne_nil s body)]
    simp [Role.continues]

mutual

/-- A statement has its shape: empty or not, and what it asks of the line before. -/
theorem shape_stmt (depth : Nat) (s : Statement) :
    Shape role depth (layout depth (stmt s)) (writesNothing s = true)
      (fun o => PlacedStmt o s) (afterStmt s) := by
  cases s with
  | assignStmt target value =>
    have hline : Shape role depth [(depth, expr (.callExpr setVarWord [.stringLit target, value]))]
      False (fun _ => True) (fun _ => false) := Shape.line (role_call _ _)
    exact hline.congr (by simp [writesNothing]) (by simp [PlacedStmt])
      (by simp [afterStmt, writesNothing, leavesOpen])
  | callStmt name args =>
    have hline : Shape role depth [(depth, expr (.callExpr name args))] False (fun _ => True)
      (fun _ => false) := Shape.line (role_call _ _)
    exact hline.congr (by simp [writesNothing]) (by simp [PlacedStmt])
      (by simp [afterStmt, writesNothing, leavesOpen])
  | returnStmt =>
    have hline : Shape role depth [(depth, "return".toList)] False (fun _ => True)
      (fun _ => false) := Shape.line role_return
    exact hline.congr (by simp [writesNothing]) (by simp [PlacedStmt])
      (by simp [afterStmt, writesNothing, leavesOpen])
  | forStmt var start stop step body =>
    refine (shape_forRange (shape_orPass (shape_block (depth + 1) body))).congr ?_ ?_ ?_
    · simp [writesNothing]
    · simp [PlacedStmt]
    · simp [afterStmt, writesNothing, leavesOpen]
  | whileStmt condition body =>
    rw [stmt]
    have hbody := (shape_break (depth + 1) ("not (".toList ++ expr condition ++ [')'])).append
      (shape_orPass (shape_block (depth + 1) body))
    refine (shape_forRange hbody).congr ?_ ?_ ?_
    · simp [writesNothing]
    · simp [PlacedStmt]
    · simp [afterStmt, writesNothing, leavesOpen]
  | repeatStmt body condition =>
    rw [stmt]
    have hbody := (shape_orPass (shape_block (depth + 1) body)).append
      (shape_break (depth + 1) (expr condition))
    have hlines : layoutBlock (depth + 1)
        (orPass (block body) ++ [.if_ [.mk (expr condition) [.break_]] []]) =
        layoutBlock (depth + 1) (orPass (block body)) ++
          layout (depth + 1) (.if_ [.mk (expr condition) [.break_]] []) := by
      rw [layoutBlock_append, layoutBlock, layoutBlock, List.append_nil]
    rw [← hlines] at hbody
    refine (shape_forRange hbody).congr ?_ ?_ ?_
    · simp [writesNothing]
    · simp [PlacedStmt]
    · simp [afterStmt, writesNothing, leavesOpen]
  | ifStmt condition thenBody elsIfs elseBody =>
    rw [stmt, layout]
    have hclauses := shape_clause (role_if (expr condition)) rfl (shape_block (depth + 1) thenBody)
      (shape_elsIfs depth elsIfs)
    refine (hclauses.append (shape_else (shape_block (depth + 1) elseBody))).congr ?_ ?_ ?_
    · simp [writesNothing]
    · simp [PlacedStmt, Role.continues, and_assoc]
    · cases elseBody <;> simp [afterStmt, writesNothing, leavesOpen]
  | caseStmt expression cases elseBody =>
    rw [stmt, layout]
    have hclauses := shape_cases depth (expr expression) "if ".toList cases role_if rfl
    refine (hclauses.append (shape_else (shape_block (depth + 1) elseBody))).congr ?_ ?_ ?_
    · cases cases <;> cases elseBody <;> simp [writesNothing]
    · cases cases <;> simp [PlacedStmt, Role.continues]
    · cases cases <;> cases elseBody <;> simp [afterStmt, writesNothing, leavesOpen]

theorem shape_block (depth : Nat) (body : List Statement) :
    Shape role depth (layoutBlock depth (block body)) (∀ s ∈ body, writesNothing s = true)
      (fun o => Placed o body) (afterBlock body) := by
  cases body with
  | nil =>
    rw [block, layoutBlock]
    exact (Shape.nil depth).congr (by simp) (by simp [Placed]) (by simp [afterBlock])
  | cons s body =>
    rw [block, layoutBlock]
    refine ((shape_stmt depth s).append (shape_block depth body)).congr ?_ ?_ ?_
    · simp
    · simp [Placed]
    · simp [afterBlock]

/-- The further tests of an IF continue its first one. -/
theorem shape_elsIfs (depth : Nat) (clauses : List ElsIfClause) :
    Shape role depth (layoutClauses depth "elif ".toList (elsIfClauses clauses)) (clauses = [])
      (fun o => (clauses ≠ [] → o = true) ∧ PlacedElsIfs clauses)
      (fun o => if clauses = [] then o else true) := by
  cases clauses with
  | nil =>
    rw [elsIfClauses, layoutClauses]
    exact (Shape.nil depth).congr (by simp) (by simp [PlacedElsIfs]) (by simp)
  | cons clause clauses =>
    obtain ⟨condition, body⟩ := clause
    rw [elsIfClauses]
    refine (shape_clause (role_elif (expr condition)) rfl (shape_block (depth + 1) body)
      (shape_elsIfs depth clauses)).congr ?_ ?_ ?_
    · simp
    · simp [PlacedElsIfs, Role.continues]
    · simp

/-- The clauses of a CASE continue one another. -/
theorem shape_cases (depth : Nat) (expression keyword : Text) (clauses : List CaseClause) {r : Role}
    (hkeyword : ∀ test, role (keyword ++ test ++ [':']) = r) (hopens : r.opens = true) :
    Shape role depth (layoutClauses depth keyword (caseClauses expression clauses)) (clauses = [])
      (fun o => (clauses ≠ [] → r.continues = true → o = true) ∧ PlacedCases clauses)
      (fun o => if clauses = [] then o else true) := by
  cases clauses with
  | nil =>
    rw [caseClauses, layoutClauses]
    exact (Shape.nil depth).congr (by simp) (by simp [PlacedCases]) (by simp)
  | cons clause clauses =>
    obtain ⟨values, body⟩ := clause
    rw [caseClauses]
    refine (shape_clause (hkeyword _) hopens (shape_block (depth + 1) body)
      (shape_cases depth expression "elif ".toList clauses role_elif rfl)).congr ?_ ?_ ?_
    · simp
    · simp [PlacedCases]
    · simp

end

/-- The function has a line: an initial value, the `pass` of an empty program, or the first of a
statement that writes one. -/
def HasLine (p : Program) : Prop :=
  (∃ v ∈ varDecls p, v.initial ≠ none) ∨ (p.statements = [] ∧ p.varBlocks = []) ∨
    ∃ s ∈ p.statements, writesNothing s = false

omit [GoQuote] in
theorem hasLine_iff (p : Program) :
    HasLine p ↔ ¬(((∀ v ∈ varDecls p, v.initial = none) ∧
      ¬(p.statements = [] ∧ p.varBlocks = [])) ∧ ∀ s ∈ p.statements, writesNothing s = true) := by
  rw [HasLine, not_and_or, not_and_or, not_not, or_assoc]
  simp

theorem shape_initials (depth : Nat) (decls : List VarDecl) :
    Shape role depth
      (layoutBlock depth (decls.filterMap fun v => v.initial.map (setVar v.name)))
      (∀ v ∈ decls, v.initial = none) (fun _ => True)
      (fun o => if ∀ v ∈ decls, v.initial = none then o else false) := by
  induction decls with
  | nil =>
    rw [List.filterMap_nil, layoutBlock]
    exact (Shape.nil depth).congr (by simp) (by simp) (by simp)
  | cons v decls ih =>
    cases hinitial : v.initial with
    | none =>
      rw [List.filterMap_cons_none (by simp [hinitial])]
      exact ih.congr (by simp [hinitial]) (by simp) (by simp [hinitial])
    | some value =>
      rw [List.filterMap_cons_some (by rw [hinitial]; rfl), layoutBlock]
      have hline : Shape role depth (layout depth (setVar v.name value)) False (fun _ => True)
        (fun _ => false) := Shape.line (role_call _ _)
      exact (hline.append ih).congr (by simp [hinitial]) (by simp) (by simp [hinitial])

omit [GoQuote] in
/-- The `pass` of a program without statements and without variables. -/
theorem shape_emptyProgram (depth : Nat) (p : Program) :
    Shape role depth
      (layoutBlock depth (if p.statements = [] ∧ p.varBlocks = [] then [.pass] else []))
      (¬(p.statements = [] ∧ p.varBlocks = [])) (fun _ => True)
      (fun o => if p.statements = [] ∧ p.varBlocks = [] then false else o) := by
  by_cases h : p.statements = [] ∧ p.varBlocks = []
  · have hline : Shape role depth [(depth, "pass".toList)] False (fun _ => True) (fun _ => false) :=
      Shape.line role_pass
    rw [if_pos h]
    exact hline.congr (by simp [h]) (by simp) (by simp [h])
  · rw [if_neg h, layoutBlock]
    exact (Shape.nil depth).congr (by simp [h]) (by simp) (fun o => by rw [if_neg h]; rfl)

/-- The lines are well structured exactly if no block is without one. -/
theorem blockStructured_generate_iff (p : Program) :
    BlockStructured role (generate p) ↔ HasLine p ∧ Placed false p.statements := by
  have hheader : (role ("def ".toList ++ functionName p ++ "():".toList)).isHeader = true := by
    rw [role_def]
    rfl
  have hbody := ((shape_initials 1 (varDecls p)).append (shape_emptyProgram 1 p)).append
    (shape_block 1 p.statements)
  rw [← layoutBlock_append, ← layoutBlock_append] at hbody
  have hshape := Shape.block hheader hbody
  rw [blockStructured_iff]
  refine (hshape.sound []).trans ?_
  -- nothing before the statements leaves a conditional open
  have hclosed : (if p.statements = [] ∧ p.varBlocks = [] then false
      else if ∀ v ∈ varDecls p, v.initial = none then false else false) = false := by
    split <;> simp
  rw [hasLine_iff, role_def, hclosed]
  simp [Role.continues]

/-- The text of an accepted source is well structured exactly when its function has a line, every
block of a statement is empty or has a statement that writes a line, and a `CASE` with only an
`ELSE` stands only where a conditional is open. -/
theorem transpile_blockStructured_iff [LetterCase] {source : Text} {p : Program}
    (h : StParser.parse source = some (.ok p)) :
    transpile source = some (.ok ((generate p).flatMap writeLine, varDecls p)) ∧
      (BlockStructured role (generate p) ↔ HasLine p ∧ Placed false p.statements) :=
  ⟨by rw [transpile, h]; rfl, blockStructured_generate_iff p⟩

end Generated

/-- A loop and a choice, with an empty clause and an empty loop. -/
def tankProgram : Program where
  name := "tank".toList
  varBlocks := [⟨.var, [⟨"level".toList, "INT".toList, none⟩]⟩]
  statements := [.caseStmt (.identExpr "level".toList) [.mk [.numberLit "1".toList] []]
      [.callStmt "alarm".toList []],
    .whileStmt (.identExpr "pump".toList) []]

theorem transpile_blockStructured_tankProgram :
    letI := asciiQuote
    BlockStructured role (generate tankProgram) := by
  let _ := asciiQuote
  let _ := asciiCase
  have hparse : StParser.parse (StRender.render tankProgram) = some (.ok tankProgram) :=
    StRoundTrip.parse_render (by decide) (by decide)
  refine (transpile_blockStructured_iff hparse).2.mpr ⟨?_, ?_⟩
  · exact .inr (.inr ⟨_, List.mem_cons_self, rfl⟩)
  · simp [tankProgram, Placed, PlacedStmt, PlacedCases, Filled, writesNothing]

/-- Variables without initial values and no statements: the function has no line. -/
def levelProgram : Program where
  name := "count".toList
  varBlocks := [⟨.var, [⟨"level".toList, "INT".toList, none⟩]⟩]
  statements := []

theorem levelProgram_not_blockStructured :
    letI := asciiQuote
    letI := asciiCase
    StParser.parse "PROGRAM count VAR level : INT ; END_VAR END_PROGRAM ".toList =
        some (.ok levelProgram) ∧
      generate levelProgram = [(0, "def count():".toList)] ∧
      ¬ BlockStructured role (generate levelProgram) := by
  let _ := asciiQuote
  let _ := asciiCase
  have hrender : "PROGRAM count VAR level : INT ; END_VAR END_PROGRAM ".toList =
      StRender.render levelProgram := by decide +kernel
  refine ⟨by rw [hrender]; exact StRoundTrip.parse_render (by decide) (by decide), rfl, ?_⟩
  intro h
  obtain ⟨next, rest, hnext, -⟩ := h.followed [] _ _ rfl (by rw [role_def]; rfl)
  cases hnext

end StBlocks
