import Tentacle.StarlarkCalls

/-!
# Ladder programs as Starlark source

The graphical editor keeps a ladder program as Starlark: `GenerateLadder` writes it and
`ParseLadder` reads it back. A program comes back, with a branch path that is one series made the
path of that series, where it has a rung, no rung has a comment, which is written and never read,
and no preset is negative, since Starlark has no negative literals.
-/

namespace LadderSource
open StarlarkCalls
open Starlark (Tok lex)
open StSyntax (Text isDigit)
open StCodegen (itoa digitsValue maxInt mainWord)
open GoLiterals (Printable quote unquote)

/-! ## Programs -/

/-- The elements with a tag and no more. -/
inductive Instruction where
  | no | nc | ote | otl | otu | res
  deriving DecidableEq, Repr

/-- Timers and counters. -/
inductive Timed where
  | ton | tof | ctu | ctd
  deriving DecidableEq, Repr

def Instruction.type : Instruction → Text
  | .no => "NO".toList
  | .nc => "NC".toList
  | .ote => "OTE".toList
  | .otl => "OTL".toList
  | .otu => "OTU".toList
  | .res => "RES".toList

def Timed.type : Timed → Text
  | .ton => "TON".toList
  | .tof => "TOF".toList
  | .ctu => "CTU".toList
  | .ctd => "CTD".toList

inductive LadderElement where
  | tagged (type : Instruction) (tag : Text)
  | timed (type : Timed) (tag : Text) (preset : Int64)
  /-- Each child is a path. -/
  | branch (children : List (List LadderElement))
  /-- A single path. -/
  | series (path : List LadderElement)

structure LadderRung where
  comment : Text := []
  conditions : List LadderElement
  outputs : List LadderElement

structure LadderProgram where
  rungs : List LadderRung

def LadderElement.isCondition : LadderElement → Bool
  | .tagged type _ => type = .no || type = .nc
  | .timed _ _ _ => false
  | .branch _ => true
  | .series _ => true

def branchWord : Text := "branch".toList

def seriesWord : Text := "series".toList

def rungWord : Text := "rung".toList

/-! ## ParseLadder -/

section Parse

variable [Printable]

/-- The name of the function of a call, when that is a name. -/
def callName : Expr → Text
  | .ident name => name
  | _ => []

def goType : Expr → Text
  | .call _ _ => "*syntax.CallExpr".toList
  | .ident _ => "*syntax.Ident".toList
  | .literal _ _ => "*syntax.Literal".toList
  | .other goType => goType

/-- An error, with what it happened in before it. -/
def within {α : Type} (what : Text) (r : Except Text α) : Except Text α :=
  r.mapError fun err => what ++ ": ".toList ++ err

def argument (idx : Nat) : Text := "argument ".toList ++ Nat.toDigits 10 idx

def missing (idx : Nat) : Text := "missing ".toList ++ argument idx

def extractStringArg (args : List Expr) (idx : Nat) : Except Text Text :=
  match args[idx]? with
  | none => .error (missing idx)
  | some (.literal .string raw) => .ok ((unquote raw).getD raw)
  | some _ => .error (argument idx ++ ": expected string literal".toList)

/-- `strconv.Atoi`. -/
def atoi (s : Text) : Except Text Int64 :=
  let digits := if s.head? = some '-' ∨ s.head? = some '+' then s.tail else s
  let n : Int := if s.head? = some '-' then -digitsValue digits else digitsValue digits
  let failed (why : String) : Except Text Int64 :=
    .error ("strconv.Atoi: parsing ".toList ++ quote s ++ ": ".toList ++ why.toList)
  if digits = [] ∨ !digits.all isDigit then failed "invalid syntax"
  else if n < -maxInt - 1 ∨ maxInt < n then failed "value out of range"
  else .ok (.ofInt n)

def extractIntArg (args : List Expr) (idx : Nat) : Except Text Int64 :=
  match args[idx]? with
  | none => .error (missing idx)
  | some (.literal .int raw) => within (argument idx) (atoi raw)
  | some _ => .error (argument idx ++ ": expected integer literal".toList)

def instructions : List Instruction := [.no, .nc, .ote, .otl, .otu, .res]

def timers : List Timed := [.ton, .tof, .ctu, .ctd]

/-- An argument of a branch is a path; a series is unwrapped. -/
def pathOf : LadderElement → List LadderElement
  | .series path => path
  | child => [child]

mutual

def parseElement : Expr → Except Text LadderElement
  | .call fn args =>
    let name := callName fn
    match instructions.find? (·.type = name), timers.find? (·.type = name) with
    | some type, _ => do
      let tag ← within name (extractStringArg args 0)
      pure (.tagged type tag)
    | none, some type => do
      let tag ← within name (extractStringArg args 0)
      let preset ← within name (extractIntArg args 1)
      pure (.timed type tag preset)
    | none, none =>
      if name = branchWord then do
        let children ← within name (parseElements args)
        pure (.branch (children.map pathOf))
      else if name = seriesWord then do
        let path ← within name (parseElements args)
        pure (.series path)
      else .error ("unknown element: ".toList ++ name)
  | expr => .error ("expected call expression, got ".toList ++ goType expr)

/-- The elements in order, up to the first error. -/
def parseElements : List Expr → Except Text (List LadderElement)
  | [] => pure []
  | x :: xs => do
    let e ← parseElement x
    let es ← parseElements xs
    pure (e :: es)

end

/-- A call of anything but `rung` is skipped. -/
def parseRungCall (fn : Expr) (args : List Expr) : Except Text (Option LadderRung) :=
  if callName fn ≠ rungWord then pure none
  else do
    let elems ← within rungWord (parseElements args)
    pure (some
      { conditions := elems.filter LadderElement.isCondition
        outputs := elems.filter fun e => !e.isCondition })

def parseBody : List Stmt → Except Text (List LadderRung)
  | [] => pure []
  | .exprStmt (.call fn args) :: rest => do
    let rung ← parseRungCall fn args
    let rungs ← parseBody rest
    pure (rung.toList ++ rungs)
  | _ :: rest => parseBody rest

/-- The body of the first function `main`. -/
def findMain (stmts : List Stmt) : Option (List Stmt) :=
  stmts.findSome? fun
    | .defStmt name body => if name = mainWord then some body else none
    | _ => none

def parseLadder [Syntax] (source : Text) : Except Text LadderProgram := do
  let stmts ← within "parse".toList (Syntax.parse source)
  match findMain stmts with
  | none => .error "parse: no main() function found".toList
  | some body => LadderProgram.mk <$> parseBody body

end Parse

/-! ## GenerateLadder -/

section Generate

variable [Printable]

def indentation (indent : Nat) : Text := List.replicate (4 * indent) ' '

mutual

def appendElement : LadderElement → Nat → Text
  | .tagged type tag, indent => indentation indent ++ type.type ++ '(' :: (quote tag ++ [')'])
  | .timed type tag preset, indent =>
    indentation indent ++ type.type ++
      '(' :: (quote tag ++ ", ".toList ++ itoa preset.toInt ++ [')'])
  | .branch children, indent =>
    indentation indent ++ "branch(\n".toList ++ appendPaths children indent ++
      indentation indent ++ [')']
  | .series path, indent =>
    indentation indent ++ "series(\n".toList ++ appendElements path (indent + 1) ++
      indentation indent ++ [')']

def appendPaths : List (List LadderElement) → Nat → Text
  | [], _ => []
  | [e] :: paths, indent =>
    appendElement e (indent + 1) ++ ",\n".toList ++ appendPaths paths indent
  | path :: paths, indent =>
    indentation indent ++ "    series(\n".toList ++ appendElements path (indent + 2) ++
      indentation indent ++ "    )".toList ++ ",\n".toList ++ appendPaths paths indent

def appendElements : List LadderElement → Nat → Text
  | [], _ => []
  | e :: es, indent => appendElement e indent ++ ",\n".toList ++ appendElements es indent

end

def appendComment (comment : Text) : Text :=
  if comment = [] then [] else "    # ".toList ++ comment ++ ['\n']

def appendRung (rung : LadderRung) : Text :=
  appendComment rung.comment ++ "    rung(\n".toList ++
    appendElements (rung.conditions ++ rung.outputs) 2 ++ "    )\n".toList

/-- A blank line stands between two rungs. -/
def appendRungs : List LadderRung → Text
  | [] => []
  | [rung] => appendRung rung
  | rung :: rungs => appendRung rung ++ '\n' :: appendRungs rungs

def generateLadder (prog : LadderProgram) : Text := "def main():\n".toList ++ appendRungs prog.rungs

end Generate

/-! ## What comes back -/

mutual

/-- A path of a branch that is one series becomes the path of that series. -/
def unwrap : LadderElement → LadderElement
  | .tagged type tag => .tagged type tag
  | .timed type tag preset => .timed type tag preset
  | .branch children => .branch (unwrapPaths children)
  | .series path => .series (unwrapPath path)

def unwrapPaths : List (List LadderElement) → List (List LadderElement)
  | [] => []
  | [.series path] :: paths => unwrapPath path :: unwrapPaths paths
  | path :: paths => unwrapPath path :: unwrapPaths paths

def unwrapPath : List LadderElement → List LadderElement
  | [] => []
  | e :: es => unwrap e :: unwrapPath es

end

def LadderRung.unwrap (rung : LadderRung) : LadderRung :=
  { rung with
    conditions := rung.conditions.map LadderSource.unwrap
    outputs := rung.outputs.map LadderSource.unwrap }

def LadderProgram.unwrap (prog : LadderProgram) : LadderProgram :=
  ⟨prog.rungs.map LadderRung.unwrap⟩

mutual

/-- No timer or counter in the element has a negative preset. -/
def presetsNonneg : LadderElement → Bool
  | .tagged _ _ => true
  | .timed _ _ preset => 0 ≤ preset.toInt
  | .branch children => pathsNonneg children
  | .series path => pathNonneg path

def pathsNonneg : List (List LadderElement) → Bool
  | [] => true
  | path :: paths => pathNonneg path && pathsNonneg paths

def pathNonneg : List LadderElement → Bool
  | [] => true
  | e :: es => presetsNonneg e && pathNonneg es

end

/-! ## Paths as elements -/

/-- What a path of a branch is written as. -/
def written : List LadderElement → LadderElement
  | [e] => e
  | path => .series path

theorem written_cases (path : List LadderElement) :
    (∃ e, path = [e] ∧ written path = e) ∨ (path.length ≠ 1 ∧ written path = .series path) := by
  match path with
  | [] => exact .inr ⟨by simp, rfl⟩
  | [e] => exact .inl ⟨e, rfl, rfl⟩
  | e :: e' :: es => exact .inr ⟨by simp, rfl⟩

theorem unwrapPath_eq (path : List LadderElement) : unwrapPath path = path.map unwrap := by
  induction path with
  | nil => rfl
  | cons e es ih => rw [unwrapPath, ih, List.map_cons]

/-- The paths of a branch are unwrapped one by one. -/
theorem unwrapPaths_eq (children : List (List LadderElement)) :
    unwrapPaths children = children.map fun path => pathOf (unwrap (written path)) := by
  induction children with
  | nil => rfl
  | cons path paths ih =>
    rw [List.map_cons, ← ih]
    match path with
    | [] => rfl
    | [.series path] => simp [unwrapPaths, written, unwrap, pathOf]
    | [.tagged _ _] => rfl
    | [.timed _ _ _] => rfl
    | [.branch _] => rfl
    | e :: e' :: es => simp [unwrapPaths, written, unwrap, pathOf]

theorem pathNonneg_eq (path : List LadderElement) : pathNonneg path = path.all presetsNonneg := by
  induction path with
  | nil => rfl
  | cons e es ih => rw [pathNonneg, ih, List.all_cons]

theorem presetsNonneg_written (path : List LadderElement) :
    presetsNonneg (written path) = pathNonneg path := by
  obtain ⟨e, rfl, h⟩ | ⟨-, h⟩ := written_cases path
  · rw [h, pathNonneg_eq]
    simp
  · rw [h, presetsNonneg]

theorem pathsNonneg_eq (children : List (List LadderElement)) :
    pathsNonneg children = (children.map written).all presetsNonneg := by
  induction children with
  | nil => rfl
  | cons path paths ih =>
    rw [pathsNonneg, ih, List.map_cons, List.all_cons, presetsNonneg_written]

/-- The paths of a branch are written like elements, indented once more. -/
theorem appendPaths_eq [Printable] (children : List (List LadderElement)) (indent : Nat) :
    appendPaths children indent = appendElements (children.map written) (indent + 1) := by
  induction children with
  | nil => rfl
  | cons path paths ih =>
    have hindent : indentation (indent + 1) = indentation indent ++ "    ".toList := by
      rw [indentation, indentation, Nat.mul_succ, List.replicate_add]
      rfl
    rw [List.map_cons, appendElements, ← ih]
    match path with
    | [] => simp [appendPaths, written, appendElement, appendElements, hindent]
    | [e] => rfl
    | e :: e' :: es => simp [appendPaths, written, appendElement, hindent]

/-- Induction over elements, where a path of a branch counts as what it is written as. -/
theorem LadderElement.ind {P : LadderElement → Prop} (tagged : ∀ type tag, P (.tagged type tag))
    (timed : ∀ type tag preset, P (.timed type tag preset))
    (branch : ∀ children, (∀ e ∈ children.map written, P e) → P (.branch children))
    (series : ∀ path, (∀ e ∈ path, P e) → P (.series path)) : ∀ e, P e
  | .tagged type tag => tagged type tag
  | .timed type tag preset => timed type tag preset
  | .branch children => by
    apply branch
    intro e he
    obtain ⟨path, hpath, rfl⟩ := List.mem_map.mp he
    have hlt := List.sizeOf_lt_of_mem hpath
    obtain ⟨e, rfl, h⟩ | ⟨-, h⟩ := written_cases path
    · rw [h]
      exact LadderElement.ind tagged timed branch series e
    · rw [h]
      apply series
      intro e he
      have hlt' := List.sizeOf_lt_of_mem he
      exact LadderElement.ind tagged timed branch series e
  | .series path => by
    apply series
    intro e he
    have hlt := List.sizeOf_lt_of_mem he
    exact LadderElement.ind tagged timed branch series e
termination_by e => sizeOf e
decreasing_by
  · simp_all
    omega
  · simp_all
    omega
  · simp_all
    omega

/-! ## What is written is read -/

open StReading (punct integerTokens)

theorem joins_indentation (indent : Nat) : Joins (indentation indent) := by
  apply joins_plain
  rw [List.all_eq_true]
  intro c hc
  rw [List.eq_of_mem_replicate hc]
  rfl

theorem flat_indentation (indent : Nat) : flat (indentation indent) = indentation indent := by
  apply flat_eq_self
  intro hmem
  cases List.eq_of_mem_replicate hmem

theorem lex_blanks (n : Nat) (rest : Text) : lex (List.replicate n ' ' ++ rest) = lex rest := by
  induction n with
  | zero => rfl
  | succ n ih => rw [List.replicate_succ, List.cons_append, StReading.lex_blank, ih]

theorem lex_indentation (indent : Nat) (rest : Text) :
    lex (indentation indent ++ rest) = lex rest :=
  lex_blanks _ rest

/-- The text of a call, with what stands between its parentheses. -/
def callText (indent : Nat) (w inner : Text) : Text :=
  indentation indent ++ w ++ '(' :: (inner ++ [')'])

/-- A word that means nothing for the lines. -/
def isCallWord (w : Text) : Bool :=
  StRender.isWord w && w.all isPlain && !w.contains '\n' && !Starlark.scannerWords.reserved w

theorem joins_call {w inner : Text} (indent : Nat) (hw : isCallWord w = true)
    (h : Joins inner) : Joins (callText indent w inner) := by
  simp only [isCallWord, Bool.and_eq_true] at hw
  exact ((joins_indentation indent).append (joins_plain hw.1.1.2)).append (joins_parenthesised h)

/-- A call is read as its word, its brackets and what stands between them. -/
theorem lex_call {w inner : Text} {toks : List Tok} (indent : Nat) (hw : isCallWord w = true)
    (h : ∀ rest, lex (flat inner ++ ')' :: rest) = toks ++ punct ")" :: lex rest) (rest : Text) :
    lex (flat (callText indent w inner) ++ rest) =
      .word w :: punct "(" :: (toks ++ [punct ")"]) ++ lex rest := by
  simp only [isCallWord, Bool.and_eq_true, Bool.not_eq_true'] at hw
  have hflat : flat (callText indent w inner) ++ rest =
      indentation indent ++ (w ++ '(' :: (flat inner ++ ')' :: rest)) := by
    have hword : flat w = w := flat_eq_self (by simpa using hw.1.2)
    have hparen : flat ('(' :: (inner ++ [')'])) = '(' :: (flat inner ++ [')']) := by
      simp [flat]
    simp [callText, flat_indentation, hword, hparen]
  have hstops : StRender.Stops StSyntax.isIdentPart ('(' :: (flat inner ++ ')' :: rest)) :=
    StRender.stops_cons (by decide) _
  rw [hflat, lex_indentation, StReading.lex_word hw.1.1.1 hstops, StReading.lex_lparen, h]
  simp

theorem toOption_bind {α β : Type} (r : Except Text α) (f : α → Except Text β) :
    (r >>= f).toOption = r.toOption.bind fun a => (f a).toOption := by
  cases r <;> rfl

theorem toOption_map {α β : Type} (f : α → β) (r : Except Text α) :
    (f <$> r).toOption = r.toOption.map f := by
  cases r <;> rfl

theorem bind_eq_ok {α β : Type} {r : Except Text α} {f : α → Except Text β} {b : β}
    (h : (r >>= f) = .ok b) : ∃ a, r = .ok a ∧ f a = .ok b := by
  cases r with
  | error err => cases h
  | ok a => exact ⟨a, rfl, h⟩

theorem toOption_within {α : Type} (what : Text) (r : Except Text α) :
    (within what r).toOption = r.toOption := by
  cases r <;> rfl

theorem toOption_pure {α : Type} (a : α) : (pure a : Except Text α).toOption = some a := rfl

/-- The digits of a number need no quotes and break no line. -/
theorem itoa_plain (n : Int) : ∀ c ∈ itoa n, isPlain c = true ∧ c ≠ '\n' := by
  have hdigit : ∀ c ∈ Nat.toDigits 10 n.natAbs, isPlain c = true ∧ c ≠ '\n' := by
    intro c hc
    have hc : isDigit c = true := Nat.isDigit_of_mem_toDigits (by omega) (by omega) hc
    have hne : ∀ d, isDigit d = false → c ≠ d := by
      rintro d hd rfl
      cases hd.symm.trans hc
    refine ⟨?_, hne '\n' (by decide)⟩
    simp [isPlain, hne '"' (by decide), hne '(' (by decide), hne ')' (by decide),
      hne '#' (by decide), hne '\\' (by decide)]
  intro c hc
  rw [itoa] at hc
  split at hc
  next =>
    obtain rfl | hc := List.mem_cons.mp hc
    · decide
    · exact hdigit c hc
  next => exact hdigit c hc

theorem isCondition_unwrap (e : LadderElement) : (unwrap e).isCondition = e.isCondition := by
  cases e <;> rfl

/-- A rung holds conditions and outputs where they belong. -/
structure LadderRung.Sorted (rung : LadderRung) : Prop where
  conditions : ∀ e ∈ rung.conditions, e.isCondition = true
  outputs : ∀ e ∈ rung.outputs, e.isCondition = false

/-- Sorted rungs have their conditions first, so that the filters find them again. -/
theorem filter_sorted {rung : LadderRung} (h : rung.Sorted) :
    ((rung.conditions ++ rung.outputs).map unwrap).filter LadderElement.isCondition =
        rung.conditions.map unwrap ∧
      ((rung.conditions ++ rung.outputs).map unwrap).filter (fun e => !e.isCondition) =
        rung.outputs.map unwrap := by
  have hconditions : ∀ e ∈ rung.conditions.map unwrap, e.isCondition = true := by
    intro e he
    obtain ⟨e', he', rfl⟩ := List.mem_map.mp he
    rw [isCondition_unwrap, h.conditions e' he']
  have houtputs : ∀ e ∈ rung.outputs.map unwrap, e.isCondition = false := by
    intro e he
    obtain ⟨e', he', rfl⟩ := List.mem_map.mp he
    rw [isCondition_unwrap, h.outputs e' he']
  rw [List.map_append, List.filter_append, List.filter_append, List.filter_eq_self.mpr hconditions,
    List.filter_eq_nil_iff.mpr fun e he => by simp [houtputs e he], List.append_nil,
    List.filter_eq_nil_iff.mpr fun e he => by simp [hconditions e he], List.nil_append,
    List.filter_eq_self.mpr fun e he => by simp [houtputs e he]]
  exact ⟨rfl, rfl⟩

section Written

variable [Printable]

/-- The text of an element is taken into a line, lexed to these tokens and read as this expression,
which is parsed to the element that comes back. -/
structure Writes (e : LadderElement) (toks : List Tok) (x : Expr) : Prop where
  joins : ∀ indent, Joins (appendElement e indent)
  lexes : ∀ indent rest, lex (flat (appendElement e indent) ++ rest) = toks ++ lex rest
  reads : Reads toks x
  parses : (parseElement x).toOption = if presetsNonneg e then some (unwrap e) else none

/-- The same for elements with a comma and a newline behind each. -/
structure WritesAll (es : List LadderElement) (args : List (List Tok × Expr)) : Prop where
  joins : ∀ indent, Joins (appendElements es indent)
  lexes : ∀ indent rest, lex (flat (appendElements es indent) ++ rest) =
    args.flatMap (fun p => p.1 ++ [punct ","]) ++ lex rest
  reads : ∀ p ∈ args, Reads p.1 p.2
  parses : (parseElements (args.map (·.2))).toOption =
    if es.all presetsNonneg then some (es.map unwrap) else none

/-- Elements that can each be written can be written one after the other. -/
theorem writesAll {es : List LadderElement} (h : ∀ e ∈ es, ∃ toks x, Writes e toks x) :
    ∃ args, WritesAll es args := by
  induction es with
  | nil =>
    refine ⟨[], ⟨fun _ => joins_nil, fun _ _ => rfl, nofun, rfl⟩⟩
  | cons e es ih =>
    obtain ⟨toks, x, he⟩ := h e List.mem_cons_self
    obtain ⟨args, hes⟩ := ih fun e' he' => h e' (List.mem_cons_of_mem e he')
    refine ⟨(toks, x) :: args, ⟨?_, ?_, ?_, ?_⟩⟩
    · intro indent
      exact ((he.joins indent).append (joins_plain (by decide))).append (hes.joins indent)
    · intro indent rest
      have hcomma : flat ",\n".toList = [',', ' '] := rfl
      rw [appendElements, flat_append, flat_append, hcomma, List.append_assoc, List.append_assoc,
        he.lexes, List.cons_append, List.cons_append, List.nil_append, StReading.lex_comma,
        StReading.lex_blank, hes.lexes]
      simp
    · intro p hp
      obtain rfl | hp := List.mem_cons.mp hp
      · exact he.reads
      · exact hes.reads p hp
    · rw [List.map_cons, parseElements, toOption_bind, he.parses, List.all_cons]
      cases presetsNonneg e with
      | false => rfl
      | true =>
        simp only [if_true, Option.bind_some, toOption_bind, hes.parses, toOption_pure]
        cases es.all presetsNonneg <;> rfl

/-- Elements between the parentheses of a call, the closing one on a line of its own. -/
def lines (es : List LadderElement) (inner indent : Nat) : Text :=
  '\n' :: (appendElements es inner ++ indentation indent)

theorem WritesAll.joins_lines {es : List LadderElement} {args : List (List Tok × Expr)}
    (h : WritesAll es args) (inner indent : Nat) : Joins (lines es inner indent) := by
  have hnewline : Joins ['\n'] := joins_plain (by decide)
  exact hnewline.append ((h.joins inner).append (joins_indentation indent))

/-- The lines of the elements are read as their tokens, with a comma behind each. -/
theorem WritesAll.lex_lines {es : List LadderElement} {args : List (List Tok × Expr)}
    (h : WritesAll es args) (inner indent : Nat) (rest : Text) :
    lex (flat (lines es inner indent) ++ ')' :: rest) =
      args.flatMap (fun p => p.1 ++ [punct ","]) ++ punct ")" :: lex rest := by
  have hflat : flat (lines es inner indent) =
      ' ' :: (flat (appendElements es inner) ++ flat (indentation indent)) := by
    rw [← flat_append]
    rfl
  rw [hflat, flat_indentation, List.cons_append, StReading.lex_blank, List.append_assoc, h.lexes,
    lex_indentation, StReading.lex_rparen]

/-- A branch or a series: a call with an element on each line. -/
theorem writes_call {e : LadderElement} {es : List LadderElement} {args : List (List Tok × Expr)}
    {w : Text} (hw : isCallWord w = true) (h : WritesAll es args) (inner : Nat → Nat)
    (htext : ∀ indent, appendElement e indent = callText indent w (lines es (inner indent) indent))
    (hparses : (parseElement (.call (.ident w) (args.map (·.2)))).toOption =
      if presetsNonneg e then some (unwrap e) else none) :
    ∃ toks x, Writes e toks x := by
  have hreserved : Starlark.scannerWords.reserved w = false := by
    simp only [isCallWord, Bool.and_eq_true, Bool.not_eq_true'] at hw
    exact hw.2
  refine ⟨_, _, ⟨?_, ?_, reads_call_terminated hreserved h.reads, hparses⟩⟩
  · intro indent
    rw [htext]
    exact joins_call indent hw (h.joins_lines _ indent)
  · intro indent rest
    rw [htext]
    exact lex_call indent hw (h.lex_lines _ indent) rest

theorem parseElement_tagged (type : Instruction) (args : List Expr) :
    parseElement (.call (.ident type.type) args) = (do
      let tag ← within type.type (extractStringArg args 0)
      pure (.tagged type tag)) := by
  cases type <;> rfl

theorem parseElement_timed (type : Timed) (args : List Expr) :
    parseElement (.call (.ident type.type) args) = (do
      let tag ← within type.type (extractStringArg args 0)
      let preset ← within type.type (extractIntArg args 1)
      pure (.timed type tag preset)) := by
  cases type <;> rfl

theorem parseElement_branch (args : List Expr) :
    parseElement (.call (.ident branchWord) args) = (do
      let children ← within branchWord (parseElements args)
      pure (.branch (children.map pathOf))) := rfl

theorem parseElement_series (args : List Expr) :
    parseElement (.call (.ident seriesWord) args) = (do
      let path ← within seriesWord (parseElements args)
      pure (.series path)) := rfl

theorem extractStringArg_quote (tag : Text) (args : List Expr) :
    extractStringArg (.literal .string (quote tag) :: args) 0 = .ok tag := by
  simp [extractStringArg, GoLiterals.unquote_quote]

/-- An element with a tag is read back as the call it was written as. -/
theorem writes_tagged (type : Instruction) (tag : Text) :
    ∃ toks x, Writes (.tagged type tag) toks x := by
  have hw : isCallWord type.type = true := by
    cases type <;> decide
  have hreserved : Starlark.scannerWords.reserved type.type = false := by
    cases type <;> decide
  refine ⟨_, _, ⟨?_, ?_, reads_call_one hreserved (reads_literal (literalToken_quote tag)), ?_⟩⟩
  · intro indent
    exact joins_call indent hw (joins_quote tag)
  · intro indent rest
    apply lex_call indent hw
    intro rest
    rw [flat_eq_self (GoLiterals.newline_notMem_quote tag), lex_quote, StReading.lex_rparen]
    rfl
  · rw [parseElement_tagged, extractStringArg_quote]
    rfl

/-- Digits without a sign. -/
theorem atoi_digits {n : Int64} (h : 0 ≤ n.toInt) : atoi (StReading.digits n.toInt) = .ok n := by
  obtain ⟨c, s, hdigits, hc⟩ := StReading.digits_head n.toInt
  have hne : ∀ d, isDigit d = false → c ≠ d := by
    rintro d hd rfl
    cases hd.symm.trans hc
  have hminus := hne '-' (by decide)
  have hplus := hne '+' (by decide)
  have hall : (StReading.digits n.toInt).all isDigit = true := by
    rw [List.all_eq_true]
    intro c hc
    exact Nat.isDigit_of_mem_toDigits (by omega) (by omega) hc
  have hvalue : (digitsValue (StReading.digits n.toInt) : Int) = n.toInt := by
    rw [StReading.digits, StCodegen.digitsValue_toDigits]
    omega
  have hlt : n.toInt ≤ maxInt := by
    have hmax := n.toInt_lt
    rw [maxInt]
    omega
  have hrange : ¬ (n.toInt < -maxInt - 1 ∨ maxInt < n.toInt) := by
    rw [maxInt] at hlt ⊢
    omega
  rw [atoi, hdigits]
  simp only [List.head?_cons, Option.some.injEq, hminus, hplus, or_self, if_false]
  rw [← hdigits, hall, hvalue, if_neg hrange, Int64.ofInt_toInt]
  simp [hdigits]

theorem writes_timed (type : Timed) (tag : Text) (preset : Int64) :
    ∃ toks x, Writes (.timed type tag preset) toks x := by
  have hw : isCallWord type.type = true := by
    cases type <;> decide
  have hreserved : Starlark.scannerWords.reserved type.type = false := by
    cases type <;> decide
  have hplain := itoa_plain preset.toInt
  refine ⟨_, _, ⟨?_, ?_, reads_call_two hreserved (reads_literal (literalToken_quote tag))
    (reads_integer preset.toInt), ?_⟩⟩
  · intro indent
    apply joins_call indent hw
    apply ((joins_quote tag).append (joins_plain (by decide))).append
    apply joins_plain
    rw [List.all_eq_true]
    exact fun c hc => (hplain c hc).1
  · intro indent rest
    apply lex_call indent hw
    intro rest
    have hflat : flat (quote tag ++ ", ".toList ++ itoa preset.toInt) =
        quote tag ++ ',' :: ' ' :: itoa preset.toInt := by
      rw [flat_append, flat_append, flat_eq_self (GoLiterals.newline_notMem_quote tag),
        flat_eq_self fun hmem => (hplain _ hmem).2 rfl, List.append_assoc]
      rfl
    rw [hflat, List.append_assoc, List.cons_append, List.cons_append, lex_quote,
      StReading.lex_comma, StReading.lex_blank,
      StReading.lex_integer _ (StReading.delimited_cons (by decide) rest), StReading.lex_rparen]
    simp
  · rw [parseElement_timed, extractStringArg_quote, toOption_bind, toOption_within,
      Except.toOption, Option.bind_some, toOption_bind, toOption_within, presetsNonneg, integerExpr]
    by_cases hneg : preset.toInt < 0
    · rw [if_pos hneg]
      simp [extractIntArg, unaryExpr, Except.toOption, Int.not_le.mpr hneg]
    · have hnonneg : 0 ≤ preset.toInt := Int.not_lt.mp hneg
      rw [if_neg hneg]
      simp [extractIntArg, atoi_digits hnonneg, within, Except.toOption, Except.mapError, hnonneg,
        unwrap]
      rfl

theorem writes : ∀ e : LadderElement, ∃ toks x, Writes e toks x := by
  intro e
  induction e using LadderElement.ind with
  | tagged type tag => exact writes_tagged type tag
  | timed type tag preset => exact writes_timed type tag preset
  | branch children ih =>
    obtain ⟨args, h⟩ := writesAll ih
    apply writes_call (w := branchWord) (by decide) h (· + 1)
    · intro indent
      have hopen : "branch(\n".toList = branchWord ++ ['(', '\n'] := rfl
      rw [appendElement, appendPaths_eq, hopen]
      simp only [callText, lines, List.append_assoc, List.cons_append, List.nil_append]
    · rw [parseElement_branch, toOption_bind, toOption_within, h.parses, presetsNonneg,
        pathsNonneg_eq, unwrap, unwrapPaths_eq]
      cases (children.map written).all presetsNonneg with
      | false => rfl
      | true => simp [toOption_pure]
  | series path ih =>
    obtain ⟨args, h⟩ := writesAll ih
    apply writes_call (w := seriesWord) (by decide) h (· + 1)
    · intro indent
      have hopen : "series(\n".toList = seriesWord ++ ['(', '\n'] := rfl
      rw [appendElement, hopen]
      simp only [callText, lines, List.append_assoc, List.cons_append, List.nil_append]
    · rw [parseElement_series, toOption_bind, toOption_within, h.parses, presetsNonneg,
        pathNonneg_eq, unwrap, unwrapPath_eq]
      cases path.all presetsNonneg <;> rfl

/-- An indented line is one statement, and the next one starts behind it. -/
theorem readStatements_statement {s line rest : Text} {x : Expr} {xs : List Expr} {n : Nat}
    {c : Char} (hs : s.head? = some c) (hc : c ≠ ' ' ∧ c ≠ '#')
    (hline : logicalLine 0 false s = some (line, rest)) (hx : readExpr line = some x)
    (hxs : readStatements n rest = some xs) :
    readStatements (n + 1) ("    ".toList ++ s) = some (x :: xs) := by
  cases s with
  | nil => cases hs
  | cons d s =>
    cases hs
    change readStatements (n + 1) (' ' :: ' ' :: ' ' :: ' ' :: c :: s) = _
    rw [readStatements]
    · simp [hc.1, hline, hx, hxs]
    · rintro t ht
      cases ht
      exact hc.2 rfl

/-- A rung without a comment is one statement. -/
theorem readStatements_rung {rung : LadderRung} {args : List (List Tok × Expr)}
    (hcomment : rung.comment = []) (h : WritesAll (rung.conditions ++ rung.outputs) args)
    {rest : Text} {xs : List Expr} {n : Nat} (hxs : readStatements n rest = some xs) :
    readStatements (n + 1) (appendRung rung ++ rest) =
      some (.call (.ident rungWord) (args.map (·.2)) :: xs) := by
  have htext : appendRung rung ++ rest = "    ".toList ++ (rungWord ++ '(' ::
      (lines (rung.conditions ++ rung.outputs) 2 1 ++ ')' :: '\n' :: rest)) := by
    have hindent : indentation 1 = "    ".toList := rfl
    simp [appendRung, appendComment, hcomment, rungWord, lines, hindent]
  have hword : ∀ s, logicalLine 0 false (rungWord ++ s) =
      (logicalLine 0 false s).map (prepend rungWord) := by
    intro s
    change logicalLine 0 false ('r' :: 'u' :: 'n' :: 'g' :: s) = _
    simp [logicalLine, prepend_comp]
    rfl
  have hend : logicalLine 0 false ('\n' :: rest) = some ([], rest) := by
    simp [logicalLine]
  have hline := logicalLine_parenthesised (h.joins_lines 2 1) 0 ('\n' :: rest)
  rw [hend, Option.map_some] at hline
  have hlex := lex_call 0 (w := rungWord) (by decide) (h.lex_lines 2 1) []
  rw [htext]
  have hstatement := (hword _).trans (congrArg _ hline)
  refine readStatements_statement (c := 'r') rfl (by decide) hstatement ?_ hxs
  apply readExpr_of_reads _ (reads_call_terminated (by decide) h.reads)
  rw [List.append_nil, StReading.lex_nil, List.append_nil] at hlex
  rw [← hlex]
  simp [prepend, callText, indentation, flat, rungWord]

def LadderRung.presetsNonneg (rung : LadderRung) : Bool :=
  (rung.conditions ++ rung.outputs).all LadderSource.presetsNonneg

/-- A sorted rung without a comment is parsed back, unless a preset is negative. -/
theorem parses_rung {rung : LadderRung} {args : List (List Tok × Expr)} (hsorted : rung.Sorted)
    (hcomment : rung.comment = []) (h : WritesAll (rung.conditions ++ rung.outputs) args) :
    (parseRungCall (.ident rungWord) (args.map (·.2))).toOption =
      if rung.presetsNonneg then some (some rung.unwrap) else none := by
  obtain ⟨hconditions, houtputs⟩ := filter_sorted hsorted
  have hname : ¬ callName (.ident rungWord) ≠ rungWord := not_not.mpr rfl
  rw [parseRungCall, if_neg hname, toOption_bind, toOption_within, h.parses,
    LadderRung.presetsNonneg]
  cases (rung.conditions ++ rung.outputs).all presetsNonneg with
  | false => rfl
  | true =>
    simp only [if_true, Option.bind_some, toOption_pure, hconditions, houtputs, LadderRung.unwrap,
      hcomment]

/-- The rungs are read as one call each. -/
theorem reads_rungs {rungs : List LadderRung} (hsorted : ∀ rung ∈ rungs, rung.Sorted)
    (hcomments : ∀ rung ∈ rungs, rung.comment = []) :
    ∃ calls : List Expr, calls.length = rungs.length ∧
      (∀ n, (appendRungs rungs).length ≤ n →
        readStatements n (appendRungs rungs) = some calls) ∧
      (parseBody (calls.map .exprStmt)).toOption =
        if rungs.all LadderRung.presetsNonneg then some (rungs.map LadderRung.unwrap)
        else none := by
  induction rungs with
  | nil =>
    refine ⟨[], rfl, ?_, rfl⟩
    intro n _
    cases n <;> rfl
  | cons rung rungs ih =>
    obtain ⟨calls, hlength, hread, hparse⟩ := ih
      (fun r hr => hsorted r (List.mem_cons_of_mem rung hr))
      (fun r hr => hcomments r (List.mem_cons_of_mem rung hr))
    have hcomment := hcomments rung List.mem_cons_self
    have hwrites : ∀ e ∈ rung.conditions ++ rung.outputs, ∃ toks x, Writes e toks x :=
      fun e _ => writes e
    obtain ⟨args, hargs⟩ := writesAll hwrites
    refine ⟨.call (.ident rungWord) (args.map (·.2)) :: calls, by simp [hlength], ?_, ?_⟩
    · intro n hn
      have hpos : 0 < (appendRung rung).length := by
        simp [appendRung]
      obtain ⟨n, rfl⟩ : ∃ m, n = m + 1 := ⟨n - 1, by
        cases rungs <;> simp [appendRungs] at hn <;> omega⟩
      cases rungs with
      | nil =>
        cases List.length_eq_zero_iff.mp hlength
        rw [appendRungs, ← List.append_nil (appendRung rung)]
        apply readStatements_rung hcomment hargs
        cases n <;> rfl
      | cons next rungs =>
        rw [appendRungs]
        · apply readStatements_rung hcomment hargs
          rw [appendRungs] at hn
          · simp only [List.length_append, List.length_cons] at hn
            obtain ⟨n, rfl⟩ : ∃ m, n = m + 1 := ⟨n - 1, by omega⟩
            exact hread n (by omega)
          · exact nofun
        · exact nofun
    · rw [List.map_cons, parseBody, toOption_bind, parses_rung (hsorted rung List.mem_cons_self)
        hcomment hargs, List.all_cons]
      cases rung.presetsNonneg with
      | false => rfl
      | true =>
        simp only [if_true, Option.bind_some, toOption_bind, hparse, toOption_pure]
        cases rungs.all LadderRung.presetsNonneg <;> rfl

/-- No call of a rung carries a comment. -/
theorem comment_parseRungCall {fn : Expr} {args : List Expr} {rung : Option LadderRung}
    (h : parseRungCall fn args = .ok rung) : ∀ r ∈ rung, r.comment = [] := by
  rw [parseRungCall] at h
  split at h
  next =>
    cases h
    exact nofun
  next =>
    obtain ⟨elems, -, ⟨⟩⟩ := bind_eq_ok h
    rintro r ⟨⟩
    rfl

/-- The parser reads no comments. -/
theorem comment_parseBody {stmts : List Stmt} {rungs : List LadderRung}
    (h : parseBody stmts = .ok rungs) : ∀ rung ∈ rungs, rung.comment = [] := by
  fun_induction parseBody stmts generalizing rungs with
  | case1 =>
    cases h
    exact nofun
  | case2 fn args rest ih =>
    obtain ⟨rung, hrung, h⟩ := bind_eq_ok h
    obtain ⟨others, hothers, ⟨⟩⟩ := bind_eq_ok h
    intro r hr
    obtain hr | hr := List.mem_append.mp hr
    · exact comment_parseRungCall hrung r (Option.mem_toList.mp hr)
    · exact ih hothers r hr
  | case3 stmt rest _ ih => exact ih h

/-- No rung of a parsed program has a comment. -/
theorem comment_parseLadder [Syntax] {source : Text} {q : LadderProgram}
    (h : parseLadder source = .ok q) : ∀ rung ∈ q.rungs, rung.comment = [] := by
  obtain ⟨stmts, -, h⟩ := bind_eq_ok h
  split at h
  next => cases h
  next body _ =>
    cases hbody : parseBody body with
    | error err =>
      rw [hbody] at h
      cases h
    | ok rungs =>
      rw [hbody] at h
      cases h
      exact comment_parseBody hbody

/-- The generated text is the header of `main` and the rungs as its statements. -/
theorem readMain_generateLadder (p : LadderProgram) :
    readMain (generateLadder p) =
      readStatements (generateLadder p).length (appendRungs p.rungs) := by
  have hprefix : mainLine.isPrefixOf (generateLadder p) = true :=
    List.isPrefixOf_iff_prefix.mpr (List.prefix_append mainLine _)
  have hdrop : (generateLadder p).drop mainLine.length = appendRungs p.rungs :=
    List.drop_left
  rw [readMain, if_pos hprefix, hdrop]

/-- Without comments the program comes back, or is refused for a preset. -/
theorem toOption_parseLadder [Syntax] {p : LadderProgram}
    (hsorted : ∀ rung ∈ p.rungs, rung.Sorted) (hne : p.rungs ≠ [])
    (hcomments : ∀ rung ∈ p.rungs, rung.comment = []) :
    (parseLadder (generateLadder p)).toOption =
      if p.rungs.all LadderRung.presetsNonneg then some p.unwrap else none := by
  obtain ⟨calls, hlength, hread, hparse⟩ := reads_rungs hsorted hcomments
  have hlong : (appendRungs p.rungs).length ≤ (generateLadder p).length :=
    (List.suffix_append mainLine _).length_le
  have hmain : readMain (generateLadder p) = some calls :=
    (readMain_generateLadder p).trans (hread _ hlong)
  have hcalls : calls ≠ [] := by
    rintro rfl
    exact hne (List.length_eq_zero_iff.mp hlength.symm)
  have hfind : findMain [.defStmt mainWord (calls.map .exprStmt)] =
      some (calls.map .exprStmt) := by
    simp [findMain]
  rw [parseLadder, Syntax.parse_main _ calls hmain hcalls, toOption_bind, toOption_within]
  change (match findMain [.defStmt mainWord (calls.map .exprStmt)] with
    | none => Except.error "parse: no main() function found".toList
    | some body => LadderProgram.mk <$> parseBody body).toOption = _
  rw [hfind, toOption_map, hparse]
  cases p.rungs.all LadderRung.presetsNonneg <;> rfl

/-- A program comes back exactly when it has a rung, no rung has a comment and no preset is
negative. -/
theorem parseLadder_generateLadder_iff [Syntax] (p : LadderProgram)
    (hsorted : ∀ rung ∈ p.rungs, rung.Sorted) :
    parseLadder (generateLadder p) = .ok p.unwrap ↔
      p.rungs ≠ [] ∧ (∀ rung ∈ p.rungs, rung.comment = []) ∧
        ∀ rung ∈ p.rungs, rung.presetsNonneg = true := by
  constructor
  · intro h
    have hne : p.rungs ≠ [] := by
      intro hnil
      have hmain : readMain (generateLadder p) = some [] := by
        rw [readMain_generateLadder, hnil]
        rfl
      obtain ⟨err, herr⟩ := Syntax.parse_empty _ hmain
      rw [parseLadder, herr] at h
      cases h
    have hcomments : ∀ rung ∈ p.rungs, rung.comment = [] := fun rung hrung =>
      comment_parseLadder h rung.unwrap (List.mem_map_of_mem hrung)
    refine ⟨hne, hcomments, ?_⟩
    have hoption := toOption_parseLadder hsorted hne hcomments
    rw [h] at hoption
    have hall := (Option.ite_none_right_eq_some.mp hoption.symm).1
    exact List.all_eq_true.mp hall
  · rintro ⟨hne, hcomments, hpresets⟩
    have hoption := toOption_parseLadder hsorted hne hcomments
    rw [if_pos (List.all_eq_true.mpr hpresets)] at hoption
    cases hresult : parseLadder (generateLadder p) with
    | error err =>
      rw [hresult] at hoption
      cases hoption
    | ok q =>
      rw [hresult] at hoption
      cases hoption
      rfl

end Written

/-- Two rungs: a timer behind a branch with a nested series, and a coil. -/
def pumpProgram : LadderProgram :=
  ⟨[{ conditions := [.branch [[.tagged .no "a\"b".toList], [.series [.tagged .nc "c".toList]]]]
      outputs := [.timed .ton "t".toList 500] },
    { conditions := [], outputs := [.tagged .ote "d".toList] }]⟩

/-- Printable ASCII characters. -/
@[reducible] def asciiPrintable : Printable where
  isPrint c := 32 ≤ c.toNat && c.toNat < 127
  control c h := by simp [Nat.not_le.mpr h]

theorem parseLadder_pumpProgram :
    letI := asciiPrintable
    letI := mainSyntax
    (∀ rung ∈ pumpProgram.rungs, rung.Sorted) ∧
      parseLadder (generateLadder pumpProgram) = .ok pumpProgram.unwrap := by
  let := asciiPrintable
  let := mainSyntax
  have hsorted : ∀ rung ∈ pumpProgram.rungs, rung.Sorted := by
    intro rung hrung
    fin_cases hrung
    · exact ⟨by simp [LadderElement.isCondition], by simp [LadderElement.isCondition]⟩
    · exact ⟨by simp, by simp [LadderElement.isCondition]⟩
  refine ⟨hsorted, (parseLadder_generateLadder_iff pumpProgram hsorted).mpr ⟨nofun, ?_, ?_⟩⟩
  · intro rung hrung
    fin_cases hrung <;> rfl
  · intro rung hrung
    fin_cases hrung <;> decide

/-- One rung with a comment over it. -/
def commentedProgram : LadderProgram :=
  ⟨[{ comment := "Start".toList, conditions := [.tagged .no "a".toList],
      outputs := [.tagged .ote "b".toList] }]⟩

theorem commentedProgram_not_returned :
    letI := asciiPrintable
    letI := mainSyntax
    (∀ rung ∈ commentedProgram.rungs, rung.Sorted) ∧
      parseLadder (generateLadder commentedProgram) ≠ .ok commentedProgram.unwrap := by
  let := asciiPrintable
  let := mainSyntax
  constructor
  · intro rung hrung
    fin_cases hrung
    exact ⟨by simp [LadderElement.isCondition], by simp [LadderElement.isCondition]⟩
  · intro h
    have hcomment := comment_parseLadder h _ List.mem_cons_self
    revert hcomment
    decide

end LadderSource
