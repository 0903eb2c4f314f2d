import Tentacle.StSyntax

/-!
# Structured Text: the work of the lexer

What each function of `StSyntax` costs: the calls of functions of the lexer and the iterations of
its loops, with all the tests of a byte that the source can make. Every loop goes over a byte in
each iteration, so the bytes read pay for the work.
-/

namespace StLexerCost
open StSyntax

/-- A loop over `k` bytes: for each up to two tests, the iteration and the call of `advance`, and
the tests at which it ends. -/
def scanCost (k : Nat) : Nat := 4 * k + 2

/-- The loop inside a block comment. -/
def skipBlockCost : Text → Nat
  | '*' :: ')' :: _ => 2
  | _ :: d :: s => 2 + skipBlockCost (d :: s)
  | _ => 0

def skipWhitespaceAndCommentsCost (line : Nat) (s : Text) : Nat :=
  match s with
  | [] => 0
  | ch :: s =>
    if ch = ' ' ∨ ch = '\t' ∨ ch = '\r' then 2 + skipWhitespaceAndCommentsCost line s
    else if ch = '\n' then 1 + skipWhitespaceAndCommentsCost (line + 1) s
    else if ch = '(' ∧ s.head? = some '*' then
      3 + skipBlockCost s.tail +
        skipWhitespaceAndCommentsCost (skipBlock line s.tail).1 (skipBlock line s.tail).2
    else if ch = '/' ∧ s.head? = some '/' then
      2 + scanCost (1 + (s.takeWhile (· ≠ '\n')).length) +
        skipWhitespaceAndCommentsCost line (s.dropWhile (· ≠ '\n'))
    else 2
termination_by s.length
decreasing_by
  · simp
  · simp
  · have h := length_skipBlock line s.tail
    simp only [List.length_tail, List.length_cons] at h ⊢
    omega
  · have h := (List.dropWhile_sublist (p := (· ≠ '\n')) (l := s)).length_le
    simp only [List.length_cons]
    omega

def lexStringCost (s : Text) : Nat := 3 + scanCost (s.takeWhile (· ≠ '\'')).length

def lexNumberCost (s : Text) : Nat :=
  1 + scanCost (s.takeWhile isMantissa).length + 2 +
    scanCost (exponentLength (s.dropWhile isMantissa))

def lexIdentOrKeywordCost (s : Text) : Nat :=
  let word := s.takeWhile isIdentPart
  let rest := s.dropWhile isIdentPart
  1 + scanCost word.length +
    if toUpper word = ['T'] ∧ rest.head? = some '#' then
      1 + scanCost (rest.tail.takeWhile isIdentPart).length
    else 0

/-- With the two `peek`s and the two tests of a byte that come before the branch taken. -/
def lexTokenCost (ch : Char) (s : Text) : Nat :=
  match twoByteSymbols.lookup (ch, s.headD '\x00') with
  | some _ => 4
  | none =>
    match symbols.lookup ch with
    | some _ => 4
    | none =>
      if ch = '\'' then lexStringCost s
      else if isDigit ch then 1 + lexNumberCost (ch :: s)
      else if isIdentStart ch then 2 + lexIdentOrKeywordCost (ch :: s)
      else 3

def lexFromCost (line : Nat) (s : Text) : Nat :=
  match _h : skipWhitespaceAndComments line s with
  | (_, []) => 2 + skipWhitespaceAndCommentsCost line s
  | (line', ch :: s') =>
    2 + skipWhitespaceAndCommentsCost line s + lexTokenCost ch s' +
      lexFromCost line' (lexToken line' ch s').2
termination_by s.length
decreasing_by
  have hskip := length_skipWhitespaceAndComments line s
  have htoken := length_lexToken line' ch s'
  rw [_h, List.length_cons] at hskip
  omega

/-- `Lex` and the method it calls. -/
def lexCost (input : Text) : Nat := 2 + lexFromCost 1 input

/-- A comment costs two steps for each of its characters. -/
theorem skipBlockCost_le (line : Nat) (s : Text) :
    skipBlockCost s + 2 * (skipBlock line s).2.length ≤ 2 * s.length := by
  fun_induction skipBlock line s with
  | case1 line s => simp only [skipBlockCost, List.length_cons]; omega
  | case2 line c d s hne ih =>
    rw [skipBlockCost]
    · simp only [List.length_cons] at ih ⊢
      omega
    · exact hne
  | case3 line s h₁ h₂ =>
    rw [skipBlockCost]
    · simp only
      omega
    · exact h₁
    · exact h₂

theorem length_takeWhile_add (p : Char → Bool) (s : Text) :
    (s.takeWhile p).length + (s.dropWhile p).length = s.length := by
  rw [← List.length_append, List.takeWhile_append_dropWhile]

theorem skipWhitespaceAndCommentsCost_le (line : Nat) (s : Text) :
    skipWhitespaceAndCommentsCost line s + 8 * (skipWhitespaceAndComments line s).2.length ≤
      8 * s.length + 2 := by
  fun_induction skipWhitespaceAndComments line s with
  | case1 line => simp [skipWhitespaceAndCommentsCost]
  | case2 line ch s hblank ih =>
    rw [skipWhitespaceAndCommentsCost, if_pos hblank, List.length_cons]
    omega
  | case3 line s hblank ih =>
    rw [skipWhitespaceAndCommentsCost, if_neg hblank, if_pos rfl, List.length_cons]
    omega
  | case4 line ch s hblank hnewline hblock ih =>
    rw [skipWhitespaceAndCommentsCost, if_neg hblank, if_neg hnewline, if_pos hblock,
      List.length_cons]
    have hcost := skipBlockCost_le line s.tail
    have hlength := length_skipBlock line s.tail
    rw [List.length_tail] at hcost hlength
    omega
  | case5 line ch s hblank hnewline hblock hline ih =>
    rw [skipWhitespaceAndCommentsCost, if_neg hblank, if_neg hnewline, if_neg hblock, if_pos hline,
      List.length_cons, scanCost]
    have hlength := length_takeWhile_add (· ≠ '\n') s
    omega
  | case6 line ch s hblank hnewline hblock hline =>
    rw [skipWhitespaceAndCommentsCost, if_neg hblank, if_neg hnewline, if_neg hblock, if_neg hline]
    simp only
    omega

theorem exponentLength_le (s : Text) : exponentLength s ≤ s.length := by
  unfold exponentLength
  split
  · next mark s =>
    split
    · have h := fun s : Text => (List.takeWhile_sublist isDigit (l := s)).length_le
      split
      · next sign digits =>
        have hdigits := h digits
        have hs := h (sign :: digits)
        simp only [List.length_cons] at hs ⊢
        split <;> omega
      · simp
    · simp
  · simp

/-- A token costs sixteen for each of its characters. -/
theorem lexTokenCost_le (line : Nat) (ch : Char) (s : Text) :
    lexTokenCost ch s + 16 * (lexToken line ch s).2.length ≤ 16 * s.length + 16 := by
  unfold lexTokenCost lexToken
  cases htwo : twoByteSymbols.lookup (ch, s.headD '\x00') with
  | some type =>
    simp only [List.length_tail]
    omega
  | none =>
    cases hone : symbols.lookup ch with
    | some type =>
      simp only
      omega
    | none =>
      simp only
      split_ifs with hquote hdigit hstart
      · have hlength := length_takeWhile_add (· ≠ '\'') s
        simp only [lexStringCost, scanCost, lexString, List.length_tail]
        omega
      · have hpos := numberLength_pos hdigit s
        have hmantissa := length_takeWhile_add isMantissa (ch :: s)
        have hexponent := exponentLength_le ((ch :: s).dropWhile isMantissa)
        simp only [lexNumberCost, scanCost, lexNumber, numberLength, List.length_drop,
          List.length_cons] at hpos hmantissa ⊢
        omega
      · have hword := length_takeWhile_add isIdentPart (ch :: s)
        have hlast := length_takeWhile_add isIdentPart ((ch :: s).dropWhile isIdentPart).tail
        have hfirst : 0 < ((ch :: s).takeWhile isIdentPart).length := by
          simp [isIdentPart_of_isIdentStart hstart]
        simp only [lexIdentOrKeywordCost, scanCost, lexIdentOrKeyword]
        rw [List.length_cons] at hword
        rw [List.length_tail] at hlast
        split <;> simp only <;> omega
      · simp only
        omega

/-- A text costs a constant for each of its characters. -/
theorem lexFromCost_le (line : Nat) (s : Text) : lexFromCost line s ≤ 24 * s.length + 4 := by
  fun_induction lexFromCost line s with
  | case1 line s line' hskip =>
    have hcost := skipWhitespaceAndCommentsCost_le line s
    omega
  | case2 line s line' ch s' hskip ih =>
    have hcost := skipWhitespaceAndCommentsCost_le line s
    have hlength := length_skipWhitespaceAndComments line s
    have htoken := lexTokenCost_le line' ch s'
    have hrest := length_lexToken line' ch s'
    rw [hskip, List.length_cons] at hcost hlength
    omega

/-- A text has no more tokens than characters, and the last one. -/
theorem length_lexFrom_le (line : Nat) (s : Text) : (lexFrom line s).length ≤ s.length + 1 := by
  fun_induction lexFrom line s with
  | case1 line s line' hskip => simp
  | case2 line s line' ch s' hskip ih =>
    have hlength := length_skipWhitespaceAndComments line s
    have hrest := length_lexToken line' ch s'
    have htoken : (lexToken line' ch s').1.toList.length ≤ 1 := by
      cases (lexToken line' ch s').1 <;> simp
    rw [hskip, List.length_cons] at hlength
    rw [List.length_append]
    omega

end StLexerCost
